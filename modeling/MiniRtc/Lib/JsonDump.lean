import MiniRtc.Lib.Bytes
import MiniRtc.Lib.Json

/-! JSON values as nlohmann::json writes them: without blanks, the fields in the order of their keys,
and strings in UTF-8 with the escapes that are needed. The text of a float is a parameter. -/
namespace Json

/-! ### Text -/

/-- The octets of a text. -/
def utf8 (text : List Char) : Wire.Bytes := (text.flatMap String.utf8EncodeChar).map UInt8.toBitVec

/-- How many octets a text has. -/
def width (text : List Char) : Nat := (text.map Char.utf8Size).sum

theorem length_utf8 (text : List Char) : (utf8 text).length = width text := by
  rw [utf8, List.length_map, List.length_flatMap, width]
  simp only [String.length_utf8EncodeChar]

theorem width_append (text text' : List Char) : width (text ++ text') = width text + width text' := by
  rw [width, List.map_append, List.sum_append]
  rfl

theorem width_cons (c : Char) (text : List Char) : width (c :: text) = c.utf8Size + width text := by
  rw [width, List.map_cons, List.sum_cons]
  rfl

theorem utf8ByteSize_eq (s : String) : s.utf8ByteSize = width s.toList := by
  have octets : s.utf8ByteSize = (s.toList.flatMap String.utf8EncodeChar).length := by
    conv_lhs => rw [← String.ofList_toList (s := s)]
    change (List.utf8Encode s.toList).size = _
    rw [List.utf8Encode, List.size_toByteArray]
  rw [octets, ← length_utf8, utf8, List.length_map]

/-- A text of characters of one octet. -/
theorem width_ascii {text : List Char} (plain : ∀ c ∈ text, c.utf8Size = 1) : width text = text.length := by
  rw [width, List.map_congr_left plain, List.map_const', List.sum_replicate, smul_eq_mul, mul_one]

/-! ### Values -/

/-- A digit of a number to the base sixteen. -/
def hexDigit (n : Nat) : Char := Nat.digitChar n

/-- A character in a string. -/
def escape (c : Char) : List Char :=
  if c = Char.ofNat 0x22 then [Char.ofNat 0x5c, Char.ofNat 0x22]
  else if c = Char.ofNat 0x5c then [Char.ofNat 0x5c, Char.ofNat 0x5c]
  else if c = Char.ofNat 0x08 then [Char.ofNat 0x5c, 'b']
  else if c = Char.ofNat 0x09 then [Char.ofNat 0x5c, 't']
  else if c = Char.ofNat 0x0a then [Char.ofNat 0x5c, 'n']
  else if c = Char.ofNat 0x0c then [Char.ofNat 0x5c, 'f']
  else if c = Char.ofNat 0x0d then [Char.ofNat 0x5c, 'r']
  else if c.toNat < 0x20 then
    [Char.ofNat 0x5c, 'u', '0', '0', hexDigit (c.toNat / 16), hexDigit (c.toNat % 16)]
  else [c]

def dumpString (s : String) : List Char :=
  Char.ofNat 0x22 :: (s.toList.flatMap escape ++ [Char.ofNat 0x22])

def dumpInteger (n : Int) : List Char :=
  if n < 0 then '-' :: Nat.toDigits 10 n.natAbs else Nat.toDigits 10 n.natAbs

mutual

def dump (float : BitVec 64 → List Char) : Json → List Char
  | null => ['n', 'u', 'l', 'l']
  | boolean b => if b then ['t', 'r', 'u', 'e'] else ['f', 'a', 'l', 's', 'e']
  | integer v => dumpInteger v.toInt
  | unsigned v => dumpInteger v.toNat
  | Json.float bits => float bits
  | string s => dumpString s
  | array items => Char.ofNat 0x5b :: (dumpItems float items ++ [Char.ofNat 0x5d])
  | object fields => Char.ofNat 0x7b :: (dumpFields float fields ++ [Char.ofNat 0x7d])

def dumpItems (float : BitVec 64 → List Char) : List Json → List Char
  | [] => []
  | item :: items => dump float item ++ if items.isEmpty then [] else ',' :: dumpItems float items

def dumpFields (float : BitVec 64 → List Char) : List (String × Json) → List Char
  | [] => []
  | (key, value) :: fields =>
    dumpString key ++ ':' :: (dump float value ++ if fields.isEmpty then [] else ',' :: dumpFields float fields)

end

/-! ### How long a value is -/

theorem utf8Size_lt {c : Char} (low : c.toNat < 128) : c.utf8Size = 1 := by
  have small : c.val ≤ 0x7f := by
    have bound : c.val.toNat < 128 := low
    exact UInt32.le_iff_toNat_le.mpr (by simpa using Nat.le_of_lt_succ bound)
  unfold Char.utf8Size
  simp only
  exact if_pos small

theorem width_escape (c : Char) : width (escape c) ≤ 6 * c.utf8Size := by
  have one : 1 ≤ c.utf8Size := Char.utf8Size_pos c
  have digit : ∀ n, n < 16 → (hexDigit n).utf8Size = 1 := by decide
  unfold escape
  split_ifs with h₁ h₂ h₃ h₄ h₅ h₆ h₇ h₈
  all_goals try (simp only [width, List.map_cons, List.map_nil, List.sum_cons, List.sum_nil]; exact le_trans (by decide) (Nat.mul_le_mul_left 6 one))
  · have low := digit (c.toNat / 16) (by omega)
    have high := digit (c.toNat % 16) (by omega)
    simp only [width, List.map_cons, List.map_nil, List.sum_cons, List.sum_nil, low, high]
    exact le_trans (by decide) (Nat.mul_le_mul_left 6 one)
  · simp only [width, List.map_cons, List.map_nil, List.sum_cons, List.sum_nil]
    omega

theorem width_flatMap_escape (text : List Char) : width (text.flatMap escape) ≤ 6 * width text := by
  induction text with
  | nil => exact le_rfl
  | cons c text ih =>
    rw [List.flatMap_cons, width_append, width_cons]
    have first := width_escape c
    omega

theorem width_dumpString (s : String) : width (dumpString s) ≤ 2 + 6 * s.utf8ByteSize := by
  have inner := width_flatMap_escape s.toList
  have quote : (Char.ofNat 0x22).utf8Size = 1 := by decide
  rw [dumpString, width_cons, width_append, utf8ByteSize_eq, width_cons, quote]
  change 1 + (width _ + (1 + 0)) ≤ _
  omega

/-- The characters that stand for themselves. -/
def Plain (c : Char) : Prop := 0x20 ≤ c.toNat ∧ c.toNat < 128 ∧ c.toNat ≠ 0x22 ∧ c.toNat ≠ 0x5c

instance (c : Char) : Decidable (Plain c) := by
  unfold Plain
  infer_instance

theorem escape_plain {c : Char} (plain : Plain c) : escape c = [c] := by
  obtain ⟨low, -, quote, backslash⟩ := plain
  have apart : ∀ n, n < 128 → c.toNat ≠ n → c ≠ Char.ofNat n := by
    intro n small other same
    apply other
    rw [same]
    have codes : ∀ n < 128, (Char.ofNat n).toNat = n := by decide
    exact codes n small
  unfold escape
  rw [if_neg (apart _ (by decide) quote), if_neg (apart _ (by decide) backslash), if_neg (apart _ (by decide) (by omega)),
    if_neg (apart _ (by decide) (by omega)), if_neg (apart _ (by decide) (by omega)),
    if_neg (apart _ (by decide) (by omega)), if_neg (apart _ (by decide) (by omega)), if_neg (by omega)]

theorem width_dumpString_plain {s : String} (plain : ∀ c ∈ s.toList, Plain c) :
    width (dumpString s) = 2 + s.toList.length := by
  have same : s.toList.flatMap escape = s.toList := by
    rw [List.flatMap_congr fun c member => escape_plain (plain c member)]
    exact List.flatMap_singleton' s.toList
  have quote : (Char.ofNat 0x22).utf8Size = 1 := by decide
  rw [dumpString, width_cons, width_append, same, width_ascii fun c member => utf8Size_lt (plain c member).2.1, width_cons, quote]
  change 1 + (_ + (1 + 0)) = _
  omega

theorem width_toDigits {n k : Nat} (positive : 0 < k) (bound : n < 10 ^ k) : width (Nat.toDigits 10 n) ≤ k := by
  have ascii : ∀ c ∈ Nat.toDigits 10 n, c.utf8Size = 1 := by
    intro c member
    have digit := Nat.isDigit_of_mem_toDigits (by decide) (by decide) member
    simp only [Char.isDigit, Bool.and_eq_true, decide_eq_true_eq] at digit
    have low : c.val.toNat ≤ 57 := UInt32.le_iff_toNat_le.mp digit.2
    exact utf8Size_lt (lt_of_le_of_lt low (by decide))
  rw [width_ascii ascii]
  exact (Nat.length_toDigits_le_iff (by decide) positive).mpr bound

variable {float : BitVec 64 → List Char}

theorem width_unsigned (v : BitVec 64) : width (dump float (.unsigned v)) ≤ 20 := by
  rw [dump, dumpInteger, if_neg (by omega)]
  refine width_toDigits (by decide) ?_
  have bound := v.isLt
  rw [Int.natAbs_natCast]
  omega

theorem width_integer (v : BitVec 64) : width (dump float (.integer v)) ≤ 20 := by
  have low := BitVec.le_toInt v
  have high : v.toInt < 2 ^ (64 - 1) := BitVec.toInt_lt
  rw [dump, dumpInteger]
  split
  · rw [width_cons]
    have digits := width_toDigits (k := 19) (by decide) (show v.toInt.natAbs < 10 ^ 19 by omega)
    have sign : '-'.utf8Size = 1 := by decide
    omega
  · exact width_toDigits (by decide) (by omega)

/-- A field with its colon, and a comma or a brace. -/
def fieldWidth (float : BitVec 64 → List Char) (field : String × Json) : Nat :=
  width (dumpString field.1) + width (dump float field.2) + 2

theorem width_dumpFields (fields : List (String × Json)) :
    width (dumpFields float fields) ≤ (fields.map (fieldWidth float)).sum := by
  induction fields with
  | nil =>
    rw [dumpFields]
    exact le_rfl
  | cons field fields ih =>
    obtain ⟨key, value⟩ := field
    have colon : ':'.utf8Size = 1 := by decide
    have comma : ','.utf8Size = 1 := by decide
    rw [dumpFields, width_append, width_cons, width_append, List.map_cons, List.sum_cons, fieldWidth, colon]
    simp only
    split
    · have nothing : width [] = 0 := rfl
      omega
    · rw [width_cons, comma]
      omega

theorem width_object (fields : List (String × Json)) :
    width (dump float (.object fields)) ≤ 2 + (fields.map (fieldWidth float)).sum := by
  have inner := @width_dumpFields float fields
  have opening : (Char.ofNat 0x7b).utf8Size = 1 := by decide
  have closing : (Char.ofNat 0x7d).utf8Size = 1 := by decide
  rw [dump, width_cons, width_append, width_cons, opening, closing]
  change 1 + (width _ + (1 + 0)) ≤ _
  omega

end Json
