import Mathlib
import MiniRtc.Lib.Bytes

/-! Numbers as bits, the most significant first, and the Exp-Golomb codes.
Octets are eight bits each. -/
namespace BitWords
open Wire

/-- The `n` low bits of a number. -/
def word : Nat → Nat → List Bool
  | 0, _ => []
  | n + 1, v => v.testBit n :: word n v

def number (bits : List Bool) : Nat := bits.foldl (fun v bit => 2 * v + bit.toNat) 0

@[simp] theorem length_word (n v : Nat) : (word n v).length = n := by
  induction n with
  | zero => rfl
  | succ n ih => simp [word, ih]

theorem foldl_number (bits : List Bool) (v : Nat) :
    bits.foldl (fun v bit => 2 * v + bit.toNat) v = v * 2 ^ bits.length + number bits := by
  induction bits generalizing v with
  | nil => simp [number]
  | cons bit bits ih =>
    rw [number, List.foldl_cons, ih, List.foldl_cons, ih (2 * 0 + bit.toNat), List.length_cons, pow_succ]
    ring

theorem number_cons (bit : Bool) (bits : List Bool) :
    number (bit :: bits) = bit.toNat * 2 ^ bits.length + number bits := by
  rw [number, List.foldl_cons, foldl_number, mul_zero, zero_add]

theorem number_lt (bits : List Bool) : number bits < 2 ^ bits.length := by
  induction bits with
  | nil => simp [number]
  | cons bit bits ih =>
    rw [number_cons, List.length_cons, pow_succ]
    cases bit <;> simp <;> omega

theorem word_mod {m n : Nat} (le : m ≤ n) (v : Nat) : word m (v % 2 ^ n) = word m v := by
  induction m with
  | zero => rfl
  | succ m ih => simp [word, Nat.testBit_mod_two_pow, ih (by omega), show m < n by omega]

/-- A number of enough bits is read back. -/
theorem number_word {n v : Nat} (short : v < 2 ^ n) : number (word n v) = v := by
  induction n generalizing v with
  | zero =>
    rw [pow_zero, Nat.lt_one_iff] at short
    rw [short]
    rfl
  | succ n ih =>
    rw [word, number_cons, length_word, ← word_mod le_rfl v, ih (Nat.mod_lt _ (by positivity)),
      Nat.testBit_eq_decide_div_mod_eq]
    have whole := Nat.div_add_mod v (2 ^ n)
    have top : v / 2 ^ n < 2 := by
      rw [Nat.div_lt_iff_lt_mul (by positivity)]
      rwa [pow_succ, mul_comm] at short
    rcases Nat.le_one_iff_eq_zero_or_eq_one.mp (Nat.lt_succ_iff.mp top) with zero | one
    · simp [zero] at whole ⊢
      omega
    · simp [one] at whole ⊢
      omega

theorem word_number (bits : List Bool) : word bits.length (number bits) = bits := by
  induction bits with
  | nil => rfl
  | cons bit bits ih =>
    have less := number_lt bits
    have low : (bit.toNat * 2 ^ bits.length + number bits) % 2 ^ bits.length = number bits := by
      rw [Nat.mul_add_mod_self_right, Nat.mod_eq_of_lt less]
    have high : (bit.toNat * 2 ^ bits.length + number bits) / 2 ^ bits.length = bit.toNat := by
      rw [Nat.add_comm, Nat.add_mul_div_right _ _ (by positivity), Nat.div_eq_of_lt less, Nat.zero_add]
    rw [number_cons, List.length_cons, word, ← word_mod le_rfl, low, ih, Nat.testBit_eq_decide_div_mod_eq, high]
    cases bit
    · rfl
    · rfl

/-! ### Octets -/

def bitsOf (data : Bytes) : List Bool := data.flatMap fun byte => word 8 byte.toNat

@[simp] theorem length_bitsOf (data : Bytes) : (bitsOf data).length = 8 * data.length := by
  induction data with
  | nil => rfl
  | cons byte data ih =>
    simp only [bitsOf, List.flatMap_cons, List.length_append, length_word, List.length_cons] at ih ⊢
    omega

/-- A whole number of octets. -/
def pack : List Bool → Bytes
  | a :: b :: c :: d :: e :: f :: g :: h :: rest => BitVec.ofNat 8 (number [a, b, c, d, e, f, g, h]) :: pack rest
  | _ => []

theorem word_octet (a b c d e f g h : Bool) :
    word 8 (BitVec.ofNat 8 (number [a, b, c, d, e, f, g, h])).toNat = [a, b, c, d, e, f, g, h] := by
  have less : number [a, b, c, d, e, f, g, h] < 2 ^ 8 := number_lt _
  rw [BitVec.toNat_ofNat, Nat.mod_eq_of_lt less]
  exact word_number [a, b, c, d, e, f, g, h]

theorem bitsOf_pack {bits : List Bool} (whole : 8 ∣ bits.length) : bitsOf (pack bits) = bits := by
  induction bits using pack.induct with
  | case1 a b c d e f g h rest ih =>
    have shorter : 8 ∣ rest.length := by
      simp only [List.length_cons] at whole
      omega
    rw [pack, bitsOf, List.flatMap_cons, word_octet]
    exact congrArg _ (ih shorter)
  | case2 bits short =>
    have few : bits.length < 8 := by
      by_contra many
      rcases bits with _ | ⟨a, _ | ⟨b, _ | ⟨c, _ | ⟨d, _ | ⟨e, _ | ⟨f, _ | ⟨g, _ | ⟨h, rest⟩⟩⟩⟩⟩⟩⟩⟩
      iterate 8 exact many (by simp)
      exact short a b c d e f g h rest rfl
    obtain rfl := List.eq_nil_of_length_eq_zero (Nat.eq_zero_of_dvd_of_lt whole few)
    rfl

/-- The bit at a place is in the octet of it. -/
theorem getElem?_bitsOf {data : Bytes} {place : Nat} {byte : Byte} (there : data[place / 8]? = some byte) :
    (bitsOf data)[place]? = some (byte.toNat.testBit (7 - place % 8)) := by
  induction data generalizing place with
  | nil => simp at there
  | cons first data ih =>
    rw [bitsOf, List.flatMap_cons]
    by_cases inside : place < 8
    · rw [List.getElem?_append_left (by simpa using inside)]
      rw [Nat.div_eq_of_lt inside] at there
      obtain rfl := Option.some.inj there
      rw [Nat.mod_eq_of_lt inside]
      interval_cases place <;> rfl
    · obtain ⟨after, rfl⟩ : ∃ after, place = after + 8 := ⟨place - 8, by omega⟩
      rw [List.getElem?_append_right (by simp)]
      rw [Nat.add_div_right _ (by decide), List.getElem?_cons_succ] at there
      rw [length_word, Nat.add_sub_cancel, Nat.add_mod_right]
      exact ih there

/-! ### Exp-Golomb codes -/

/-- As many zeros as bits follow the one. -/
def golomb (v : Nat) : List Bool :=
  List.replicate (Nat.log2 (v + 1)) false ++ [true] ++ word (Nat.log2 (v + 1)) (v + 1)

/-- Positive numbers have the odd codes. -/
def signedGolomb (v : Int) : List Bool := golomb (if 0 < v then (2 * v - 1).toNat else (-2 * v).toNat)

theorem number_golomb (v : Nat) :
    2 ^ Nat.log2 (v + 1) - 1 + number (word (Nat.log2 (v + 1)) (v + 1)) = v := by
  have low := Nat.log2_self_le (Nat.succ_ne_zero v)
  have high := Nat.lt_log2_self (n := v + 1)
  generalize hz : Nat.log2 (v + 1) = z at low high ⊢
  have whole : number (word (z + 1) (v + 1)) = v + 1 := number_word high
  have top : (v + 1).testBit z = true := by
    rw [Nat.testBit_eq_decide_div_mod_eq]
    have : (v + 1) / 2 ^ z = 1 := by
      rw [Nat.div_eq_iff (by positivity)]
      rw [pow_succ] at high
      omega
    simp [this]
  rw [word, top, number_cons, length_word] at whole
  have positive : 0 < 2 ^ z := by positivity
  simp only [Bool.toNat_true, one_mul] at whole
  omega

end BitWords
