import Mathlib

/-! Byte strings and big-endian numbers.
A byte string is a list of octets. Reading past its end gives zero, so that a
reader is total; every bound is checked by the caller. -/
namespace Wire

abbrev Byte := BitVec 8
abbrev Bytes := List Byte

/-- The octet at an index. -/
def byteAt (b : Bytes) (i : Nat) : Byte := b.getD i 0

/-- The octets from an offset on, at most `n` of them. -/
def slice (b : Bytes) (offset n : Nat) : Bytes := (b.drop offset).take n

def get16 (b : Bytes) (i : Nat) : BitVec 16 :=
  BitVec.ofNat 16 ((byteAt b i).toNat <<< 8 ||| (byteAt b (i + 1)).toNat)

def get32 (b : Bytes) (i : Nat) : BitVec 32 :=
  BitVec.ofNat 32 ((get16 b i).toNat <<< 16 ||| (get16 b (i + 2)).toNat)

def put16 (v : BitVec 16) : Bytes :=
  [BitVec.ofNat 8 (v.toNat >>> 8), BitVec.ofNat 8 v.toNat]

def put32 (v : BitVec 32) : Bytes :=
  [BitVec.ofNat 8 (v.toNat >>> 24), BitVec.ofNat 8 (v.toNat >>> 16),
    BitVec.ofNat 8 (v.toNat >>> 8), BitVec.ofNat 8 v.toNat]

theorem byteAt_eq {b : Bytes} {i : Nat} (h : i < b.length) : byteAt b i = b[i] := by
  simp [byteAt, h]

theorem byteAt_append_left {a b : Bytes} {i : Nat} (h : i < a.length) :
    byteAt (a ++ b) i = byteAt a i := by
  simp [byteAt, List.getElem?_append_left h]

theorem byteAt_append_right {a b : Bytes} {i : Nat} (h : a.length ≤ i) :
    byteAt (a ++ b) i = byteAt b (i - a.length) := by
  simp [byteAt, List.getElem?_append_right h]

theorem byteAt_take {b : Bytes} {n i : Nat} (h : i < n) : byteAt (b.take n) i = byteAt b i := by
  simp [byteAt, List.getElem?_take_of_lt h]

theorem byteAt_drop (b : Bytes) (n i : Nat) : byteAt (b.drop n) i = byteAt b (n + i) := by
  simp [byteAt, List.getElem?_drop]

theorem or_shift_eight {a b : Nat} (h : b < 256) : a <<< 8 ||| b = a * 256 + b := by
  rw [Nat.shiftLeft_eq, Nat.mul_comm, ← Nat.two_pow_add_eq_or_of_lt (i := 8) h a]

theorem or_shift_sixteen {a b : Nat} (h : b < 65536) : a <<< 16 ||| b = a * 65536 + b := by
  rw [Nat.shiftLeft_eq, Nat.mul_comm, ← Nat.two_pow_add_eq_or_of_lt (i := 16) h a]

theorem get16_toNat (b : Bytes) (i : Nat) :
    (get16 b i).toNat = (byteAt b i).toNat * 256 + (byteAt b (i + 1)).toNat := by
  have h0 := (byteAt b i).isLt
  have h1 := (byteAt b (i + 1)).isLt
  rw [get16, or_shift_eight h1, BitVec.toNat_ofNat]
  omega

theorem get32_toNat (b : Bytes) (i : Nat) :
    (get32 b i).toNat = (byteAt b i).toNat * 16777216 + (byteAt b (i + 1)).toNat * 65536 +
      (byteAt b (i + 2)).toNat * 256 + (byteAt b (i + 3)).toNat := by
  have h0 := (get16 b i).isLt
  have h1 := (get16 b (i + 2)).isLt
  have e0 := get16_toNat b i
  have e1 : (get16 b (i + 2)).toNat = (byteAt b (i + 2)).toNat * 256 + (byteAt b (i + 3)).toNat :=
    get16_toNat b (i + 2)
  rw [get32, or_shift_sixteen h1, BitVec.toNat_ofNat]
  omega

@[simp] theorem put16_length (v : BitVec 16) : (put16 v).length = 2 := rfl
@[simp] theorem put32_length (v : BitVec 32) : (put32 v).length = 4 := rfl

theorem byteAt_append_add (a b : Bytes) (i : Nat) : byteAt (a ++ b) (a.length + i) = byteAt b i := by
  rw [byteAt_append_right (Nat.le_add_right _ _), Nat.add_sub_cancel_left]

/-- Reading back the octets of a number, wherever they stand. -/
theorem get16_put16 (a b : Bytes) (v : BitVec 16) (i : Nat) (h : a.length = i) :
    get16 (a ++ (put16 v ++ b)) i = v := by
  subst h
  apply BitVec.eq_of_toNat_eq
  have hv := v.isLt
  have h0 := byteAt_append_add a (put16 v ++ b) 0
  rw [Nat.add_zero] at h0
  rw [get16_toNat, h0, byteAt_append_add]
  simp [byteAt, put16, Nat.shiftRight_eq_div_pow]
  omega

theorem get32_put32 (a b : Bytes) (v : BitVec 32) (i : Nat) (h : a.length = i) :
    get32 (a ++ (put32 v ++ b)) i = v := by
  subst h
  apply BitVec.eq_of_toNat_eq
  have hv := v.isLt
  have h0 := byteAt_append_add a (put32 v ++ b) 0
  rw [Nat.add_zero] at h0
  rw [get32_toNat, h0, byteAt_append_add, byteAt_append_add, byteAt_append_add]
  simp [byteAt, put32, Nat.shiftRight_eq_div_pow]
  omega

/-- Writing back what was read. -/
theorem put16_get16 {b : Bytes} {i : Nat} (h : i + 2 ≤ b.length) :
    put16 (get16 b i) = slice b i 2 := by
  have h0 := (byteAt b i).isLt
  have h1 := (byteAt b (i + 1)).isLt
  have hs : slice b i 2 = [byteAt b i, byteAt b (i + 1)] := by
    rw [slice, byteAt_eq (by omega), byteAt_eq (by omega), List.drop_eq_getElem_cons (by omega),
      List.drop_eq_getElem_cons (by omega)]
    rfl
  rw [hs, put16, get16_toNat, Nat.shiftRight_eq_div_pow]
  congr 1
  · apply BitVec.eq_of_toNat_eq; rw [BitVec.toNat_ofNat]; omega
  · congr 1; apply BitVec.eq_of_toNat_eq; rw [BitVec.toNat_ofNat]; omega

theorem put32_get32 {b : Bytes} {i : Nat} (h : i + 4 ≤ b.length) :
    put32 (get32 b i) = slice b i 4 := by
  have h0 := (byteAt b i).isLt
  have h1 := (byteAt b (i + 1)).isLt
  have h2 := (byteAt b (i + 2)).isLt
  have h3 := (byteAt b (i + 3)).isLt
  have hs : slice b i 4 =
      [byteAt b i, byteAt b (i + 1), byteAt b (i + 2), byteAt b (i + 3)] := by
    rw [slice, byteAt_eq (by omega), byteAt_eq (by omega), byteAt_eq (by omega),
      byteAt_eq (by omega), List.drop_eq_getElem_cons (by omega),
      List.drop_eq_getElem_cons (by omega), List.drop_eq_getElem_cons (by omega),
      List.drop_eq_getElem_cons (by omega)]
    rfl
  rw [hs, put32, get32_toNat]
  simp only [Nat.shiftRight_eq_div_pow]
  congr 1
  · apply BitVec.eq_of_toNat_eq; rw [BitVec.toNat_ofNat]; omega
  congr 1
  · apply BitVec.eq_of_toNat_eq; rw [BitVec.toNat_ofNat]; omega
  congr 1
  · apply BitVec.eq_of_toNat_eq; rw [BitVec.toNat_ofNat]; omega
  · congr 1; apply BitVec.eq_of_toNat_eq; rw [BitVec.toNat_ofNat]; omega

/-! ### Writing in place -/

/-- The octets with those from an offset on replaced. -/
def overwrite (b : Bytes) (offset : Nat) (v : Bytes) : Bytes :=
  b.take offset ++ (v ++ b.drop (offset + v.length))

theorem overwrite_length {b : Bytes} {offset : Nat} {v : Bytes} (fits : offset + v.length ≤ b.length) :
    (overwrite b offset v).length = b.length := by
  simp only [overwrite, List.length_append, List.length_take, List.length_drop]
  omega

theorem byteAt_overwrite_outside {b : Bytes} {offset i : Nat} {v : Bytes}
    (fits : offset + v.length ≤ b.length) (outside : i < offset ∨ offset + v.length ≤ i) :
    byteAt (overwrite b offset v) i = byteAt b i := by
  have front : (b.take offset).length = offset := by
    rw [List.length_take]
    omega
  rcases outside with before | after
  · rw [overwrite, byteAt_append_left (by omega), byteAt_take before]
  · rw [overwrite, byteAt_append_right (by omega), byteAt_append_right (by omega), byteAt_drop, front]
    congr 1
    omega

/-- Only the part that holds the offset changes. -/
theorem overwrite_append_left {a b v : Bytes} {offset : Nat} (fits : offset + v.length ≤ a.length) :
    overwrite (a ++ b) offset v = overwrite a offset v ++ b := by
  rw [overwrite, overwrite, List.take_append_of_le_length (by omega),
    List.drop_append_of_le_length fits, List.append_assoc, List.append_assoc]

theorem overwrite_append_right {a b v : Bytes} {offset : Nat} (inside : a.length ≤ offset) :
    overwrite (a ++ b) offset v = a ++ overwrite b (offset - a.length) v := by
  have split : offset = a.length + (offset - a.length) := by omega
  rw [split, overwrite, overwrite, List.take_length_add_append, Nat.add_assoc,
    List.drop_length_add_append, List.append_assoc, Nat.add_sub_cancel_left]

@[simp] theorem overwrite_nil (b : Bytes) (offset : Nat) : overwrite b offset [] = b := by
  simp [overwrite]

/-- A write over a part of its own length. -/
theorem overwrite_part {a x c v : Bytes} (same : x.length = v.length) :
    overwrite (a ++ (x ++ c)) a.length v = a ++ (v ++ c) := by
  rw [overwrite, List.take_left, ← same, ← List.drop_drop, List.drop_left, List.drop_left]

/-- The part of the octets that a write replaces. -/
theorem split_at {b : Bytes} {offset n : Nat} (inside : offset + n ≤ b.length) :
    ∃ a x c, b = a ++ (x ++ c) ∧ a.length = offset ∧ x.length = n :=
  ⟨b.take offset, slice b offset n, b.drop (offset + n),
    by rw [slice, ← List.drop_drop, List.take_append_drop, List.take_append_drop],
    by rw [List.length_take]; omega, by rw [slice, List.length_take, List.length_drop]; omega⟩

theorem split_two {b : Bytes} {offset m n : Nat} (inside : offset + m + n ≤ b.length) :
    ∃ a x y c, b = a ++ (x ++ (y ++ c)) ∧ a.length = offset ∧ x.length = m ∧ y.length = n := by
  obtain ⟨a, z, c, rfl, size, whole⟩ := split_at (Nat.add_assoc _ _ _ ▸ inside)
  refine ⟨a, z.take m, z.drop m, c, ?_, size, ?_, ?_⟩
  · rw [← List.append_assoc (z.take m), List.take_append_drop]
  · rw [List.length_take]; omega
  · rw [List.length_drop]; omega

/-- What follows a write directly may be written with it. -/
theorem overwrite_overwrite {b v w : Bytes} {offset : Nat}
    (inside : offset + v.length + w.length ≤ b.length) :
    overwrite (overwrite b offset v) (offset + v.length) w = overwrite b offset (v ++ w) := by
  obtain ⟨a, x, y, c, rfl, rfl, first, second⟩ := split_two inside
  have whole : (x ++ y).length = (v ++ w).length := by simp [first, second]
  rw [overwrite_part first, ← List.append_assoc a v, ← List.length_append, overwrite_part second,
    ← List.append_assoc x, overwrite_part whole, List.append_assoc, List.append_assoc]

/-- What stands directly before a write may be written with it. -/
theorem overwrite_before {b v w : Bytes} {offset : Nat}
    (inside : offset + v.length + w.length ≤ b.length) :
    overwrite (overwrite b (offset + v.length) w) offset v = overwrite b offset (v ++ w) := by
  obtain ⟨a, x, y, c, rfl, rfl, first, second⟩ := split_two inside
  have whole : (x ++ y).length = (v ++ w).length := by simp [first, second]
  rw [← List.append_assoc x, overwrite_part whole, ← first, List.append_assoc x,
    ← List.append_assoc a, ← List.length_append, overwrite_part second, List.append_assoc a,
    overwrite_part first, List.append_assoc]

theorem take_overwrite {b v : Bytes} {offset : Nat} (inside : offset + v.length ≤ b.length) :
    (overwrite b offset v).take (offset + v.length) = b.take offset ++ v := by
  obtain ⟨a, x, c, rfl, rfl, size⟩ := split_at inside
  rw [overwrite_part size, List.take_left, ← List.append_assoc, ← List.length_append, List.take_left]

theorem drop_overwrite {b v : Bytes} {offset n : Nat} (inside : offset + v.length ≤ b.length)
    (behind : offset + v.length ≤ n) : (overwrite b offset v).drop n = b.drop n := by
  obtain ⟨a, x, c, rfl, rfl, size⟩ := split_at inside
  obtain ⟨k, rfl⟩ := Nat.exists_eq_add_of_le behind
  rw [overwrite_part size, ← List.drop_drop, ← List.drop_drop, ← List.drop_drop, ← List.drop_drop,
    List.drop_left, List.drop_left, List.drop_left, ← size, List.drop_left]

/-! ### Cutting a list into pieces of one size -/

/-- The pieces of at most `width` elements, in order, make up the list. -/
theorem flatten_pieces {α : Type} (width : Nat) : ∀ (count : Nat) (xs : List α),
    xs.length ≤ count * width →
      ((List.range count).map fun i => (xs.drop (i * width)).take width).flatten = xs := by
  intro count
  induction count with
  | zero =>
    intro xs short
    simp [List.eq_nil_of_length_eq_zero (by omega : xs.length = 0)]
  | succ count ih =>
    intro xs short
    have rest : (xs.drop width).length ≤ count * width := by
      rw [List.length_drop]
      rw [Nat.succ_mul] at short
      omega
    have shift : ∀ i, xs.drop ((i + 1) * width) = (xs.drop width).drop (i * width) := by
      intro i
      rw [List.drop_drop, Nat.succ_mul, Nat.add_comm]
    rw [List.range_succ_eq_map]
    simp only [List.map_cons, List.map_map, List.flatten_cons, Function.comp_def, Nat.zero_mul,
      List.drop_zero, Nat.succ_eq_add_one, shift]
    rw [ih _ rest, List.take_append_drop]

/-! ### Early returns
A parser that may fail is a chain of guards and steps. These two rules take a successful
chain apart into its conditions. -/

theorem guard_eq_ok_iff {ε α : Type} {c : Prop} [Decidable c] {e : ε} {x : Except ε α} {r : α} :
    (if c then .error e else x) = .ok r ↔ ¬ c ∧ x = .ok r := by
  by_cases h : c <;> simp [h]

theorem bind_eq_ok_iff {ε α β : Type} {x : Except ε α} {f : α → Except ε β} {r : β} :
    (x >>= f) = .ok r ↔ ∃ a, x = .ok a ∧ f a = .ok r := by
  cases x with
  | error e => simp [bind, Except.bind]
  | ok a => simp [bind, Except.bind]

/-- A window that leaves out its first octets. -/
theorem slice_drop (b : Bytes) (offset n k : Nat) :
    slice b (offset + k) (n - k) = (slice b offset n).drop k := by
  rw [slice, slice, List.drop_take, List.drop_drop]

end Wire
