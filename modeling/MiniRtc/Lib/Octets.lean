import MiniRtc.Lib.Bytes

/-! Numbers of any width in octets, the highest first, and strings of octets of a fixed
length. -/
namespace Wire

def put (n : Nat) : Nat → Bytes
  | 0 => []
  | count + 1 => BitVec.ofNat 8 (n >>> (8 * count)) :: put n count

def get (b : Bytes) : Nat := b.foldl (fun n c => n <<< 8 ||| c.toNat) 0

@[simp] theorem put_length (n count : Nat) : (put n count).length = count := by
  induction count with
  | zero => rfl
  | succ count ih => simp [put, ih]

/-- The last octet, from the lowest bits. -/
theorem put_succ (n count : Nat) : put n (count + 1) = put (n / 256) count ++ [BitVec.ofNat 8 n] := by
  induction count with
  | zero => simp [put]
  | succ count ih =>
    have shift : n >>> (8 * (count + 1)) = (n / 256) >>> (8 * count) := by
      rw [Nat.shiftRight_eq_div_pow, Nat.shiftRight_eq_div_pow, Nat.div_div_eq_div_mul]
      congr 1
      rw [Nat.mul_succ, Nat.add_comm, Nat.pow_add]
    rw [put, ih, put, shift, List.cons_append]

theorem get_snoc (b : Bytes) (c : Byte) : get (b ++ [c]) = get b * 256 + c.toNat := by
  have low := c.isLt
  rw [get, List.foldl_append, List.foldl_cons, List.foldl_nil, or_shift_eight low]
  rfl

theorem get_put {n count : Nat} (fits : n < 256 ^ count) : get (put n count) = n := by
  induction count generalizing n with
  | zero =>
    have zero : n = 0 := by simpa using fits
    simp [zero, put, get]
  | succ count ih =>
    have high : n / 256 < 256 ^ count := by
      rw [Nat.div_lt_iff_lt_mul (by norm_num)]
      simpa [Nat.pow_succ] using fits
    rw [put_succ, get_snoc, ih high, BitVec.toNat_ofNat]
    omega

/-- The sum of numbers without carries is the sum of their octets. -/
theorem get_xor {a b : Bytes} (same : a.length = b.length) : get (List.zipWith (· ^^^ ·) a b) = get a ^^^ get b := by
  have step : ∀ x y : Nat, ∀ c d : Byte, (x * 256 + c.toNat) ^^^ (y * 256 + d.toNat) = (x ^^^ y) * 256 + (c ^^^ d).toNat := by
    intro x y c d
    rw [← or_shift_eight c.isLt, ← or_shift_eight d.isLt, ← or_shift_eight (c ^^^ d).isLt, BitVec.toNat_xor]
    apply Nat.eq_of_testBit_eq
    intro i
    by_cases low : i < 8
    · simp [Nat.not_le.mpr low]
    · have noBit : ∀ e : Byte, e.toNat.testBit i = false := fun e => Nat.testBit_lt_two_pow
        (lt_of_lt_of_le e.isLt (Nat.pow_le_pow_right (by decide) (not_lt.mp low)))
      simp [noBit, not_lt.mp low]
  induction a using List.reverseRecOn generalizing b with
  | nil =>
    obtain rfl := List.length_eq_zero_iff.mp same.symm
    rfl
  | append_singleton a c ih =>
    rcases List.eq_nil_or_concat b with rfl | ⟨b, d, rfl⟩
    · simp at same
    · have shorter : a.length = b.length := by simpa using same
      rw [List.concat_eq_append, List.zipWith_append shorter, List.zipWith_cons_cons, List.zipWith_nil_left, get_snoc,
        get_snoc, get_snoc, ih shorter, step]

theorem get_lt (b : Bytes) : get b < 256 ^ b.length := by
  induction b using List.reverseRecOn with
  | nil => simp [get]
  | append_singleton b c ih =>
    have low := c.isLt
    rw [get_snoc, List.length_append, List.length_singleton, Nat.pow_succ]
    omega

theorem put_get {b : Bytes} {count : Nat} (size : b.length = count) : put (get b) count = b := by
  subst size
  induction b using List.reverseRecOn with
  | nil => rfl
  | append_singleton b c ih =>
    have low := c.isLt
    have high : (get b * 256 + c.toNat) / 256 = get b := by omega
    have last : BitVec.ofNat 8 (get b * 256 + c.toNat) = c := by
      apply BitVec.eq_of_toNat_eq
      rw [BitVec.toNat_ofNat]
      omega
    rw [List.length_append, List.length_singleton, put_succ, get_snoc, high, ih, last]

/-- Exactly `n` octets. -/
structure Block (n : Nat) where
  octets : Bytes
  size : octets.length = n
deriving DecidableEq

namespace Block

/-- The octets of a string from an offset on. -/
def read (b : Bytes) (offset n : Nat) : Block n where
  octets := (List.range n).map fun i => byteAt b (offset + i)
  size := by simp

def zero (n : Nat) : Block n where
  octets := List.replicate n 0
  size := List.length_replicate

theorem octets_inj {n : Nat} {a b : Block n} (same : a.octets = b.octets) : a = b := by
  cases a
  cases b
  cases same
  rfl

theorem read_octets {b : Bytes} {offset n : Nat} (inside : offset + n ≤ b.length) :
    (read b offset n).octets = slice b offset n := by
  refine List.ext_getElem (by simp [read, slice]; omega) fun i here _ => ?_
  have there : offset + i < b.length := by
    simp only [read, List.length_map, List.length_range] at here
    omega
  simp [read, slice, byteAt_eq there]

end Block

theorem slice_append_drop (b : Bytes) (offset n : Nat) :
    slice b offset n ++ b.drop (offset + n) = b.drop offset := by
  rw [slice, ← List.drop_drop, List.take_append_drop]

/-- The octets between a prefix and a rest of known lengths. -/
theorem slice_middle {a x b : Bytes} {offset n : Nat} (before : a.length = offset)
    (here : x.length = n) : slice (a ++ (x ++ b)) offset n = x := by
  subst before here
  simp [slice]

end Wire
