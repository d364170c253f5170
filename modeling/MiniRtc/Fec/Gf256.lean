import MiniRtc.Lib.Bytes

/-! The field of the erasure code (rs_small.cpp): octets, added bit by bit and multiplied modulo the
polynomial 0x11d. A product is linear in both factors, so the laws of the field hold once they hold
for the powers of two. -/
namespace MiniRtc.Fec

open Wire

/-- Twice an octet; the ninth bit is reduced by 0x11d. -/
def double (x : Byte) : Byte := if x.msb then x <<< 1 ^^^ 0x1d#8 else x <<< 1

def multiplyBits : Nat → Byte → Byte → Byte → Byte
  | 0, _, _, product => product
  | bit + 1, x, y, product =>
    multiplyBits bit (double x) (y >>> 1) (if y.getLsbD 0 then product ^^^ x else product)

def multiply (a b : Byte) : Byte := multiplyBits 8 a b 0#8

/-- The last octet whose product with this one is one. -/
def inverse (a : Byte) : Byte :=
  (((List.range 256).reverse.map (BitVec.ofNat 8)).find? fun b => multiply a b = 1#8).getD 0#8

/-! ### Linearity -/

theorem double_xor (a b : Byte) : double (a ^^^ b) = double a ^^^ double b := by
  unfold double
  rw [BitVec.msb_xor, BitVec.shiftLeft_xor_distrib]
  cases a.msb
  · cases b.msb
    · simp
    · simp [BitVec.xor_assoc]
  · cases b.msb
    · simp only [Bool.xor_false, if_true, Bool.false_eq_true, if_false]
      rw [BitVec.xor_assoc, BitVec.xor_comm (b <<< 1), ← BitVec.xor_assoc]
    · simp only [Bool.xor_self, Bool.false_eq_true, if_false, if_true]
      rw [BitVec.xor_comm (b <<< 1), BitVec.xor_assoc, ← BitVec.xor_assoc 0x1d#8, BitVec.xor_self, BitVec.zero_xor]

theorem multiplyBits_zero (x y product : Byte) : multiplyBits 0 x y product = product := rfl

theorem multiplyBits_step (bit : Nat) (x y product : Byte) :
    multiplyBits (bit + 1) x y product =
      multiplyBits bit (double x) (y >>> 1) (if y.getLsbD 0 then product ^^^ x else product) := rfl

theorem multiplyBits_product (bit : Nat) (x y product : Byte) :
    multiplyBits bit x y product = product ^^^ multiplyBits bit x y 0#8 := by
  induction bit generalizing x y product with
  | zero => simp [multiplyBits_zero]
  | succ bit ih =>
    rw [multiplyBits_step, multiplyBits_step, ih, ih _ _ (if y.getLsbD 0 then 0#8 ^^^ x else 0#8), ← BitVec.xor_assoc]
    split
    · rw [BitVec.zero_xor]
    · rw [BitVec.xor_zero]

theorem multiplyBits_succ (bit : Nat) (x y : Byte) :
    multiplyBits (bit + 1) x y 0#8 =
      (if y.getLsbD 0 then x else 0#8) ^^^ multiplyBits bit (double x) (y >>> 1) 0#8 := by
  rw [multiplyBits_step, multiplyBits_product]
  simp only [BitVec.zero_xor]

theorem multiplyBits_xor_left (bit : Nat) (a a' b : Byte) :
    multiplyBits bit (a ^^^ a') b 0#8 = multiplyBits bit a b 0#8 ^^^ multiplyBits bit a' b 0#8 := by
  induction bit generalizing a a' b with
  | zero => simp [multiplyBits_zero]
  | succ bit ih =>
    simp only [multiplyBits_succ, double_xor, ih]
    cases b.getLsbD 0
    · simp
    · simp only [if_true]
      ac_rfl

theorem multiplyBits_xor_right (bit : Nat) (a b b' : Byte) :
    multiplyBits bit a (b ^^^ b') 0#8 = multiplyBits bit a b 0#8 ^^^ multiplyBits bit a b' 0#8 := by
  induction bit generalizing a b b' with
  | zero => simp [multiplyBits_zero]
  | succ bit ih =>
    simp only [multiplyBits_succ, BitVec.getLsbD_xor, BitVec.ushiftRight_xor_distrib, ih]
    cases b.getLsbD 0
    · cases b'.getLsbD 0
      · simp
      · simp only [Bool.xor_true, Bool.not_false, if_true, Bool.false_eq_true, if_false, BitVec.zero_xor]
        ac_rfl
    · cases b'.getLsbD 0
      · simp only [Bool.xor_false, if_true, Bool.false_eq_true, if_false, BitVec.zero_xor]
        ac_rfl
      · simp only [Bool.xor_self, Bool.false_eq_true, if_false, if_true]
        rw [BitVec.zero_xor, BitVec.xor_assoc, ← BitVec.xor_assoc _ a, BitVec.xor_comm _ a, BitVec.xor_assoc a,
          ← BitVec.xor_assoc a a, BitVec.xor_self, BitVec.zero_xor]

theorem multiply_xor_left (a a' b : Byte) : multiply (a ^^^ a') b = multiply a b ^^^ multiply a' b :=
  multiplyBits_xor_left 8 a a' b

theorem multiply_xor_right (a b b' : Byte) : multiply a (b ^^^ b') = multiply a b ^^^ multiply a b' :=
  multiplyBits_xor_right 8 a b b'

def powers : List Byte := [1#8, 2#8, 4#8, 8#8, 16#8, 32#8, 64#8, 128#8]

def square (a : Byte) : Byte := multiply a a

/-- What is computed, all of it at once: on all octets, and on the powers of two. -/
theorem computed :
    (∀ a : Byte, a = (a &&& 1#8) ^^^ (a &&& 2#8) ^^^ (a &&& 4#8) ^^^ (a &&& 8#8) ^^^
      (a &&& 16#8) ^^^ (a &&& 32#8) ^^^ (a &&& 64#8) ^^^ (a &&& 128#8)) ∧
    (∀ a : Byte, square a = a → a = 0#8 ∨ a = 1#8) ∧
    ∀ power ∈ powers,
      (∀ power' ∈ powers, multiply power power' = multiply power' power ∧
        multiply power (double power') = double (multiply power power')) ∧
      multiply power 1#8 = power ∧
      (power = 1#8 ∨ ∃ power' ∈ powers, power = double power' ∧ power'.toNat < power.toNat) ∧
      square (square (square (square (square (square (square (square power))))))) = power := by decide +kernel

/-- An octet is the sum of its bits. -/
theorem eq_bits : ∀ a : Byte, a = (a &&& 1#8) ^^^ (a &&& 2#8) ^^^ (a &&& 4#8) ^^^ (a &&& 8#8) ^^^
    (a &&& 16#8) ^^^ (a &&& 32#8) ^^^ (a &&& 64#8) ^^^ (a &&& 128#8) := computed.1

theorem idempotent : ∀ a : Byte, square a = a → a = 0#8 ∨ a = 1#8 := computed.2.1

theorem on_powers : ∀ power ∈ powers,
    (∀ power' ∈ powers, multiply power power' = multiply power' power ∧
      multiply power (double power') = double (multiply power power')) ∧
    multiply power 1#8 = power ∧
    (power = 1#8 ∨ ∃ power' ∈ powers, power = double power' ∧ power'.toNat < power.toNat) ∧
    square (square (square (square (square (square (square (square power))))))) = power := computed.2.2

theorem powers_eq : powers = (List.range 8).map (BitVec.twoPow 8) := by decide

theorem and_power : ∀ power ∈ powers, ∀ a : Byte, a &&& power = 0#8 ∨ a &&& power = power := by
  intro power member a
  rw [powers_eq] at member
  obtain ⟨i, -, rfl⟩ := List.mem_map.mp member
  rw [BitVec.and_twoPow]
  split
  · exact .inr rfl
  · exact .inl rfl

/-- Linear functions that agree on the powers of two are equal. -/
theorem linear_ext {f g : Byte → Byte} (linear : ∀ a b, f (a ^^^ b) = f a ^^^ f b)
    (linear' : ∀ a b, g (a ^^^ b) = g a ^^^ g b) (same : ∀ power ∈ powers, f power = g power) (a : Byte) :
    f a = g a := by
  have zero : f 0#8 = 0#8 := by
    have twice := linear 0#8 0#8
    rwa [BitVec.xor_self, BitVec.xor_self] at twice
  have zero' : g 0#8 = 0#8 := by
    have twice := linear' 0#8 0#8
    rwa [BitVec.xor_self, BitVec.xor_self] at twice
  have bit : ∀ power ∈ powers, f (a &&& power) = g (a &&& power) := by
    intro power member
    rcases and_power power member a with none | whole
    · rw [none, zero, zero']
    · rw [whole, same power member]
  simp only [powers, List.forall_mem_cons] at bit
  obtain ⟨b0, b1, b2, b3, b4, b5, b6, b7, -⟩ := bit
  rw [eq_bits a]
  simp only [linear, linear', b0, b1, b2, b3, b4, b5, b6, b7]

/-- Two functions, linear in both arguments, that agree on the powers of two are equal. -/
theorem bilinear_ext {f g : Byte → Byte → Byte} (left : ∀ a a' b, f (a ^^^ a') b = f a b ^^^ f a' b)
    (right : ∀ a b b', f a (b ^^^ b') = f a b ^^^ f a b') (left' : ∀ a a' b, g (a ^^^ a') b = g a b ^^^ g a' b)
    (right' : ∀ a b b', g a (b ^^^ b') = g a b ^^^ g a b')
    (same : ∀ power ∈ powers, ∀ power' ∈ powers, f power power' = g power power') (a b : Byte) : f a b = g a b := by
  refine linear_ext (right a) (right' a) (fun power' member' => ?_) b
  refine linear_ext (f := fun a => f a power') (g := fun a => g a power') (fun x y => left x y power')
    (fun x y => left' x y power') (fun power member => ?_) a
  exact same power member power' member'

theorem multiply_comm (a b : Byte) : multiply a b = multiply b a :=
  bilinear_ext (g := fun a b => multiply b a) multiply_xor_left multiply_xor_right (fun a a' b => multiply_xor_right b a a')
    (fun a b b' => multiply_xor_left b b' a)
    (fun power member power' member' => ((on_powers power member).1 power' member').1) a b

theorem multiply_double (a b : Byte) : multiply a (double b) = double (multiply a b) :=
  bilinear_ext (f := fun a b => multiply a (double b)) (g := fun a b => double (multiply a b))
    (fun a a' b => multiply_xor_left a a' (double b)) (fun a b b' => by rw [double_xor, multiply_xor_right])
    (fun a a' b => by rw [multiply_xor_left, double_xor]) (fun a b b' => by rw [multiply_xor_right, double_xor])
    (fun power member power' member' => ((on_powers power member).1 power' member').2) a b

theorem multiply_one (a : Byte) : multiply a 1#8 = a :=
  linear_ext (f := fun a => multiply a 1#8) (g := id) (fun a a' => multiply_xor_left a a' 1#8) (fun _ _ => rfl)
    (fun power member => (on_powers power member).2.1) a

theorem one_multiply (a : Byte) : multiply 1#8 a = a := (multiply_comm 1#8 a).trans (multiply_one a)

theorem powers_double : ∀ power ∈ powers, power = 1#8 ∨ ∃ power' ∈ powers, power = double power' ∧
    power'.toNat < power.toNat :=
  fun power member => (on_powers power member).2.2.1

theorem multiply_assoc (a b c : Byte) : multiply (multiply a b) c = multiply a (multiply b c) := by
  refine linear_ext (g := fun c => multiply a (multiply b c)) (multiply_xor_right (multiply a b))
    (fun x y => by rw [multiply_xor_right, multiply_xor_right]) (fun power member => ?_) c
  -- A power of two is doubled from the one before it.
  induction size : power.toNat using Nat.strong_induction_on generalizing power with
  | _ n ih =>
    rcases powers_double power member with rfl | ⟨power', member', rfl, less⟩
    · rw [multiply_one, multiply_one]
    · have before := ih power'.toNat (size ▸ less) power' member' rfl
      rw [multiply_double, before, multiply_double, multiply_double]

theorem multiply_zero (a : Byte) : multiply a 0#8 = 0#8 := by
  have twice := multiply_xor_right a 0#8 0#8
  rwa [BitVec.xor_self, BitVec.xor_self] at twice

/-- The power that is an inverse in a field of 256 elements. -/
def power254 (a : Byte) : Byte :=
  let a2 := multiply a a
  let a4 := multiply a2 a2
  let a8 := multiply a4 a4
  let a16 := multiply a8 a8
  let a32 := multiply a16 a16
  let a64 := multiply a32 a32
  let a128 := multiply a64 a64
  multiply a2 (multiply a4 (multiply a8 (multiply a16 (multiply a32 (multiply a64 a128)))))

theorem square_xor (a b : Byte) : square (a ^^^ b) = square a ^^^ square b := by
  unfold square
  rw [multiply_xor_left, multiply_xor_right, multiply_xor_right, multiply_comm b a, BitVec.xor_assoc,
    ← BitVec.xor_assoc (multiply a b), BitVec.xor_self, BitVec.zero_xor]

/-- The eighth square of an octet is the octet. -/
theorem square_eight (a : Byte) : square (square (square (square (square (square (square (square a))))))) = a :=
  linear_ext (f := fun a => square (square (square (square (square (square (square (square a))))))))
    (g := id) (fun a b => by simp only [square_xor]) (fun _ _ => rfl)
    (fun power member => (on_powers power member).2.2.2) a

theorem square_multiply (a b : Byte) : multiply a (multiply a b) = multiply (square a) b := (multiply_assoc a a b).symm

/-- All powers of an octet up to the 255th, and the octet once more. -/
theorem multiply_norm (a : Byte) : multiply a (multiply a (power254 a)) = a := by
  have absorb := square_multiply
  rw [absorb]
  exact (absorb (square a) _).trans <| (absorb (square (square a)) _).trans <| (absorb _ _).trans <|
    (absorb _ _).trans <| (absorb _ _).trans <| (absorb _ _).trans <| square_eight a

theorem multiply_power254 : ∀ a : Byte, a ≠ 0#8 → multiply a (power254 a) = 1#8 := by
  intro a some'
  have norm := multiply_norm a
  have same : square (multiply a (power254 a)) = multiply a (power254 a) := by
    rw [square, multiply_assoc, multiply_comm (power254 a), ← multiply_assoc, norm]
  rcases idempotent _ same with zero | one
  · rw [zero, multiply_zero] at norm
    exact absurd norm.symm some'
  · exact one

theorem multiply_inverse {a : Byte} (some' : a ≠ 0#8) : multiply a (inverse a) = 1#8 := by
  unfold inverse
  cases found : ((List.range 256).reverse.map (BitVec.ofNat 8)).find? fun b => decide (multiply a b = 1#8) with
  | none =>
    have nobody := List.find?_eq_none.mp found (power254 a) (List.mem_map.mpr ⟨(power254 a).toNat, ?_, ?_⟩)
    · exact absurd (decide_eq_true (multiply_power254 a some')) nobody
    · exact List.mem_reverse.mpr (List.mem_range.mpr (power254 a).isLt)
    · rw [BitVec.ofNat_toNat, BitVec.setWidth_eq]
  | some b =>
    have product := List.find?_some (p := fun b => decide (multiply a b = 1#8)) found
    exact of_decide_eq_true product

theorem inverse_zero : inverse 0#8 = 0#8 := by
  unfold inverse
  rw [List.find?_eq_none.mpr]
  · rfl
  · intro b _
    rw [multiply_comm, multiply_zero]
    decide

/-! ### The field -/

/-- An octet as an element of the field. -/
def Gf256 := Byte
deriving DecidableEq

namespace Gf256

instance : Add Gf256 := ⟨fun a b => (BitVec.xor a b : Byte)⟩
instance : Mul Gf256 := ⟨multiply⟩
instance : Zero Gf256 := ⟨(0#8 : Byte)⟩
instance : One Gf256 := ⟨(1#8 : Byte)⟩
instance : Neg Gf256 := ⟨fun a => a⟩
instance : Inv Gf256 := ⟨inverse⟩

instance : CommRing Gf256 where
  add_assoc a b c := BitVec.xor_assoc a b c
  zero_add a := BitVec.zero_xor (x := (a : Byte))
  add_zero a := BitVec.xor_zero (x := (a : Byte))
  add_comm a b := BitVec.xor_comm a b
  neg_add_cancel a := BitVec.xor_self (x := (a : Byte))
  left_distrib a b c := multiply_xor_right a b c
  right_distrib a b c := multiply_xor_left a b c
  zero_mul a := (multiply_comm 0#8 a).trans (multiply_zero a)
  mul_zero a := multiply_zero a
  mul_assoc a b c := multiply_assoc a b c
  one_mul a := one_multiply a
  mul_one a := multiply_one a
  mul_comm a b := multiply_comm a b
  nsmul := nsmulRec
  zsmul := zsmulRec

instance : Field Gf256 where
  exists_pair_ne := ⟨(0#8 : Byte), (1#8 : Byte), fun same => absurd (show (0#8 : Byte) = 1#8 from same) (by decide)⟩
  mul_inv_cancel a some' := multiply_inverse some'
  inv_zero := inverse_zero
  nnqsmul := _
  qsmul := _

/-- An octet, read as an element. -/
def ofByte (a : Byte) : Gf256 := a

theorem ofByte_xor (a b : Byte) : ofByte (a ^^^ b) = ofByte a + ofByte b := rfl

theorem ofByte_multiply (a b : Byte) : ofByte (multiply a b) = ofByte a * ofByte b := rfl

theorem ofByte_inverse (a : Byte) : ofByte (inverse a) = (ofByte a)⁻¹ := rfl

theorem ofByte_eq_zero {a : Byte} : ofByte a = 0 ↔ a = 0#8 := Iff.rfl

theorem add_self (a : Gf256) : a + a = 0 := BitVec.xor_self (x := (a : Byte))

end Gf256

end MiniRtc.Fec
