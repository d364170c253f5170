import Mathlib

/-! Numbers that wrap around (mod_ops.h and sequence_number_util.h).
A counter of `w` bits is the residue of an unbounded number. Two residues are compared
by the shorter way from one to the other, so the comparison is the order of the unbounded
numbers as long as these are less than half the range apart. -/
namespace Wrapping

/-- Named here once, for the membership tests on sequence numbers. -/
instance lawfulBEqSequenceNumber : LawfulBEq (BitVec 16) := inferInstance

variable {w : Nat}

def forwardDiff (a b : BitVec w) : BitVec w := b - a

/-- At maximal distance the greater value is ahead. -/
def aheadOrAt (a b : BitVec w) : Bool :=
  if (a - b).toNat = 2 ^ (w - 1) then decide (b.toNat < a.toNat)
  else decide ((forwardDiff b a).toNat < 2 ^ (w - 1))

def aheadOf (a b : BitVec w) : Bool := decide (a ≠ b) && aheadOrAt a b

/-- `Delta` of the unwrapper: the way from one residue to another, forward or back. -/
def delta (last new : BitVec w) : Int :=
  (forwardDiff last new).toNat - if aheadOrAt new last then 0 else 2 ^ w

/-- The unbounded numbers behind two residues are less than half the range apart. -/
def Near (w : Nat) (x y : Int) : Prop := x - y < 2 ^ (w - 1) ∧ y - x < 2 ^ (w - 1)

instance (x y : Int) : Decidable (Near w x y) := inferInstanceAs (Decidable (_ ∧ _))

theorem Near.symm {x y : Int} (near : Near w x y) : Near w y x := ⟨near.2, near.1⟩

theorem Near.refl (w : Nat) (x : Int) : Near w x x := by
  have positive : (0 : Int) < 2 ^ (w - 1) := by positivity
  exact ⟨by omega, by omega⟩

theorem Near.between {a b m y : Int} (low : Near w a y) (high : Near w b y) (after : a ≤ m)
    (before : m ≤ b) : Near w m y := by
  obtain ⟨_, lower⟩ := low
  obtain ⟨upper, _⟩ := high
  exact ⟨by omega, by omega⟩

theorem toNat_ofInt_sub (x y : Int) :
    (((BitVec.ofInt w x - BitVec.ofInt w y).toNat : Nat) : Int) = (x - y) % 2 ^ w := by
  have difference : BitVec.ofInt w x - BitVec.ofInt w y = BitVec.ofInt w (x - y) := by
    rw [sub_eq_add_neg x, BitVec.ofInt_add, BitVec.ofInt_neg, BitVec.sub_eq_add_neg]
  have positive : (0 : Int) < 2 ^ w := by positivity
  rw [difference, BitVec.toNat_ofInt]
  have range := Int.emod_nonneg (x - y) (Int.ne_of_gt positive)
  push_cast
  omega

/-- The number with a residue, the nearest one to a given number. -/
def extend (near : Int) (v : BitVec w) : Int := near + (v - BitVec.ofInt w near).toInt

@[simp] theorem ofInt_extend (near : Int) (v : BitVec w) : BitVec.ofInt w (extend near v) = v := by
  rw [extend, BitVec.ofInt_add, BitVec.ofInt_toInt, BitVec.add_comm, BitVec.sub_add_cancel]

section Order

variable {x y : Int} (wide : 0 < w)
include wide

theorem two_pow_half : (2 : Int) ^ w = 2 ^ (w - 1) + 2 ^ (w - 1) := by
  obtain ⟨v, rfl⟩ : ∃ v, w = v + 1 := ⟨w - 1, by omega⟩
  rw [Nat.add_sub_cancel, pow_succ]
  omega

/-- Near numbers with one residue are equal. -/
theorem ofInt_inj_of_near (near : Near w x y) : BitVec.ofInt w x = BitVec.ofInt w y ↔ x = y := by
  constructor
  · intro same
    have zero : _ = (x - y) % 2 ^ w := toNat_ofInt_sub x y
    rw [same, BitVec.sub_self, BitVec.toNat_zero] at zero
    have half := two_pow_half wide
    obtain ⟨k, hk⟩ := Int.dvd_of_emod_eq_zero zero.symm
    have positive : (0 : Int) < 2 ^ (w - 1) := by positivity
    obtain ⟨upper, lower⟩ := near
    have none : k = 0 := by
      by_contra some
      rcases lt_or_gt_of_ne some with negative | more
      · have : (2 : Int) ^ w * k ≤ 2 ^ w * (-1) := by
          apply mul_le_mul_of_nonneg_left <;> omega
        omega
      · have : (2 : Int) ^ w * 1 ≤ 2 ^ w * k := by
          apply mul_le_mul_of_nonneg_left <;> omega
        omega
    rw [none, mul_zero] at hk
    omega
  · intro same
    rw [same]

/-- For near numbers the comparison of the residues is the order of the numbers. -/
theorem aheadOf_ofInt (near : Near w x y) :
    aheadOf (BitVec.ofInt w x) (BitVec.ofInt w y) = true ↔ y < x := by
  have half := two_pow_half wide
  have positive : (0 : Int) < 2 ^ (w - 1) := by positivity
  have castHalf : ((2 ^ (w - 1) : Nat) : Int) = 2 ^ (w - 1) := by push_cast; rfl
  have difference : _ = (x - y) % 2 ^ w := toNat_ofInt_sub x y
  obtain ⟨upper, lower⟩ := near
  simp only [aheadOf, ne_eq, Bool.and_eq_true, decide_eq_true_eq, ofInt_inj_of_near wide ⟨upper, lower⟩]
  rcases Int.lt_trichotomy x y with less | same | greater
  · have wrapped : (x - y) % 2 ^ w = x - y + 2 ^ w := by
      rw [← Int.add_emod_right, Int.emod_eq_of_lt (by omega) (by omega)]
    rw [wrapped] at difference
    have far : ¬ aheadOrAt (BitVec.ofInt w x) (BitVec.ofInt w y) = true := by
      unfold aheadOrAt forwardDiff
      rw [if_neg (by omega), decide_eq_true_eq]
      omega
    exact ⟨fun h => absurd h.2 far, fun h => by omega⟩
  · exact ⟨fun h => absurd same h.1, fun h => by omega⟩
  · rw [Int.emod_eq_of_lt (by omega) (by omega)] at difference
    have close : aheadOrAt (BitVec.ofInt w x) (BitVec.ofInt w y) = true := by
      unfold aheadOrAt forwardDiff
      rw [if_neg (by omega), decide_eq_true_eq]
      omega
    exact ⟨fun _ => greater, fun _ => ⟨by omega, close⟩⟩

theorem aheadOf_ofInt_eq_false (near : Near w x y) :
    aheadOf (BitVec.ofInt w x) (BitVec.ofInt w y) = false ↔ x ≤ y := by
  have order := aheadOf_ofInt wide near
  rw [← Bool.not_eq_true, order]
  omega

theorem extend_eq (near : Near w x y) : extend x (BitVec.ofInt w y) = y := by
  have half := two_pow_half wide
  obtain ⟨upper, lower⟩ := near
  have difference : BitVec.ofInt w y - BitVec.ofInt w x = BitVec.ofInt w (y - x) := by
    rw [sub_eq_add_neg y, BitVec.ofInt_add, BitVec.ofInt_neg, BitVec.sub_eq_add_neg]
  rw [extend, difference, BitVec.toInt_ofInt, Int.bmod_eq_of_le_mul_two]
  · omega
  · push_cast
    omega
  · push_cast
    omega

/-- `Delta` of the unwrapper is the difference of near numbers. -/
theorem delta_ofInt (near : Near w x y) : delta (BitVec.ofInt w x) (BitVec.ofInt w y) = y - x := by
  have half := two_pow_half wide
  have positive : (0 : Int) < 2 ^ (w - 1) := by positivity
  have castHalf : ((2 ^ (w - 1) : Nat) : Int) = 2 ^ (w - 1) := by push_cast; rfl
  have difference : _ = (y - x) % 2 ^ w := toNat_ofInt_sub y x
  obtain ⟨lower, upper⟩ := near
  by_cases backward : y < x
  · have wrapped : (y - x) % 2 ^ w = y - x + 2 ^ w := by
      rw [← Int.add_emod_right, Int.emod_eq_of_lt (by omega) (by omega)]
    rw [wrapped] at difference
    have behind : ¬ aheadOrAt (BitVec.ofInt w y) (BitVec.ofInt w x) = true := by
      unfold aheadOrAt forwardDiff
      rw [if_neg (by omega), decide_eq_true_eq]
      omega
    rw [delta, if_neg behind, forwardDiff]
    omega
  · rw [Int.emod_eq_of_lt (by omega) (by omega)] at difference
    have ahead : aheadOrAt (BitVec.ofInt w y) (BitVec.ofInt w x) = true := by
      unfold aheadOrAt forwardDiff
      rw [if_neg (by omega), decide_eq_true_eq]
      omega
    rw [delta, if_pos ahead, forwardDiff]
    omega

end Order

/-- `SeqNumUnwrapper`: the first value stands for itself, and every later one is taken to be
the nearest to the one before it. -/
structure SeqNumUnwrapper (w : Nat) where
  lastUnwrapped : Int := 0
  lastValue : Option (BitVec w) := none

namespace SeqNumUnwrapper

def unwrap (u : SeqNumUnwrapper w) (value : BitVec w) : Int × SeqNumUnwrapper w :=
  let unwrapped : Int := match u.lastValue with
    | none => value.toNat
    | some last => u.lastUnwrapped + delta last value
  (unwrapped, { lastUnwrapped := unwrapped, lastValue := some value })

/-- The unwrapper has seen the residue of a number, and knows the number. -/
structure At (u : SeqNumUnwrapper w) (x : Int) : Prop where
  unwrapped : u.lastUnwrapped = x
  value : u.lastValue = some (BitVec.ofInt w x)

theorem unwrap_first {x : Int} (low : 0 ≤ x) (high : x < 2 ^ w) :
    (unwrap {} (BitVec.ofInt w x)).1 = x ∧ (unwrap {} (BitVec.ofInt w x)).2.At x := by
  have same : ((BitVec.ofInt w x).toNat : Int) = x := by
    rw [BitVec.toNat_ofInt]
    push_cast
    rw [Int.emod_eq_of_lt low high]
    omega
  exact ⟨same, same, rfl⟩

theorem At.unwrap {u : SeqNumUnwrapper w} {x y : Int} (wide : 0 < w) (known : u.At x)
    (near : Near w x y) :
    (u.unwrap (BitVec.ofInt w y)).1 = y ∧ (u.unwrap (BitVec.ofInt w y)).2.At y := by
  have next : (u.unwrap (BitVec.ofInt w y)).1 = y := by
    simp only [SeqNumUnwrapper.unwrap, known.value, known.unwrapped, delta_ofInt wide near]
    omega
  exact ⟨next, next, rfl⟩

end SeqNumUnwrapper

end Wrapping
