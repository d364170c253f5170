import Mathlib

/-! Samples without bias. A word below the largest multiple of a bound leaves a residue of it, and
every residue as often as any other; a partial shuffle takes one element after the other out of a
list, each at the residue of its step, and puts the first of the others in its place. -/
namespace Sampling

/-! ### Rejection -/

/-- The words of a range that are below the largest multiple of the bound and leave this residue. -/
def accepted (range bound residue : Nat) : Finset Nat :=
  (Finset.range range).filter fun word => word < range - range % bound ∧ word % bound = residue

variable {α : Type*}

/-- The places that a run of so many steps may ask for. -/
def places (bound : Nat) : Nat → Finset (List Nat)
  | 0 => {[]}
  | left + 1 =>
    (Finset.range bound ×ˢ places (bound - 1) left).map
      ⟨fun step => step.1 :: step.2, fun _ _ same => Prod.ext (List.cons.inj same).1 (List.cons.inj same).2⟩

theorem cons_mem_places {bound left place : Nat} {others : List Nat} :
    place :: others ∈ places bound (left + 1) ↔ place < bound ∧ others ∈ places (bound - 1) left := by
  rw [places, Finset.mem_map]
  constructor
  · rintro ⟨step, member, same⟩
    obtain ⟨rfl, rfl⟩ := List.cons.inj same
    rw [Finset.mem_product, Finset.mem_range] at member
    exact member
  · rintro ⟨below, member⟩
    exact ⟨(place, others), Finset.mem_product.mpr ⟨Finset.mem_range.mpr below, member⟩, rfl⟩

/-- So many places, each below the number of elements that are left at its step. -/
theorem mem_places {bound left : Nat} {asked : List Nat} :
    asked ∈ places bound left ↔
      asked.length = left ∧ ∀ step (inside : step < asked.length), asked[step] < bound - step := by
  induction left generalizing bound asked with
  | zero =>
    rw [places, Finset.mem_singleton, List.length_eq_zero_iff]
    refine ⟨fun none => ⟨none, ?_⟩, fun none => none.1⟩
    subst none
    intro step inside
    cases inside
  | succ left ih =>
    cases asked with
    | nil => simp [places]
    | cons place others =>
      rw [cons_mem_places, ih]
      constructor
      · rintro ⟨below, length, each⟩
        refine ⟨congrArg Nat.succ length, fun step inside => ?_⟩
        cases step with
        | zero => exact below
        | succ step =>
          have bound := each step (Nat.lt_of_succ_lt_succ inside)
          rw [List.getElem_cons_succ]
          omega
      · rintro ⟨length, each⟩
        refine ⟨each 0 (Nat.succ_pos _), Nat.succ.inj length, fun step inside => ?_⟩
        have bound := each (step + 1) (Nat.succ_lt_succ inside)
        rw [List.getElem_cons_succ] at bound
        omega

end Sampling
