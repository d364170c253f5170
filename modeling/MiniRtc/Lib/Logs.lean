import Mathlib

/-! The order of the entries of a log, in which the newest entry is the first. -/
namespace Logs

variable {α : Type*}

/-- An entry `later` came after an entry `earlier`. -/
def After (log : List α) (later earlier : α) : Prop := [later, earlier].Sublist log

instance [DecidableEq α] (log : List α) (later earlier : α) :
    Decidable (After log later earlier) :=
  inferInstanceAs (Decidable (List.Sublist _ _))

theorem after_cons {log : List α} {entry later earlier : α} :
    After (entry :: log) later earlier ↔
      later = entry ∧ earlier ∈ log ∨ After log later earlier := by
  constructor
  · intro after
    cases after with
    | cons _ after => exact .inr after
    | cons_cons _ rest => exact .inl ⟨rfl, List.singleton_sublist.mp rest⟩
  · rintro (⟨rfl, mem⟩ | after)
    · exact (List.singleton_sublist.mpr mem).cons_cons _
    · exact after.cons _

theorem not_after_nil {later earlier : α} : ¬ After [] later earlier := nofun

theorem After.later_mem {log : List α} {later earlier : α} (after : After log later earlier) :
    later ∈ log := List.Sublist.subset after (by simp)

theorem After.earlier_mem {log : List α} {later earlier : α} (after : After log later earlier) :
    earlier ∈ log := List.Sublist.subset after (by simp)

theorem After.cons {log : List α} {entry later earlier : α} (after : After log later earlier) :
    After (entry :: log) later earlier := after_cons.mpr (.inr after)

/-- An entry that is none of the kind leaves the order of the kind as it is. -/
theorem After.of_cons {log : List α} {entry later earlier : α}
    (after : After (entry :: log) later earlier) (other : later ≠ entry) :
    After log later earlier := by
  obtain ⟨same, -⟩ | after := after_cons.mp after
  · exact absurd same other
  · exact after

end Logs
