import Mathlib

/-! The longest run of elements with a property, found in one pass over a list that counts the run it
is in and keeps the greatest count. -/
namespace MiniRtc.Lib

variable {α : Type}

/-- The count of the run at the end, and the greatest count. -/
def scanRuns (p : α → Bool) (l : List α) : Nat × Nat :=
  l.foldl (fun s x => if p x then (s.1 + 1, max s.2 (s.1 + 1)) else (0, s.2)) (0, 0)

/-- The lengths of the runs. -/
def runLengths (p : α → Bool) (l : List α) : Set Nat :=
  {n | ∃ run, run <:+: l ∧ (∀ x ∈ run, p x = true) ∧ run.length = n}

/-- The lengths of the runs at the end. -/
def lastRunLengths (p : α → Bool) (l : List α) : Set Nat :=
  {n | ∃ run, run <:+ l ∧ (∀ x ∈ run, p x = true) ∧ run.length = n}

theorem scanRuns_concat (p : α → Bool) (l : List α) (x : α) :
    scanRuns p (l ++ [x]) =
      if p x then ((scanRuns p l).1 + 1, max (scanRuns p l).2 ((scanRuns p l).1 + 1)) else (0, (scanRuns p l).2) := by
  rw [scanRuns, List.foldl_append]
  rfl

theorem scanRuns_map {β : Type} (p : α → Bool) (f : β → α) (l : List β) :
    scanRuns p (l.map f) = scanRuns (fun x => p (f x)) l := by
  rw [scanRuns, List.foldl_map]
  rfl

theorem scanRuns_last (p : α → Bool) (l : List α) : IsGreatest (lastRunLengths p l) (scanRuns p l).1 := by
  induction l using List.reverseRecOn with
  | nil =>
    refine ⟨⟨[], List.suffix_refl _, fun _ member => absurd member List.not_mem_nil, rfl⟩, ?_⟩
    rintro n ⟨run, suffix, -, rfl⟩
    exact suffix.length_le
  | append_singleton l x ih =>
    obtain ⟨⟨longest, suffix, all, length⟩, most⟩ := ih
    rw [scanRuns_concat]
    split
    · rename_i here
      refine ⟨⟨longest ++ [x], ?_, ?_, ?_⟩, ?_⟩
      · obtain ⟨rest, whole⟩ := suffix
        exact ⟨rest, by rw [← List.append_assoc, whole]⟩
      · intro y member
        rcases List.mem_append.mp member with old | new
        · exact all y old
        · rw [List.mem_singleton.mp new]
          exact here
      · rw [List.length_append, length]
        rfl
      · rintro n ⟨run, suffix', all', rfl⟩
        rcases List.eq_nil_or_concat run with rfl | ⟨init, last, rfl⟩
        · exact Nat.zero_le _
        · rw [List.concat_eq_append] at suffix' all' ⊢
          obtain ⟨rest, whole⟩ := suffix'
          rw [← List.append_assoc] at whole
          have inits := (List.append_inj' whole rfl).1
          rw [List.length_append]
          exact Nat.succ_le_succ (most ⟨init, ⟨rest, inits⟩, fun y member => all' y (List.mem_append_left _ member), rfl⟩)
    · rename_i here
      refine ⟨⟨[], List.nil_suffix, fun _ member => absurd member List.not_mem_nil, rfl⟩, ?_⟩
      rintro n ⟨run, suffix', all', rfl⟩
      rcases List.eq_nil_or_concat run with rfl | ⟨init, last, rfl⟩
      · exact Nat.le_refl 0
      · rw [List.concat_eq_append] at suffix' all'
        obtain ⟨rest, whole⟩ := suffix'
        rw [← List.append_assoc] at whole
        have lasts := List.singleton_inj.mp (List.append_inj' whole rfl).2
        exact absurd (lasts ▸ all' last (List.mem_append_right _ List.mem_cons_self)) here

theorem scanRuns_greatest (p : α → Bool) (l : List α) : IsGreatest (runLengths p l) (scanRuns p l).2 := by
  induction l using List.reverseRecOn with
  | nil =>
    refine ⟨⟨[], List.infix_refl _, fun _ member => absurd member List.not_mem_nil, rfl⟩, ?_⟩
    rintro n ⟨run, infix', -, rfl⟩
    exact infix'.length_le
  | append_singleton l x ih =>
    obtain ⟨⟨longest, infix', all, length⟩, most⟩ := ih
    -- A run is one of those before, or it is at the end.
    have cases' : ∀ n ∈ runLengths p (l ++ [x]), n ≤ (scanRuns p l).2 ∨ n ≤ (scanRuns p (l ++ [x])).1 := by
      rintro n ⟨run, infix'', all', rfl⟩
      rcases List.infix_concat_iff.mp infix'' with suffix | before
      · exact Or.inr ((scanRuns_last p (l ++ [x])).2 ⟨run, suffix, all', rfl⟩)
      · exact Or.inl (most ⟨run, before, all', rfl⟩)
    have kept : (scanRuns p l).2 ∈ runLengths p (l ++ [x]) :=
      ⟨longest, infix'.trans (List.infix_append' [] l [x]), all, length⟩
    have last : (scanRuns p (l ++ [x])).1 ∈ runLengths p (l ++ [x]) := by
      obtain ⟨run, suffix, all', length'⟩ := (scanRuns_last p (l ++ [x])).1
      exact ⟨run, suffix.isInfix, all', length'⟩
    rw [scanRuns_concat] at cases' last ⊢
    split
    · rename_i here
      rw [if_pos here] at cases' last
      refine ⟨?_, fun n member => le_max_iff.mpr (cases' n member)⟩
      rcases max_choice (scanRuns p l).2 ((scanRuns p l).1 + 1) with same | same
      · simp only [same]
        exact kept
      · simp only [same]
        exact last
    · rename_i here
      rw [if_neg here] at cases'
      refine ⟨kept, fun n member => ?_⟩
      rcases cases' n member with before | nothing
      · exact before
      · exact nothing.trans (Nat.zero_le _)

end MiniRtc.Lib
