import Mathlib

/-! Runs of a transition system.
A system is given by its initial states and its steps. What holds at the start and is
kept by every step holds in every state that a run reaches. -/
namespace Runs

variable {σ ε : Type*}

inductive Reachable (start : σ → Prop) (step : σ → σ → Prop) : σ → Prop where
  | start {s : σ} : start s → Reachable start step s
  | next {s t : σ} : Reachable start step s → step s t → Reachable start step t

theorem Reachable.invariant {start : σ → Prop} {step : σ → σ → Prop} {holds : σ → Prop}
    (initial : ∀ s, start s → holds s) (kept : ∀ s t, holds s → step s t → holds t) {s : σ}
    (reachable : Reachable start step s) : holds s := by
  induction reachable with
  | start first => exact initial _ first
  | next _ moved ih => exact kept _ _ ih moved

/-- The steps of a labelled system that meet a condition on the state before and the label. -/
def Guarded (guard : σ → ε → Prop) (step : σ → ε → σ → Prop) (s t : σ) : Prop :=
  ∃ e, guard s e ∧ step s e t

/-- All steps of a labelled system. -/
def Steps (step : σ → ε → σ → Prop) : σ → σ → Prop := Guarded (fun _ _ => True) step

theorem Reachable.then {start : σ → Prop} {step : σ → ε → σ → Prop} {s t : σ} (e : ε)
    (reachable : Reachable start (Steps step) s) (moved : step s e t) :
    Reachable start (Steps step) t :=
  reachable.next ⟨e, trivial, moved⟩

theorem Reachable.guarded {start : σ → Prop} {guard : σ → ε → Prop} {step : σ → ε → σ → Prop}
    {s t : σ} (e : ε) (reachable : Reachable start (Guarded guard step) s) (met : guard s e)
    (moved : step s e t) : Reachable start (Guarded guard step) t :=
  reachable.next ⟨e, met, moved⟩

/-- A system in which every label can be taken in every state goes through any labels. -/
theorem Reachable.foldl {start : σ → Prop} {apply : σ → ε → σ} {s : σ} (labels : List ε)
    (reachable : Reachable start (Steps fun s e t => apply s e = t) s) :
    Reachable start (Steps fun s e t => apply s e = t) (labels.foldl apply s) := by
  induction labels generalizing s with
  | nil => exact reachable
  | cons e rest ih => exact ih (reachable.then e rfl)

section Along

variable (guard : σ → ε → Prop) (apply : σ → ε → σ)

/-- The condition is met at each of the given labels, one after the other. -/
def Along (s : σ) : List ε → Prop
  | [] => True
  | e :: rest => guard s e ∧ Along (apply s e) rest

instance Along.decidable [∀ s e, Decidable (guard s e)] (s : σ) :
    (labels : List ε) → Decidable (Along guard apply s labels)
  | [] => inferInstanceAs (Decidable True)
  | e :: rest =>
    have : Decidable (Along guard apply (apply s e) rest) := Along.decidable (apply s e) rest
    inferInstanceAs (Decidable (guard s e ∧ Along guard apply (apply s e) rest))

variable {guard apply}

theorem Reachable.along {start : σ → Prop} {s : σ} (labels : List ε)
    (reachable : Reachable start (Guarded guard fun s e t => apply s e = t) s)
    (met : Along guard apply s labels) :
    Reachable start (Guarded guard fun s e t => apply s e = t) (labels.foldl apply s) := by
  induction labels generalizing s with
  | nil => exact reachable
  | cons e rest ih => exact ih (reachable.guarded e met.1 rfl) met.2

end Along

section Run

variable (guard : σ → ε → Prop) [∀ s e, Decidable (guard s e)] (step : σ → ε → Option σ)

/-- A run of given labels, as long as the condition is met and every step is possible. -/
def run (s : σ) : List ε → Option σ
  | [] => some s
  | e :: rest => if guard s e then (step s e).bind fun t => run t rest else none

theorem Reachable.run {start : σ → Prop} {s t : σ} (labels : List ε)
    (reachable : Reachable start (Guarded guard fun s e t => step s e = some t) s)
    (ran : Runs.run guard step s labels = some t) :
    Reachable start (Guarded guard fun s e t => step s e = some t) t := by
  induction labels generalizing s with
  | nil =>
    cases ran
    exact reachable
  | cons e rest ih =>
    simp only [Runs.run] at ran
    split at ran
    · rename_i met
      obtain ⟨u, moved, ran⟩ := Option.bind_eq_some_iff.mp ran
      exact ih (reachable.next ⟨e, met, moved⟩) ran
    · cases ran

end Run

end Runs
