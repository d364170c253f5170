import Mathlib

/-! Readers in a state monad with errors, and the words they read.
A reader reads a word as a value when it gives that value and steps over the word, whatever follows it. A reader is
safe when some errors never occur; for the loops it is said how much every turn consumes. -/
namespace Reading

/-- States from which symbols are read one after the other. -/
class Tape (σ : Type) (β : outParam Type) where
  rest : σ → List β
  skip : σ → Nat → σ
  rest_skip : ∀ s n, rest (skip s n) = (rest s).drop n
  skip_zero : ∀ s, skip s 0 = s
  skip_skip : ∀ s m n, skip (skip s m) n = skip s (m + n)

variable {σ β ε α γ : Type} [Tape σ β]

open Tape

def Reads (p : StateT σ (Except ε) α) (w : List β) (a : α) : Prop :=
  ∀ s tail, rest s = w ++ tail → p.run s = .ok (a, skip s w.length)

theorem Reads.pure (a : α) : Reads (Pure.pure a : StateT σ (Except ε) α) [] a := by
  intro s tail _
  rw [List.length_nil, skip_zero]
  rfl

theorem Reads.bind {p : StateT σ (Except ε) α} {f : α → StateT σ (Except ε) γ} {w w' : List β} {a : α} {b : γ}
    (first : Reads p w a) (second : Reads (f a) w' b) : Reads (p >>= f) (w ++ w') b := by
  intro s tail place
  rw [List.append_assoc] at place
  have next : rest (skip s w.length) = w' ++ tail := by
    rw [rest_skip, place, List.drop_left]
  have here := first s (w' ++ tail) place
  have there := second (skip s w.length) tail next
  rw [StateT.run_bind, here, List.length_append, ← skip_skip]
  exact there

/-- A part that reads nothing. -/
theorem Reads.after {p : StateT σ (Except ε) α} {f : α → StateT σ (Except ε) γ} {w : List β} {a : α} {b : γ}
    (first : Reads p [] a) (second : Reads (f a) w b) : Reads (p >>= f) w b :=
  first.bind second

/-- A condition that stops the reader. -/
def require (e : ε) (c : Prop) [Decidable c] : StateT σ (Except ε) Unit := if c then Pure.pure () else throw e

/-- A part that is there in one case only. -/
def whenever (c : Prop) [Decidable c] (p : StateT σ (Except ε) Unit) : StateT σ (Except ε) Unit :=
  if c then p else Pure.pure ()

/-- For a given number of times. -/
def times : Nat → StateT σ (Except ε) Unit → StateT σ (Except ε) Unit
  | 0, _ => Pure.pure ()
  | n + 1, p => do
    p
    times n p

/-- As long as the body says so, with a bound on the turns. -/
def turns (stuck : ε) : Nat → StateT σ (Except ε) Bool → StateT σ (Except ε) Unit
  | 0, _ => throw stuck
  | n + 1, body => do
    let more ← body
    if more then turns stuck n body else Pure.pure ()

/-- A loop can take no more turns than there are symbols if each of them reads one. -/
def doWhile (stuck : ε) (body : StateT σ (Except ε) Bool) : StateT σ (Except ε) Unit :=
  fun s => turns stuck ((rest s).length + 1) body s

theorem Reads.require {e : ε} {c : Prop} [Decidable c] (holds : c) :
    Reads (Reading.require e c : StateT σ (Except ε) Unit) ([] : List β) () := by
  rw [Reading.require, if_pos holds]
  exact .pure ()

theorem Reads.whenever {c : Prop} [Decidable c] {p : StateT σ (Except ε) Unit} {w : List β}
    (reads : c → Reads p w ()) : Reads (Reading.whenever c p) (if c then w else []) () := by
  rw [Reading.whenever]
  split
  · rename_i holds
    exact reads holds
  · exact .pure ()

theorem Reads.times {p : StateT σ (Except ε) Unit} {ι : Type} {words : ι → List β} (items : List ι)
    (reads : ∀ i ∈ items, Reads p (words i) ()) : Reads (Reading.times items.length p) (items.flatMap words) () := by
  induction items with
  | nil => exact .pure ()
  | cons i items ih =>
    refine Reads.bind (reads i List.mem_cons_self) (ih fun j member => ?_)
    exact reads j (List.mem_cons_of_mem _ member)

/-- A loop over items and the word that ends it. -/
theorem Reads.turns {stuck : ε} {body : StateT σ (Except ε) Bool} {ι : Type} {words : ι → List β} {final : List β}
    (items : List ι) (goesOn : ∀ i ∈ items, Reads body (words i) true) (ends : Reads body final false) {n : Nat}
    (enough : items.length < n) : Reads (Reading.turns stuck n body) (items.flatMap words ++ final) () := by
  induction items generalizing n with
  | nil =>
    cases n with
    | zero => cases enough
    | succ n =>
      have done := ends.bind (f := fun more => if more then Reading.turns stuck n body else Pure.pure ()) (.pure ())
      rwa [List.append_nil] at done
  | cons i items ih =>
    cases n with
    | zero => cases enough
    | succ n =>
      rw [List.flatMap_cons, List.append_assoc]
      refine (goesOn i List.mem_cons_self).bind (ih (fun j member => ?_) (Nat.lt_of_succ_lt_succ enough))
      exact goesOn j (List.mem_cons_of_mem _ member)

theorem Reads.doWhile {stuck : ε} {body : StateT σ (Except ε) Bool} {ι : Type} {words : ι → List β} {final : List β}
    (items : List ι) (some : ∀ i ∈ items, words i ≠ []) (goesOn : ∀ i ∈ items, Reads body (words i) true)
    (ends : Reads body final false) : Reads (Reading.doWhile stuck body) (items.flatMap words ++ final) () := by
  intro s tail place
  have few : items.length ≤ (items.flatMap words).length := by
    clear goesOn place
    induction items with
    | nil => simp
    | cons i items ih =>
      have first := List.length_pos_iff.mpr (some i List.mem_cons_self)
      have rest := ih fun j member => some j (List.mem_cons_of_mem _ member)
      simp only [List.length_cons, List.flatMap_cons, List.length_append]
      omega
  have enough : items.length < (rest s).length + 1 := by
    rw [place]
    simp only [List.length_append]
    omega
  exact Reads.turns items goesOn ends enough s tail place

/-! ### Errors that do not occur -/

/-- Of the errors only some occur, and at least so much is read. -/
structure Safe (bad : ε → Prop) (least : Nat) (p : StateT σ (Except ε) α) : Prop where
  reads : ∀ s a t, p.run s = .ok (a, t) → (rest t).length + least ≤ (rest s).length
  refuses : ∀ s e, p.run s = .error e → ¬bad e

variable {bad : ε → Prop} {p : StateT σ (Except ε) α} {m n : Nat}

theorem Safe.pure (a : α) : Safe bad 0 (Pure.pure a : StateT σ (Except ε) α) := by
  constructor
  · intro s b t given
    obtain ⟨-, rfl⟩ := Prod.mk.inj (Except.ok.inj given)
    exact le_rfl
  · intro s e given
    cases given

theorem Safe.throw {e : ε} (good : ¬bad e) (least : Nat) :
    Safe bad least (MonadExcept.throw e : StateT σ (Except ε) α) := by
  constructor
  · intro s b t given
    cases given
  · intro s e' given
    obtain rfl := Except.error.inj given
    exact good

theorem Safe.weaken (safe : Safe bad m p) (less : n ≤ m) : Safe bad n p := by
  constructor
  · intro s a t given
    have := safe.reads s a t given
    omega
  · exact safe.refuses

theorem Safe.bind {f : α → StateT σ (Except ε) γ} (first : Safe bad m p) (second : ∀ a, Safe bad n (f a)) :
    Safe bad (m + n) (p >>= f) := by
  constructor
  · intro s b u given
    rw [StateT.run_bind] at given
    cases here : p.run s with
    | error e =>
      rw [here] at given
      cases given
    | ok result =>
      obtain ⟨a, t⟩ := result
      rw [here] at given
      have one := first.reads s a t here
      have two := (second a).reads t b u given
      omega
  · intro s e given
    rw [StateT.run_bind] at given
    cases here : p.run s with
    | error e' =>
      rw [here] at given
      obtain rfl := Except.error.inj given
      exact first.refuses s _ here
    | ok result =>
      obtain ⟨a, t⟩ := result
      rw [here] at given
      exact (second a).refuses t e given

/-- What is read after the first part is not counted. -/
theorem Safe.first {f : α → StateT σ (Except ε) γ} (first : Safe bad m p) (second : ∀ a, Safe bad 0 (f a)) :
    Safe bad m (p >>= f) :=
  first.bind second

/-- What is read is not counted. -/
theorem Safe.step {f : α → StateT σ (Except ε) γ} (first : Safe bad m p) (second : ∀ a, Safe bad 0 (f a)) :
    Safe bad 0 (p >>= f) :=
  (first.first second).weaken (Nat.zero_le m)

/-- What is read before the last part is not counted. -/
theorem Safe.then {f : α → StateT σ (Except ε) γ} (first : Safe bad 0 p) (second : ∀ a, Safe bad n (f a)) :
    Safe bad n (p >>= f) :=
  (first.bind second).weaken (Nat.zero_add n).ge

theorem Safe.ite {c : Prop} [Decidable c] {q : StateT σ (Except ε) α} (yes : Safe bad n p) (no : Safe bad n q) :
    Safe bad n (if c then p else q) := by
  split
  · exact yes
  · exact no

theorem Safe.require {e : ε} (good : ¬bad e) (c : Prop) [Decidable c] :
    Safe bad 0 (Reading.require e c : StateT σ (Except ε) Unit) :=
  .ite (.pure ()) (.throw good 0)

theorem Safe.whenever {p : StateT σ (Except ε) Unit} (safe : Safe bad 0 p) (c : Prop) [Decidable c] :
    Safe bad 0 (Reading.whenever c p) :=
  .ite safe (.pure ())

theorem Safe.times {p : StateT σ (Except ε) Unit} (safe : Safe bad 0 p) (n : Nat) :
    Safe bad 0 (Reading.times n p) := by
  induction n with
  | zero => exact .pure ()
  | succ n ih => exact safe.then fun _ => ih

/-- A loop whose turns all read something does not get stuck. -/
theorem Safe.doWhile {stuck : ε} {body : StateT σ (Except ε) Bool} (safe : Safe bad 1 body) :
    Safe bad 0 (Reading.doWhile stuck body) := by
  have bounded : ∀ n s, (rest s).length < n →
      (∀ a t, (Reading.turns stuck n body).run s = .ok (a, t) → (rest t).length ≤ (rest s).length) ∧
        ∀ e, (Reading.turns stuck n body).run s = .error e → ¬bad e := by
    intro n
    induction n with
    | zero => exact fun s enough => absurd enough (Nat.not_lt_zero _)
    | succ n ih =>
      intro s enough
      rw [Reading.turns, StateT.run_bind]
      cases here : body.run s with
      | error e' =>
        constructor
        · intro a t given
          cases given
        · intro e given
          obtain rfl := Except.error.inj given
          exact safe.refuses s _ here
      | ok result =>
        obtain ⟨more, u⟩ := result
        have progress := safe.reads s more u here
        cases more with
        | false =>
          constructor
          · intro a t given
            have here : u = t := (Prod.mk.inj (Except.ok.inj given)).2
            rw [← here]
            omega
          · intro e given
            cases given
        | true =>
          obtain ⟨reads, refuses⟩ := ih u (by omega)
          constructor
          · intro a t given
            have := reads a t given
            omega
          · exact refuses
  constructor
  · intro s a t given
    exact (bounded _ s (Nat.lt_succ_self _)).1 a t given
  · intro s e given
    exact (bounded _ s (Nat.lt_succ_self _)).2 e given

end Reading
