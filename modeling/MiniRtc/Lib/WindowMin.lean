import Mathlib

/-! The least of the samples in a window that moves forward with time.
A deque holds the sizes that no later sample has fallen below, smallest first, each with the time
since when. A new sample takes larger sizes off the back and their time with it; old ones leave at
the front. What is left in front is the minimum of the window. -/
namespace WindowMin

structure Sample (σ τ : Type*) where
  size : σ
  since : τ
deriving DecidableEq, Repr

variable {σ τ β : Type*}

/-! ### Operations -/

section Operations

variable [LinearOrder β] [LinearOrder τ] (area : σ → β)

/-- Takes larger samples off the back; the list starts with the back. -/
def popLarger (bound : β) (since : τ) : List (Sample σ τ) → List (Sample σ τ) × τ
  | [] => ([], since)
  | back :: rest =>
    if bound < area back.size then popLarger bound back.since rest else (back :: rest, since)

/-- The sample at the back, unless its size is there already. -/
def push [DecidableEq σ] (size : σ) (now : τ) (samples : List (Sample σ τ)) : List (Sample σ τ) :=
  let (kept, since) := popLarger area (area size) now samples.reverse
  if kept.head?.any fun back => back.size = size then kept.reverse
  else kept.reverse ++ [⟨size, since⟩]

/-- Takes samples off the front as long as the one behind it is old enough. -/
def expire (bound : τ) : List (Sample σ τ) → List (Sample σ τ)
  | front :: next :: rest =>
    if next.since ≤ bound then expire bound (next :: rest) else front :: next :: rest
  | samples => samples

/-- The samples from the last one that is old enough. -/
def window (bound : τ) : List (Sample σ τ) → List (Sample σ τ)
  | first :: next :: rest =>
    if next.since ≤ bound then window bound (next :: rest) else first :: next :: rest
  | samples => samples

/-- The least size of the samples from a place on, for every place, and the first such place. -/
def stack : List (Sample σ τ) → List (Sample σ τ)
  | [] => []
  | x :: xs =>
    match stack xs with
    | [] => [x]
    | e :: es => if area x.size < area e.size then x :: e :: es else { e with since := x.since } :: es

end Operations

/-! ### The deque of a list of samples -/

section Stack

variable [LinearOrder β] (area : σ → β)

theorem stack_step (x : Sample σ τ) (xs : List (Sample σ τ)) :
    stack area (x :: xs) =
      match stack area xs with
      | [] => [x]
      | e :: es => if area x.size < area e.size then x :: e :: es else { e with since := x.since } :: es := rfl

theorem stack_cons (x : Sample σ τ) (xs : List (Sample σ τ)) :
    ∃ e es, stack area (x :: xs) = e :: es ∧ e.since = x.since := by
  rw [stack_step]
  split
  · exact ⟨x, [], rfl, rfl⟩
  · split
    · exact ⟨_, _, rfl, rfl⟩
    · exact ⟨_, _, rfl, rfl⟩

theorem stack_eq_nil {xs : List (Sample σ τ)} (empty : stack area xs = []) : xs = [] := by
  cases xs with
  | nil => rfl
  | cons x xs =>
    obtain ⟨e, es, made, _⟩ := stack_cons area x xs
    rw [made] at empty
    cases empty

/-- Every size of the deque is one of a sample, and so is every time. -/
theorem mem_stack {e : Sample σ τ} {xs : List (Sample σ τ)} (member : e ∈ stack area xs) :
    (∃ x ∈ xs, x.size = e.size) ∧ ∃ x ∈ xs, x.since = e.since := by
  induction xs generalizing e with
  | nil => cases member
  | cons x xs ih =>
    have later {f : Sample σ τ} (inside : f ∈ stack area xs) :
        (∃ y ∈ x :: xs, y.size = f.size) ∧ ∃ y ∈ x :: xs, y.since = f.since := by
      obtain ⟨⟨y, mem, size⟩, z, mem', since⟩ := ih inside
      exact ⟨⟨y, List.mem_cons_of_mem _ mem, size⟩, z, List.mem_cons_of_mem _ mem', since⟩
    rw [stack_step] at member
    split at member
    · rw [List.mem_singleton.mp member]
      exact ⟨⟨x, List.mem_cons_self, rfl⟩, x, List.mem_cons_self, rfl⟩
    · rename_i f fs tail
      rw [tail] at later
      split at member
      · rcases List.mem_cons.mp member with rfl | inside
        · exact ⟨⟨e, List.mem_cons_self, rfl⟩, e, List.mem_cons_self, rfl⟩
        · exact later inside
      · rcases List.mem_cons.mp member with rfl | inside
        · exact ⟨(later List.mem_cons_self).1, x, List.mem_cons_self, rfl⟩
        · exact later (List.mem_cons_of_mem _ inside)

theorem stack_increasing (xs : List (Sample σ τ)) :
    (stack area xs).Pairwise fun e f => area e.size < area f.size := by
  induction xs with
  | nil => exact List.Pairwise.nil
  | cons x xs ih =>
    rw [stack_step]
    split
    · exact List.pairwise_singleton _ _
    · rename_i e es tail
      rw [tail] at ih
      obtain ⟨head, rest⟩ := List.pairwise_cons.mp ih
      split
      · rename_i less
        refine List.pairwise_cons.mpr ⟨?_, ih⟩
        intro f member
        rcases List.mem_cons.mp member with rfl | inside
        · exact less
        · exact less.trans (head f inside)
      · exact List.pairwise_cons.mpr ⟨head, rest⟩

/-- The front is the least of all samples. -/
theorem stack_least {xs : List (Sample σ τ)} {e : Sample σ τ} {es : List (Sample σ τ)}
    (made : stack area xs = e :: es) : ∀ x ∈ xs, area e.size ≤ area x.size := by
  induction xs generalizing e es with
  | nil => cases made
  | cons x xs ih =>
    rw [stack_step] at made
    split at made
    · rename_i empty
      cases made
      rw [stack_eq_nil area empty]
      intro y member
      rw [List.mem_singleton.mp member]
    · rename_i f fs tail
      have least := ih tail
      split at made
      · rename_i less
        cases made
        intro y member
        rcases List.mem_cons.mp member with rfl | inside
        · exact le_rfl
        · exact less.le.trans (least y inside)
      · rename_i more
        cases made
        intro y member
        rcases List.mem_cons.mp member with rfl | inside
        · exact not_lt.mp more
        · exact least y inside

/-- Behind the last sample of the front's size is the rest of the deque. -/
theorem stack_tail {xs : List (Sample σ τ)} {e : Sample σ τ} {es : List (Sample σ τ)}
    (made : stack area xs = e :: es) :
    ∃ done y rest, xs = done ++ y :: rest ∧ area y.size = area e.size ∧ stack area rest = es := by
  induction xs generalizing e es with
  | nil => cases made
  | cons x xs ih =>
    rw [stack_step] at made
    split at made
    · rename_i empty
      cases made
      exact ⟨[], x, xs, rfl, rfl, empty⟩
    · rename_i f fs tail
      split at made
      · cases made
        exact ⟨[], x, xs, rfl, rfl, tail⟩
      · cases made
        obtain ⟨done, y, rest, split, same, later⟩ := ih tail
        exact ⟨x :: done, y, rest, by rw [split, List.cons_append], same, later⟩

/-! ### A new sample -/

theorem popLarger_cons (bound : β) (since : τ) (back : Sample σ τ) (rest : List (Sample σ τ)) :
    popLarger area bound since (back :: rest) =
      if bound < area back.size then popLarger area bound back.since rest else (back :: rest, since) := rfl

theorem popLarger_append (bound : β) (since : τ) (l m : List (Sample σ τ)) :
    popLarger area bound since (l ++ m) =
      if (popLarger area bound since l).1 = [] then
        popLarger area bound (popLarger area bound since l).2 m
      else ((popLarger area bound since l).1 ++ m, (popLarger area bound since l).2) := by
  induction l generalizing since with
  | nil => rfl
  | cons back rest ih =>
    rw [List.cons_append, popLarger_cons, popLarger_cons]
    split
    · exact ih back.since
    · rw [if_neg (List.cons_ne_nil _ _)]
      rfl

theorem popLarger_all {bound : β} {l : List (Sample σ τ)} (larger : ∀ e ∈ l, bound < area e.size)
    (since : τ) : (popLarger area bound since l).1 = [] := by
  induction l generalizing since with
  | nil => rfl
  | cons back rest ih =>
    rw [popLarger_cons, if_pos (larger back List.mem_cons_self)]
    exact ih (fun e member => larger e (List.mem_cons_of_mem _ member)) _

section Push

variable [DecidableEq σ] {size : σ}

/-- Everything is larger: the new sample is since the front. -/
theorem push_larger (now : τ) {e : Sample σ τ} {es : List (Sample σ τ)}
    (larger : ∀ f ∈ e :: es, area size < area f.size) :
    push area size now (e :: es) = [⟨size, e.since⟩] := by
  have later : ∀ f ∈ es.reverse, area size < area f.size := fun f member =>
    larger f (List.mem_cons_of_mem _ (List.mem_reverse.mp member))
  rw [push, List.reverse_cons, popLarger_append, if_pos (popLarger_all area later now), popLarger_cons,
    if_pos (larger e List.mem_cons_self)]
  rfl

/-- The front has the size of the new sample, and the rest is larger. -/
theorem push_front (now : τ) {e : Sample σ τ} {es : List (Sample σ τ)} (front : e.size = size)
    (larger : ∀ f ∈ es, area size < area f.size) : push area size now (e :: es) = [e] := by
  have later : ∀ f ∈ es.reverse, area size < area f.size := fun f member =>
    larger f (List.mem_reverse.mp member)
  rw [push, List.reverse_cons, popLarger_append, if_pos (popLarger_all area later now), popLarger_cons,
    if_neg (by rw [front]; exact lt_irrefl _)]
  simp [front]

/-- The front is smaller, and stays. -/
theorem push_smaller (now : τ) {e : Sample σ τ} (smaller : area e.size < area size)
    (es : List (Sample σ τ)) : push area size now (e :: es) = e :: push area size now es := by
  have other : ¬ e.size = size := fun same => lt_irrefl _ (same ▸ smaller)
  rw [push, push, List.reverse_cons, popLarger_append]
  generalize popLarger area (area size) now es.reverse = popped
  obtain ⟨kept, since⟩ := popped
  cases kept with
  | nil =>
    simp only [if_true]
    rw [popLarger_cons, if_neg (not_lt.mpr smaller.le)]
    simp [other]
  | cons back rest =>
    simp only [if_neg (List.cons_ne_nil back rest)]
    by_cases there : back.size = size
    · simp [there]
    · simp [there]

/-- The deque of the samples with a new one at the end. -/
theorem push_stack (now : τ) {xs : List (Sample σ τ)}
    (same : ∀ x ∈ xs, area x.size = area size → x.size = size) :
    push area size now (stack area xs) = stack area (xs ++ [⟨size, now⟩]) := by
  induction xs with
  | nil => rfl
  | cons x xs ih =>
    have ih := ih fun y member => same y (List.mem_cons_of_mem _ member)
    have first := same x List.mem_cons_self
    have increasing := stack_increasing area xs
    have sizes : ∀ e ∈ stack area xs, area e.size = area size → e.size = size := by
      intro e member equal
      obtain ⟨y, inside, named⟩ := (mem_stack area member).1
      rw [← named] at equal ⊢
      exact same y (List.mem_cons_of_mem _ inside) equal
    rw [List.cons_append, stack_step, stack_step, ← ih]
    generalize stack area xs = samples at increasing sizes
    cases samples with
    | nil =>
      have alone : push area size now ([] : List (Sample σ τ)) = [⟨size, now⟩] := rfl
      rw [alone]
      simp only
      rcases lt_trichotomy (area x.size) (area size) with less | equal | more
      · rw [if_pos less, push_smaller area now less, alone]
      · rw [if_neg equal.not_lt, push_front area now (first equal) (by simp), ← first equal]
      · rw [if_neg more.not_gt, push_larger area now (by simpa using more)]
    | cons e es =>
      obtain ⟨least, _⟩ := List.pairwise_cons.mp increasing
      rcases lt_trichotomy (area size) (area e.size) with below | level | above
      · have larger : ∀ f ∈ e :: es, area size < area f.size := by
          intro f member
          rcases List.mem_cons.mp member with rfl | inside
          · exact below
          · exact below.trans (least f inside)
        rw [push_larger area now larger]
        simp only
        rcases lt_trichotomy (area x.size) (area size) with less | equal | more
        · rw [if_pos (less.trans below), if_pos less, push_smaller area now less,
            push_larger area now larger]
        · rw [if_pos (equal ▸ below), if_neg equal.not_lt, push_front area now (first equal) larger,
            ← first equal]
        · rw [if_neg more.not_gt]
          split
          · refine push_larger area now ?_
            intro f member
            rcases List.mem_cons.mp member with rfl | inside
            · exact more
            · exact larger f inside
          · refine push_larger area now ?_
            intro f member
            rcases List.mem_cons.mp member with rfl | inside
            · exact below
            · exact larger f (List.mem_cons_of_mem _ inside)
      · have larger : ∀ f ∈ es, area size < area f.size := fun f member => level ▸ least f member
        have named := sizes e List.mem_cons_self level.symm
        rw [push_front area now named larger]
        simp only
        split
        · rename_i less
          rw [push_smaller area now (level ▸ less), push_front area now named larger]
        · exact push_front area now named larger
      · rw [push_smaller area now above]
        simp only
        split
        · rename_i less
          rw [push_smaller area now (less.trans above), push_smaller area now above]
        · exact @push_smaller _ _ _ _ area _ size now { e with since := x.since } above es

end Push

end Stack

/-! ### Time -/

section Time

variable [LinearOrder β] [LinearOrder τ] (area : σ → β)

theorem stack_since {xs : List (Sample σ τ)} (ordered : xs.Pairwise fun x y => x.since ≤ y.since) :
    (stack area xs).Pairwise fun e f => e.since ≤ f.since := by
  induction xs with
  | nil => exact List.Pairwise.nil
  | cons x xs ih =>
    obtain ⟨first, rest⟩ := List.pairwise_cons.mp ordered
    have ih := ih rest
    have bound : ∀ f ∈ stack area xs, x.since ≤ f.since := by
      intro f member
      obtain ⟨y, inside, since⟩ := (mem_stack area member).2
      rw [← since]
      exact first y inside
    rw [stack_step]
    split
    · exact List.pairwise_singleton _ _
    · rename_i e es tail
      rw [tail] at ih bound
      split
      · exact List.pairwise_cons.mpr ⟨bound, ih⟩
      · exact List.pairwise_cons.mpr
          ⟨fun f member => bound f (List.mem_cons_of_mem _ member), (List.pairwise_cons.mp ih).2⟩

/-- What is left of the deque is the deque of the samples from an old enough one on, or from the
first one, and the next in it is not old enough. -/
theorem expire_stack (bound : τ) {xs : List (Sample σ τ)} (some : xs ≠ []) :
    ∃ done rest, xs = done ++ rest ∧ rest ≠ [] ∧ expire bound (stack area xs) = stack area rest ∧
      (done = [] ∨ ∀ r ∈ rest.head?, r.since ≤ bound) ∧
      ∀ e f fs, stack area rest = e :: f :: fs → bound < f.since := by
  generalize deque : stack area xs = samples
  induction samples generalizing xs with
  | nil => exact absurd (stack_eq_nil area deque) some
  | cons e es ih =>
    cases es with
    | nil =>
      refine ⟨[], xs, rfl, some, deque.symm, Or.inl rfl, ?_⟩
      intro e' f fs two
      rw [deque] at two
      cases two
    | cons f fs =>
      rw [expire]
      split
      · rename_i old
        obtain ⟨passed, y, behind, split, _, made⟩ := stack_tail area deque
        have filled : behind ≠ [] := by
          rintro rfl
          cases made
        obtain ⟨done, rest, cut, left, kept, reached, fresh⟩ := ih filled made
        refine ⟨passed ++ y :: done, rest, by simp [split, cut], left, kept, Or.inr ?_, fresh⟩
        rcases reached with rfl | reached
        · cases behind with
          | nil => exact absurd rfl filled
          | cons r rs =>
            obtain ⟨g, gs, first, since⟩ := stack_cons area r rs
            rw [first] at made
            cases made
            rw [List.nil_append] at cut
            rw [← cut]
            intro r' head
            cases head
            rw [← since]
            exact old
        · exact reached
      · rename_i young
        refine ⟨[], xs, rfl, some, deque.symm, Or.inl rfl, ?_⟩
        intro e' f' fs' two
        rw [deque] at two
        cases two
        exact not_le.mp young

theorem window_cons (bound : τ) (first next : Sample σ τ) (rest : List (Sample σ τ)) :
    window bound (first :: next :: rest) =
      if next.since ≤ bound then window bound (next :: rest) else first :: next :: rest := rfl

/-- Samples before one that is old enough are not in the window. -/
theorem window_append {bound : τ} {done rest : List (Sample σ τ)} {r : Sample σ τ}
    (ordered : (done ++ r :: rest).Pairwise fun x y => x.since ≤ y.since) (old : r.since ≤ bound) :
    window bound (done ++ r :: rest) = window bound (r :: rest) := by
  induction done with
  | nil => rfl
  | cons d done ih =>
    rw [List.cons_append, List.pairwise_cons] at ordered
    have ih := ih ordered.2
    cases done with
    | nil =>
      show window bound (d :: r :: rest) = _
      rw [window_cons, if_pos old]
    | cons d' done =>
      have before : d'.since ≤ r.since :=
        (List.pairwise_cons.mp ordered.2).1 r (List.mem_append_right _ List.mem_cons_self)
      rw [← ih]
      show window bound (d :: d' :: (done ++ r :: rest)) = _
      rw [window_cons, if_pos (before.trans old)]
      rfl

theorem window_suffix (bound : τ) (xs : List (Sample σ τ)) : window bound xs <:+ xs := by
  induction xs with
  | nil => exact List.suffix_rfl
  | cons x xs ih =>
    cases xs with
    | nil => exact List.suffix_rfl
    | cons y ys =>
      rw [window_cons]
      split
      · exact ih.trans (List.suffix_cons x _)
      · exact List.suffix_rfl

/-- The sample before one that is not old enough is in the window. -/
theorem mem_window {bound : τ} {done rest : List (Sample σ τ)} {y : Sample σ τ}
    (young : ∀ r ∈ rest.head?, bound < r.since) : y ∈ window bound (done ++ y :: rest) := by
  induction done with
  | nil =>
    cases rest with
    | nil => exact List.mem_cons_self
    | cons r rest =>
      rw [List.nil_append, window_cons, if_neg (not_le.mpr (young r rfl))]
      exact List.mem_cons_self
  | cons d done ih =>
    cases done with
    | nil =>
      show y ∈ window bound (d :: y :: rest)
      rw [window_cons]
      split
      · exact ih
      · exact List.mem_cons_of_mem _ List.mem_cons_self
    | cons d' done =>
      show y ∈ window bound (d :: d' :: (done ++ y :: rest))
      rw [window_cons]
      split
      · exact ih
      · simp

/-- The front of such a deque is the least size of the window. -/
theorem front_least {bound : τ} {done rest : List (Sample σ τ)}
    (ordered : (done ++ rest).Pairwise fun x y => x.since ≤ y.since) (some : rest ≠ [])
    (reached : done = [] ∨ ∀ r ∈ rest.head?, r.since ≤ bound)
    (fresh : ∀ e f fs, stack area rest = e :: f :: fs → bound < f.since) :
    ∃ e es, stack area rest = e :: es ∧
      (∀ x ∈ window bound (done ++ rest), area e.size ≤ area x.size) ∧
      ∃ x ∈ window bound (done ++ rest), area x.size = area e.size := by
  have same : window bound (done ++ rest) = window bound rest := by
    rcases reached with rfl | old
    · rfl
    · cases rest with
      | nil => exact absurd rfl some
      | cons r rest => exact window_append ordered (old r rfl)
  rw [same]
  cases made : stack area rest with
  | nil => exact absurd (stack_eq_nil area made) some
  | cons e es =>
    refine ⟨e, es, rfl, ?_, ?_⟩
    · intro x member
      exact stack_least area made x ((window_suffix bound rest).subset member)
    · obtain ⟨passed, y, behind, split, level, later⟩ := stack_tail area made
      refine ⟨y, ?_, level⟩
      rw [split]
      refine mem_window ?_
      cases behind with
      | nil => exact nofun
      | cons r rs =>
        intro r' head
        cases head
        obtain ⟨g, gs, first, since⟩ := stack_cons area r rs
        rw [first] at later
        rw [← since]
        exact fresh e g gs (by rw [made, later])

end Time

end WindowMin
