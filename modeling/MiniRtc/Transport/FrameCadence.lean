import Mathlib

/-! The admission of captured frames (video_frame_cadence.h). The next slot keeps the phase, but it is never sooner than
half an interval after a frame. -/
namespace MiniRtc.Transport

structure VideoFrameCadence where
  nextFrameUs : Int := 0
deriving DecidableEq

namespace VideoFrameCadence

def intervalUs (frameRate : Int) : Int := Int.tdiv 1000000 frameRate

def halfUs (frameRate : Int) : Int := Int.tdiv (intervalUs frameRate) 2

/-- A next slot of zero is that of a new stream. -/
def accept (c : VideoFrameCadence) (nowUs frameRate : Int) : Bool × VideoFrameCadence :=
  if nowUs + 1000 < c.nextFrameUs then (false, c)
  else
    (true, { nextFrameUs :=
      if c.nextFrameUs = 0 then nowUs + intervalUs frameRate
      else max (c.nextFrameUs + intervalUs frameRate) (nowUs + halfUs frameRate) })

/-- The times of the frames that are accepted. -/
def accepted (frameRate : Int) : VideoFrameCadence → List Int → List Int
  | _, [] => []
  | c, nowUs :: offers =>
    if (c.accept nowUs frameRate).1 then nowUs :: accepted frameRate (c.accept nowUs frameRate).2 offers
    else accepted frameRate (c.accept nowUs frameRate).2 offers

variable {frameRate : Int} {c : VideoFrameCadence} {nowUs : Int}

theorem accept_early (early : nowUs + 1000 < c.nextFrameUs) : c.accept nowUs frameRate = (false, c) := by
  simp [accept, early]

theorem accept_due (due : c.nextFrameUs ≤ nowUs + 1000) (begun : c.nextFrameUs ≠ 0) : c.accept nowUs frameRate =
    (true, ⟨max (c.nextFrameUs + intervalUs frameRate) (nowUs + halfUs frameRate)⟩) := by
  simp [accept, not_lt.mpr due, begun]

theorem accept_first (positive : 0 < nowUs) :
    accept {} nowUs frameRate = (true, ⟨nowUs + intervalUs frameRate⟩) := by
  simp [accept]
  omega

theorem interval_bounds (low : 1 ≤ frameRate) (high : frameRate ≤ 1000) :
    1000 ≤ intervalUs frameRate ∧ 0 ≤ halfUs frameRate ∧ 2 * halfUs frameRate ≤ intervalUs frameRate := by
  have least : 1000 ≤ intervalUs frameRate := by
    rw [intervalUs, Int.tdiv_eq_ediv_of_nonneg (by decide), Int.le_ediv_iff_mul_le (by omega)]
    omega
  have half : halfUs frameRate = intervalUs frameRate / 2 := Int.tdiv_eq_ediv_of_nonneg (by omega)
  omega

/-- Each frame moves the next slot by an interval or more. -/
theorem slots (offers : List Int) (begun : 0 < c.nextFrameUs) (low : 1 ≤ frameRate) (high : frameRate ≤ 1000) {j : Nat}
    {u : Int} (there : (accepted frameRate c offers)[j]? = some u) :
    c.nextFrameUs + j * intervalUs frameRate ≤ u + 1000 := by
  obtain ⟨least, -, -⟩ := interval_bounds low high
  induction offers generalizing c j with
  | nil => cases there
  | cons nowUs offers ih =>
    by_cases early : nowUs + 1000 < c.nextFrameUs
    · rw [accepted, accept_early early] at there
      exact ih begun there
    · rw [accepted, accept_due (not_lt.mp early) begun.ne'] at there
      cases j with
      | zero =>
        obtain rfl := Option.some.inj there
        simpa using early
      | succ j =>
        have later := ih (lt_max_of_lt_left (by omega)) there
        have moved : c.nextFrameUs + intervalUs frameRate ≤
            max (c.nextFrameUs + intervalUs frameRate) (nowUs + halfUs frameRate) := le_max_left _ _
        push_cast at later ⊢
        linarith

/-- No burst follows a frame. -/
theorem spaced {offers before after : List Int} {t : Int} (positive : ∀ u ∈ offers, 0 < u) (low : 1 ≤ frameRate)
    (high : frameRate ≤ 1000) (parts : accepted frameRate c offers = before ++ t :: after) {j : Nat} {u : Int}
    (there : after[j]? = some u) (sane : 0 ≤ c.nextFrameUs) :
    t + halfUs frameRate + j * intervalUs frameRate ≤ u + 1000 := by
  obtain ⟨least, half, twice⟩ := interval_bounds low high
  induction offers generalizing c before with
  | nil => cases before <;> cases parts
  | cons nowUs offers ih =>
    have first := positive nowUs List.mem_cons_self
    have rest := fun u member => positive u (List.mem_cons_of_mem _ member)
    by_cases early : nowUs + 1000 < c.nextFrameUs
    · rw [accepted, accept_early early] at parts
      exact ih rest parts sane
    · have next : ∃ n, c.accept nowUs frameRate = (true, ⟨n⟩) ∧ nowUs + halfUs frameRate ≤ n := by
        by_cases new : c.nextFrameUs = 0
        · refine ⟨nowUs + intervalUs frameRate, ?_, by omega⟩
          rw [accept, if_neg early, if_pos new]
        · exact ⟨_, accept_due (not_lt.mp early) new, le_max_right _ _⟩
      obtain ⟨n, step, least⟩ := next
      rw [accepted, step, if_pos rfl] at parts
      cases before with
      | nil =>
        obtain ⟨rfl, rfl⟩ := List.cons.inj parts
        have later := slots offers (c := ⟨n⟩) (by show 0 < n; omega) low high there
        simp only at later
        omega
      | cons b before => exact ih rest (List.cons.inj parts).2 (by show 0 ≤ n; omega)

/-- The first and the last of two or more elements with a property. -/
theorem ends_of_filter {α : Type*} {p : α → Bool} (l : List α) (two : 2 ≤ (l.filter p).length) :
    ∃ before t middle u after, l = before ++ t :: (middle ++ u :: after) ∧ p t = true ∧ p u = true ∧
      (l.filter p).length ≤ middle.length + 2 := by
  have last : ∀ l : List α, 1 ≤ (l.filter p).length →
      ∃ middle u after, l = middle ++ u :: after ∧ p u = true ∧ (l.filter p).length ≤ middle.length + 1 := by
    intro l
    induction l using List.reverseRecOn with
    | nil => simp
    | append_singleton l u ih =>
      intro some
      by_cases here : p u = true
      · refine ⟨l, u, [], rfl, here, ?_⟩
        have := List.length_filter_le p l
        simp [List.filter_append, here]
        omega
      · rw [List.filter_append, List.filter_singleton, Bool.eq_false_of_not_eq_true here, cond_false, List.append_nil]
          at some ⊢
        obtain ⟨middle, u', after, rfl, there, few⟩ := ih some
        exact ⟨middle, u', after ++ [u], by simp, there, few⟩
  induction l with
  | nil => simp at two
  | cons t l ih =>
    by_cases here : p t = true
    · rw [List.filter_cons_of_pos here, List.length_cons] at two
      obtain ⟨middle, u, after, rfl, there, few⟩ := last l (by omega)
      refine ⟨[], t, middle, u, after, rfl, here, there, ?_⟩
      rw [List.filter_cons_of_pos here, List.length_cons]
      omega
    · rw [List.filter_cons_of_neg here] at two ⊢
      obtain ⟨before, t', middle, u, after, rfl, rest⟩ := ih two
      exact ⟨t :: before, t', middle, u, after, rfl, rest⟩

/-- With small gaps every frame is near its slot, and each slot has one. -/
theorem phase {offers : List Int} {previous : Int} (low : 1 ≤ frameRate) (high : frameRate ≤ 1000)
    (gaps : (previous :: offers).IsChain fun t u => u - t ≤ halfUs frameRate) (begun : 0 < c.nextFrameUs)
    (before : previous + 1000 ≤ c.nextFrameUs) (k : Nat) :
    (∀ u, (accepted frameRate c offers)[k]? = some u →
      c.nextFrameUs + k * intervalUs frameRate ≤ u + 1000 ∧
        u + 1000 ≤ c.nextFrameUs + k * intervalUs frameRate + halfUs frameRate) ∧
    ((∃ u ∈ offers, c.nextFrameUs + k * intervalUs frameRate ≤ u + 1000) → k < (accepted frameRate c offers).length) := by
  obtain ⟨least, half, twice⟩ := interval_bounds low high
  induction offers generalizing c previous k with
  | nil => simp [accepted]
  | cons nowUs offers ih =>
    obtain ⟨gap, gaps⟩ := List.isChain_cons_cons.mp gaps
    by_cases early : nowUs + 1000 < c.nextFrameUs
    · obtain ⟨near, more⟩ := ih gaps begun early.le k
      rw [accepted, accept_early early]
      refine ⟨near, fun late => more ?_⟩
      obtain ⟨u, member, late⟩ := late
      rcases List.mem_cons.mp member with rfl | there
      · have : 0 ≤ k * intervalUs frameRate := by positivity
        omega
      · exact ⟨u, there, late⟩
    · have kept : max (c.nextFrameUs + intervalUs frameRate) (nowUs + halfUs frameRate) =
          c.nextFrameUs + intervalUs frameRate := max_eq_left (by omega)
      rw [accepted, accept_due (not_lt.mp early) begun.ne', kept, if_pos rfl]
      cases k with
      | zero =>
        constructor
        · intro u first
          obtain rfl := Option.some.inj first
          simp only [Nat.cast_zero, zero_mul]
          omega
        · intro _
          simp
      | succ k =>
        obtain ⟨near, more⟩ := ih (c := ⟨c.nextFrameUs + intervalUs frameRate⟩) gaps
          (by show 0 < c.nextFrameUs + intervalUs frameRate; omega)
          (by show nowUs + 1000 ≤ c.nextFrameUs + intervalUs frameRate; omega) k
        have slot : c.nextFrameUs + ((k + 1 : Nat) : Int) * intervalUs frameRate =
            c.nextFrameUs + intervalUs frameRate + k * intervalUs frameRate := by
          push_cast
          ring
        rw [slot]
        refine ⟨near, fun late => Nat.succ_lt_succ (more ?_)⟩
        obtain ⟨u, member, late⟩ := late
        rcases List.mem_cons.mp member with rfl | there
        · have : 0 ≤ k * intervalUs frameRate := by positivity
          omega
        · exact ⟨u, there, late⟩

/-- In any window there are few frames, and offers without gaps keep the rate. -/
theorem cadence_kept (frameRate : Int) (low : 1 ≤ frameRate) (high : frameRate ≤ 1000) (offers : List Int)
    (positive : ∀ t ∈ offers, 0 < t) (increasing : offers.IsChain (· < ·)) :
    (∀ a b : Int, a ≤ b →
      (((accepted frameRate {} offers).filter fun t => a ≤ t && t ≤ b).length : ℚ) ≤
        (b - a + 1000 - halfUs frameRate) / intervalUs frameRate + 2) ∧
    ((offers.IsChain fun t u => u - t ≤ halfUs frameRate) →
      ∀ t, (accepted frameRate {} offers)[0]? = some t → ∀ k : Nat, 1 ≤ k →
        (∀ u, (accepted frameRate {} offers)[k]? = some u →
          t + k * intervalUs frameRate - 1000 ≤ u ∧
            u ≤ t + k * intervalUs frameRate - 1000 + halfUs frameRate) ∧
        ((∃ u ∈ offers, t < u ∧ t + k * intervalUs frameRate - 1000 ≤ u) → k < (accepted frameRate {} offers).length)) := by
  obtain ⟨least, half, twice⟩ := interval_bounds low high
  have real : (0 : ℚ) < intervalUs frameRate := by exact_mod_cast (by omega : 0 < intervalUs frameRate)
  constructor
  · intro a b order
    generalize count : ((accepted frameRate {} offers).filter fun t => a ≤ t && t ≤ b).length = n
    have bound : ((n : Int) - 2) * intervalUs frameRate ≤ b - a + 1000 - halfUs frameRate := by
      by_cases two : 2 ≤ n
      · obtain ⟨before, t, middle, u, after, parts, first, last, few⟩ := ends_of_filter _ (count.ge.trans' two)
        rw [count] at few
        simp only [Bool.and_eq_true, decide_eq_true_eq] at first last
        have apart := spaced (c := {}) positive low high parts (j := middle.length) (u := u) (by simp) le_rfl
        have turns : ((n : Int) - 2) * intervalUs frameRate ≤ middle.length * intervalUs frameRate :=
          mul_le_mul_of_nonneg_right (by omega) (by omega)
        omega
      · have : ((n : Int) - 2) * intervalUs frameRate ≤ -1 * intervalUs frameRate :=
          mul_le_mul_of_nonneg_right (by omega) (by omega)
        omega
    rw [← sub_le_iff_le_add, le_div_iff₀ real]
    exact_mod_cast bound
  · intro gaps t first k later
    cases offers with
    | nil => cases first
    | cons nowUs offers =>
      have positive := positive nowUs List.mem_cons_self
      rw [accepted, accept_first positive, if_pos rfl] at first ⊢
      obtain rfl := Option.some.inj first
      obtain ⟨k, rfl⟩ : ∃ j, k = j + 1 := ⟨k - 1, by omega⟩
      obtain ⟨near, more⟩ := phase (c := ⟨nowUs + intervalUs frameRate⟩) low high gaps
        (by show 0 < nowUs + intervalUs frameRate; omega)
        (by show nowUs + 1000 ≤ nowUs + intervalUs frameRate; omega) k
      have slot : nowUs + ((k + 1 : Nat) : Int) * intervalUs frameRate =
          nowUs + intervalUs frameRate + k * intervalUs frameRate := by
        push_cast
        ring
      rw [slot]
      constructor
      · intro u there
        have := near u there
        simp only at this
        omega
      · rintro ⟨u, member, after, late⟩
        rcases List.mem_cons.mp member with rfl | there
        · exact absurd after (lt_irrefl u)
        · exact Nat.succ_lt_succ (more ⟨u, there, by simp only; omega⟩)

/-- Offers at about 60 frames a second, of which half are taken. -/
theorem cadence_kept_thirty : accepted 30 {} [1000, 17000, 33500, 50000, 66666] = [1000, 33500, 66666] ∧
    1000 + 1 * intervalUs 30 - 1000 ≤ 33500 ∧ 33500 ≤ 1000 + 1 * intervalUs 30 - 1000 + halfUs 30 ∧
    (2 : ℚ) ≤ (33500 - 1000 + 1000 - halfUs 30) / intervalUs 30 + 2 := by
  have kept := cadence_kept 30 (by decide) (by decide) [1000, 17000, 33500, 50000, 66666] (by decide) (by decide)
  have near := (kept.2 (by decide) 1000 (by decide) 1 le_rfl).1 33500 (by decide)
  have few := kept.1 1000 33500 (by decide)
  have taken : accepted 30 {} [1000, 17000, 33500, 50000, 66666] = [1000, 33500, 66666] := by decide
  rw [taken] at few
  exact ⟨taken, near.1, near.2, few⟩

end VideoFrameCadence

end MiniRtc.Transport
