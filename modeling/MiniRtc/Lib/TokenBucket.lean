import Mathlib

/-! The token bucket. It fills at a rate up to its capacity. What is paid out of it in a window of time is the capacity
and what comes in during the window, at most. -/
namespace TokenBucket

variable {R : Type*} [CommRing R]

@[ext]
structure Bucket (R : Type*) where
  level : R
  last : R

inductive Request (R : Type*) where
  | look (now : R)
  | pay (now cost : R)

/-- A bucket, and the time and the amount of each payment out of it. -/
structure Ledger (R : Type*) where
  bucket : Bucket R
  paid : List (R × R) := []

/-- The amounts paid at certain times. -/
def spent (times : R → Prop) [DecidablePred times] (paid : List (R × R)) : R :=
  ((paid.filter fun entry => times entry.1).map Prod.snd).sum

section Spent

variable (times : R → Prop) [DecidablePred times]

@[simp]
theorem spent_nil : spent times [] = 0 := rfl

theorem spent_concat (paid : List (R × R)) (now cost : R) :
    spent times (paid ++ [(now, cost)]) = spent times paid + if times now then cost else 0 := by
  by_cases counts : times now <;> simp [spent, counts]

theorem spent_none {paid : List (R × R)} (none : ∀ entry ∈ paid, ¬ times entry.1) : spent times paid = 0 := by
  have empty : (paid.filter fun entry => times entry.1) = [] :=
    List.filter_eq_nil_iff.mpr fun entry mem => by simpa using none entry mem
  rw [spent, empty]
  rfl

end Spent

variable [LinearOrder R]

def Bucket.refill (capacity rate : R) (b : Bucket R) (now : R) : Bucket R :=
  ⟨min capacity (b.level + (now - b.last) * rate), now⟩

namespace Ledger

def refill (capacity rate : R) (l : Ledger R) (now : R) : Ledger R :=
  { l with bucket := l.bucket.refill capacity rate now }

def withdraw (l : Ledger R) (cost : R) : Ledger R where
  bucket := { l.bucket with level := l.bucket.level - cost }
  paid := l.paid ++ [(l.bucket.last, cost)]

/-- A request with a time before the last one is ignored, and what is not there is not paid. -/
def request (capacity rate : R) (l : Ledger R) : Request R → Ledger R
  | .look now => if now < l.bucket.last then l else l.refill capacity rate now
  | .pay now cost =>
    if now < l.bucket.last then l
    else if cost ≤ (l.refill capacity rate now).bucket.level then (l.refill capacity rate now).withdraw cost
    else l.refill capacity rate now

end Ledger

theorem spent_mono [IsStrictOrderedRing R] {times other : R → Prop} [DecidablePred times] [DecidablePred other]
    {paid : List (R × R)} (costs : ∀ entry ∈ paid, 0 ≤ entry.2) (fewer : ∀ t, times t → other t) :
    spent times paid ≤ spent other paid := by
  induction paid using List.reverseRecOn with
  | nil => exact le_refl _
  | append_singleton paid entry ih =>
    have rest := ih fun e mem => costs e (List.mem_append_left _ mem)
    have cost : 0 ≤ entry.2 := costs entry (by simp)
    rw [spent_concat, spent_concat]
    by_cases counts : times entry.1
    · rw [if_pos counts, if_pos (fewer _ counts)]
      linarith
    · rw [if_neg counts]
      split <;> linarith

/-- What a ledger keeps. Nothing is lost: what was paid since a time and what is there came out of a full bucket and what
came in since then. -/
structure Ledger.Sound (capacity rate : R) (l : Ledger R) : Prop where
  nonneg : 0 ≤ l.bucket.level
  most : l.bucket.level ≤ capacity
  costs : ∀ entry ∈ l.paid, 0 ≤ entry.2
  past : ∀ entry ∈ l.paid, entry.1 ≤ l.bucket.last
  since : ∀ a ≤ l.bucket.last,
    spent (a ≤ ·) l.paid + l.bucket.level ≤ capacity + (l.bucket.last - a) * rate
  window : ∀ a b, a ≤ b → spent (fun t => a ≤ t ∧ t ≤ b) l.paid ≤ capacity + (b - a) * rate

namespace Ledger.Sound

variable [IsStrictOrderedRing R] {capacity rate : R} {l : Ledger R}

theorem full (positive : 0 ≤ capacity) (rises : 0 ≤ rate) (start : R) :
    Ledger.Sound capacity rate { bucket := ⟨capacity, start⟩ } := by
  have comes : ∀ {a b : R}, a ≤ b → 0 ≤ (b - a) * rate := fun before => mul_nonneg (sub_nonneg.mpr before) rises
  constructor
  · exact positive
  · exact le_refl _
  · simp
  · simp
  · intro a before
    simpa using comes before
  · intro a b before
    simpa using add_nonneg positive (comes before)

theorem refill (sound : l.Sound capacity rate) (rises : 0 ≤ rate) {now : R} (later : l.bucket.last ≤ now) :
    (l.refill capacity rate now).Sound capacity rate := by
  have comes : 0 ≤ (now - l.bucket.last) * rate := mul_nonneg (sub_nonneg.mpr later) rises
  have nonneg := sound.nonneg
  have most := sound.most
  constructor
  · exact le_min (by linarith) (by linarith)
  · exact min_le_left _ _
  · exact sound.costs
  · exact fun entry mem => (sound.past entry mem).trans later
  · intro a before
    show spent (a ≤ ·) l.paid + min capacity (l.bucket.level + (now - l.bucket.last) * rate) ≤
      capacity + (now - a) * rate
    by_cases held : a ≤ l.bucket.last
    · have account := sound.since a held
      calc spent (a ≤ ·) l.paid + min capacity (l.bucket.level + (now - l.bucket.last) * rate)
          ≤ spent (a ≤ ·) l.paid + (l.bucket.level + (now - l.bucket.last) * rate) := by
            linarith [min_le_right capacity (l.bucket.level + (now - l.bucket.last) * rate)]
        _ ≤ capacity + (l.bucket.last - a) * rate + (now - l.bucket.last) * rate := by linarith
        _ = capacity + (now - a) * rate := by ring
    · have none : spent (a ≤ ·) l.paid = 0 :=
        spent_none _ fun entry mem since => held (since.trans (sound.past entry mem))
      have after : 0 ≤ (now - a) * rate := mul_nonneg (sub_nonneg.mpr before) rises
      rw [none]
      linarith [min_le_left capacity (l.bucket.level + (now - l.bucket.last) * rate)]
  · exact sound.window

theorem withdraw (sound : l.Sound capacity rate) (rises : 0 ≤ rate) {cost : R} (positive : 0 ≤ cost)
    (there : cost ≤ l.bucket.level) : (l.withdraw cost).Sound capacity rate := by
  have most := sound.most
  have since : ∀ a ≤ l.bucket.last, spent (a ≤ ·) (l.withdraw cost).paid + (l.bucket.level - cost) ≤
      capacity + (l.bucket.last - a) * rate := by
    intro a before
    have account := sound.since a before
    rw [Ledger.withdraw, spent_concat, if_pos before]
    linarith
  have costs : ∀ entry ∈ (l.withdraw cost).paid, 0 ≤ entry.2 := by
    intro entry mem
    rcases List.mem_append.mp mem with old | new
    · exact sound.costs entry old
    · rw [List.mem_singleton.mp new]
      exact positive
  constructor
  · exact sub_nonneg.mpr there
  · show l.bucket.level - cost ≤ capacity
    linarith
  · exact costs
  · intro entry mem
    rcases List.mem_append.mp mem with old | new
    · exact sound.past entry old
    · rw [List.mem_singleton.mp new]
      exact le_refl _
  · exact since
  · intro a b before
    by_cases inside : a ≤ l.bucket.last ∧ l.bucket.last ≤ b
    · have account := since a inside.1
      have fewer : spent (fun t => a ≤ t ∧ t ≤ b) (l.withdraw cost).paid ≤ spent (a ≤ ·) (l.withdraw cost).paid :=
        spent_mono costs fun t both => both.1
      have longer : (l.bucket.last - a) * rate ≤ (b - a) * rate :=
        mul_le_mul_of_nonneg_right (by linarith) rises
      linarith
    · rw [Ledger.withdraw, spent_concat, if_neg inside, add_zero]
      exact sound.window a b before

theorem request (sound : l.Sound capacity rate) (rises : 0 ≤ rate) {r : Request R}
    (positive : ∀ now cost, r = .pay now cost → 0 ≤ cost) : (l.request capacity rate r).Sound capacity rate := by
  cases r with
  | look now =>
    rw [Ledger.request]
    split
    · exact sound
    · exact sound.refill rises (not_lt.mp ‹_›)
  | pay now cost =>
    rw [Ledger.request]
    split
    · exact sound
    · have filled := sound.refill rises (not_lt.mp ‹_›)
      split
      · exact filled.withdraw rises (positive now cost rfl) ‹_›
      · exact filled

end Ledger.Sound

/-- To wait for longer than it takes to fill the bucket at the rate one changes nothing. -/
theorem refill_capped [IsStrictOrderedRing R] {capacity rate level waited : R} (least : 1 ≤ rate) (nonneg : 0 ≤ level)
    (positive : 0 ≤ capacity) :
    min capacity (level + min waited capacity * rate) = min capacity (level + waited * rate) := by
  rcases le_total waited capacity with short | long
  · rw [min_eq_left short]
  · have full : capacity ≤ capacity * rate := le_mul_of_one_le_right positive least
    have more : capacity * rate ≤ waited * rate := mul_le_mul_of_nonneg_right long (by linarith)
    rw [min_eq_right long, min_eq_left (by linarith), min_eq_left (by linarith)]

end TokenBucket
