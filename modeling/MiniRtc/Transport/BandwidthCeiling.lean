import MiniRtc.Transport.BandwidthMapping

/-! The confirmation of a larger ceiling, from the update that starts it to the one that commits:
what is committed is the least size of a window of half a second.
An update that starts a confirmation without raising the ceiling leaves no candidate. Should the
ceiling fall before the next update, that one is all that the window has. -/
namespace MiniRtc.Transport
open WindowMin

def Tick.sample (t : Tick) : Sample Size Int := ⟨t.target, t.nowMs⟩

/-- A pending mapping and its updates. -/
structure Confirmation where
  context : MappingContext
  ticks : List Tick
  -- whether the first of them raised the ceiling
  raised : Bool
  committed : Option Size := none
deriving DecidableEq, Repr

namespace MappingContext

/-- An update that starts a pending mapping. -/
def Starts (c : MappingContext) (t : Tick) : Prop :=
  0 < t.nowMs ∧ (c.leaveStaticHold t).candidateSupported t = false ∧
    ((c.leaveStaticHold t).raisingCeiling t && t.resolutionUpgradeNetworkBlocked) = false ∧
    (t.allowSpatialDowngrade && (t.freezeResolution || t.staticContentCandidate) &&
      !(c.leaveStaticHold t).raisingCeiling t) = false

/-- An update that raises the ceiling and supports the pending size. -/
def Supports (c : MappingContext) (t : Tick) : Prop :=
  (c.leaveStaticHold t).raisingCeiling t = true ∧ t.resolutionUpgradeNetworkBlocked = false ∧
    (c.leaveStaticHold t).candidateSupported t = true

instance (c : MappingContext) (t : Tick) : Decidable (c.Starts t) :=
  inferInstanceAs (Decidable (_ ∧ _ ∧ _ ∧ _))

instance (c : MappingContext) (t : Tick) : Decidable (c.Supports t) :=
  inferInstanceAs (Decidable (_ ∧ _ ∧ _))

end MappingContext

namespace Confirmation

def start (c : MappingContext) (t : Tick) : Confirmation where
  context := (c.mapBandwidth t).1
  ticks := [t]
  raised := (c.leaveStaticHold t).raisingCeiling t

def Start (s : Confirmation) : Prop := ∃ c t, c.Starts t ∧ s = start c t

def apply (s : Confirmation) (t : Tick) : Confirmation :=
  { s with
    context := (s.context.mapBandwidth t).1
    ticks := s.ticks ++ [t]
    committed := (s.context.mapBandwidth t).2 }

/-- Nothing is committed yet, time does not go back, and equal areas mean equal sizes. -/
def Admits (s : Confirmation) (t : Tick) : Prop :=
  s.committed = none ∧ s.context.Supports t ∧
    ∀ u ∈ s.ticks, u.nowMs ≤ t.nowMs ∧ (u.target.area = t.target.area → u.target = t.target)

instance (s : Confirmation) (t : Tick) : Decidable (s.Admits t) :=
  inferInstanceAs (Decidable (_ ∧ _ ∧ ∀ u ∈ s.ticks, _ ∧ (_ → _)))

/-- The updates from the latest one that is half a second old. -/
def holdWindow (ticks : List Tick) (nowMs : Int) : List (Sample Size Int) :=
  window (nowMs - VideoAdaptationPolicy.kBandwidthMappingIncreaseStabilityMs) (ticks.map Tick.sample)

/-- The least area of the window. -/
def IsMinimum (ticks : List Tick) (nowMs m : Int) : Prop :=
  (∀ x ∈ holdWindow ticks nowMs, m ≤ x.size.area) ∧ ∃ x ∈ holdWindow ticks nowMs, x.size.area = m

/-- The last update is one to commit at. -/
def Due (ticks : List Tick) : Prop :=
  ∃ first ∈ ticks.head?, ∃ last ∈ ticks.getLast?,
    first.nowMs + 2500 ≤ last.nowMs ∨
      first.nowMs + 2000 ≤ last.nowMs ∧ IsMinimum ticks last.nowMs last.target.area

/-- The candidates are ordered, nothing is committed before an update that is due, and what is
committed at it has the least area of the window. -/
structure Right (s : Confirmation) : Prop where
  increasing : s.context.pendingMappedCandidates.Pairwise fun e f => e.size.area < f.size.area
  ordered : s.context.pendingMappedCandidates.Pairwise fun e f => e.since ≤ f.since
  waited : ∀ earlier, earlier <+: s.ticks → (earlier ≠ s.ticks ∨ s.committed = none) → ¬ Due earlier
  least : ∀ size ∈ s.committed, Due s.ticks ∧ ∃ last ∈ s.ticks.getLast?,
    IsMinimum s.ticks last.nowMs size.area ∧ ∃ x ∈ holdWindow s.ticks last.nowMs, x.size = size

/-- The first update raised the ceiling, or it does not matter that it left no candidate: nothing can
be committed yet, a later update is half a second old, or has the area of the first one, or both
minima are below the latest area and it is too early to commit either. -/
def Meets (s : Confirmation) (t : Tick) : Prop :=
  s.raised = true ∨ ∀ first ∈ s.ticks.head?,
    t.nowMs < first.nowMs + 2000 ∨
    (∃ u ∈ s.ticks.tail ++ [t], u.nowMs ≤ t.nowMs - 500) ∨
    (∃ u ∈ s.ticks.tail ++ [t], u.target.area = first.target.area) ∨
    t.nowMs < first.nowMs + 2500 ∧ ∃ u ∈ s.ticks.tail ++ [t], u.target.area < t.target.area

end Confirmation

/-! ### One update -/

namespace MappingContext

theorem Supports.held {c : MappingContext} {t : Tick} (supports : c.Supports t) :
    c.leaveStaticHold t = c := by
  have supported := supports.2.2
  unfold leaveStaticHold at supported ⊢
  split
  · rename_i leaves
    rw [if_pos leaves] at supported
    have positive := (of_decide_eq_true supported).1
    exact absurd positive (Int.lt_irrefl 0)
  · rfl

/-- The context with the candidate of an update. -/
def confirmed (c : MappingContext) (t : Tick) : MappingContext :=
  { c with
    pendingMappedCandidates := confirmCandidates c.pendingMappedCandidates t
    mappingStabilityCount := c.mappingStabilityCount + 1 }

/-- What an update commits that raises the ceiling and supports the pending size. -/
def offered (c : MappingContext) (t : Tick) : Option Size :=
  if VideoAdaptationPolicy.isBandwidthMappingStable t.nowMs c.pendingMappedSinceMs then
    (c.confirmed t).supportedSize t
  else none

theorem mapBandwidth_supports {c : MappingContext} {t : Tick} (supports : c.Supports t) :
    (c.mapBandwidth t).2 = c.offered t ∧
      (c.offered t = none → (c.mapBandwidth t).1 = c.confirmed t) ∧
      ∀ size, c.offered t = some size → (c.mapBandwidth t).1 = (c.confirmed t).commit size := by
  have held := supports.held
  obtain ⟨raising, free, supported⟩ := supports
  rw [held] at raising supported
  have same : c.mapBandwidth t =
      if !VideoAdaptationPolicy.isBandwidthMappingStable t.nowMs c.pendingMappedSinceMs then
        (c.confirmed t, none)
      else ((((c.confirmed t).supportedSize t).elim (c.confirmed t) (c.confirmed t).commit),
        (c.confirmed t).supportedSize t) := by
    simp only [mapBandwidth, held, raising, free, supported, Bool.not_true, Bool.and_false,
      Bool.false_eq_true, if_false, if_true]
    unfold confirmed
    split
    · rfl
    · split
      · rename_i empty
        rw [empty]
        rfl
      · rename_i size offers
        rw [offers]
        rfl
  rw [same, offered]
  cases VideoAdaptationPolicy.isBandwidthMappingStable t.nowMs c.pendingMappedSinceMs with
  | false => exact ⟨rfl, fun _ => rfl, fun size impossible => nomatch impossible⟩
  | true =>
    simp only [Bool.not_true, Bool.false_eq_true, if_false, if_true]
    refine ⟨trivial, ?_, ?_⟩
    · intro empty
      rw [empty]
      rfl
    · intro size offers
      rw [offers]
      rfl

/-- Such an update has at least the pending area. -/
theorem Supports.pending_le {c : MappingContext} {t : Tick} (supports : c.Supports t) :
    c.pendingArea ≤ t.target.area := by
  have held := supports.held
  obtain ⟨raising, _, supported⟩ := supports
  rw [held] at raising supported
  have both := (of_decide_eq_true supported).2
  rw [if_pos raising] at both
  exact both.2

/-- A starting update leaves its size pending. -/
theorem mapBandwidth_starts {c : MappingContext} {t : Tick} (starts : c.Starts t) :
    c.mapBandwidth t = ((c.leaveStaticHold t).startPending t, none) := by
  obtain ⟨_, supported, free, moves⟩ := starts
  simp only [mapBandwidth]
  rw [if_neg (by rw [free]; exact Bool.false_ne_true), if_neg (by rw [moves]; exact Bool.false_ne_true),
    supported]
  rfl

end MappingContext

/-! ### The candidates of a confirmation -/

namespace Confirmation
open MappingContext (confirmCandidates)

/-- The updates that left a candidate. -/
def tracked (s : Confirmation) : List Tick := if s.raised then s.ticks else s.ticks.tail

/-- The candidates are those of the updates from one on that is half a second old, or from the first
one on. -/
def Holds (candidates : List (Sample Size Int)) (ticks : List Tick) (nowMs : Int) : Prop :=
  ∃ done rest, ticks.map Tick.sample = done ++ rest ∧ candidates = stack Size.area rest ∧
    (rest = [] → ticks = []) ∧
    (done = [] ∨ ∀ r ∈ rest.head?, r.since ≤ nowMs -
      VideoAdaptationPolicy.kBandwidthMappingIncreaseStabilityMs)

/-- A confirmation that goes on. -/
structure Confirming (s : Confirmation) (first : Tick) (later : List Tick) : Prop where
  ticks : s.ticks = first :: later
  open_ : s.committed = none
  positive : 0 < first.nowMs
  width : s.context.pendingMappedWidth = some first.target.width
  height : s.context.pendingMappedHeight = some first.target.height
  since : s.context.pendingMappedSinceMs = first.nowMs
  ordered : (first :: later).Pairwise fun u v => u.nowMs ≤ v.nowMs
  sizes : (first :: later).Pairwise fun u v => u.target.area = v.target.area → u.target = v.target
  above : ∀ u ∈ later, first.target.area ≤ u.target.area
  candidates : ∀ last ∈ s.ticks.getLast?, Holds s.context.pendingMappedCandidates s.tracked last.nowMs
  waited : ∀ earlier, earlier <+: s.ticks → ¬ Due earlier

variable {s : Confirmation} {t first : Tick} {later : List Tick}

theorem Holds.ordered {candidates : List (Sample Size Int)} {ticks : List Tick} {nowMs : Int}
    (holds : Holds candidates ticks nowMs) (times : ticks.Pairwise fun u v => u.nowMs ≤ v.nowMs) :
    candidates.Pairwise (fun e f => e.size.area < f.size.area) ∧
      candidates.Pairwise fun e f => e.since ≤ f.since := by
  obtain ⟨done, rest, split, made, _, _⟩ := holds
  have samples : (done ++ rest).Pairwise fun x y => x.since ≤ y.since := by
    rw [← split]
    exact List.pairwise_map.mpr times
  rw [made]
  exact ⟨stack_increasing Size.area rest, stack_since Size.area (List.pairwise_append.mp samples).2.1⟩

/-- A new candidate, and what the front is then. -/
theorem Holds.confirm {candidates : List (Sample Size Int)} {ticks : List Tick} {nowMs : Int}
    (holds : Holds candidates ticks nowMs) (later : nowMs ≤ t.nowMs)
    (times : (ticks ++ [t]).Pairwise fun u v => u.nowMs ≤ v.nowMs)
    (same : ∀ u ∈ ticks, u.target.area = t.target.area → u.target = t.target) :
    Holds (confirmCandidates candidates t) (ticks ++ [t]) t.nowMs ∧
      ∃ e es, confirmCandidates candidates t = e :: es ∧ IsMinimum (ticks ++ [t]) t.nowMs e.size.area ∧
        ∃ u ∈ ticks ++ [t], u.target = e.size := by
  obtain ⟨done, rest, split, made, some, reached⟩ := holds
  have named : ∀ x ∈ rest, x.size.area = t.target.area → x.size = t.target := by
    intro x member
    have inside : x ∈ ticks.map Tick.sample := by
      rw [split]
      exact List.mem_append_right _ member
    obtain ⟨u, mem, rfl⟩ := List.mem_map.mp inside
    exact same u mem
  have appended : rest ++ [t.sample] ≠ [] := by simp
  obtain ⟨passed, kept, cut, filled, left, old, fresh⟩ := expire_stack Size.area
    (t.nowMs - VideoAdaptationPolicy.kBandwidthMappingIncreaseStabilityMs) appended
  have pushed : confirmCandidates candidates t = stack Size.area kept := by
    rw [confirmCandidates, made, push_stack Size.area t.nowMs named]
    exact left
  have whole : (ticks ++ [t]).map Tick.sample = (done ++ passed) ++ kept := by
    rw [List.map_append, split, List.append_assoc, List.append_assoc, ← cut]
    rfl
  have start : done ++ passed = [] ∨ ∀ r ∈ kept.head?, r.since ≤ t.nowMs -
      VideoAdaptationPolicy.kBandwidthMappingIncreaseStabilityMs := by
    rcases old with rfl | old
    · rcases reached with rfl | reached
      · exact Or.inl rfl
      · cases rest with
        | nil =>
          rw [some rfl] at split
          have both := List.append_eq_nil_iff.mp split.symm
          exact Or.inl (by rw [both.1]; rfl)
        | cons r rest =>
          refine Or.inr ?_
          rw [List.nil_append] at cut
          rw [← cut]
          intro r' head
          have before := reached r' head
          omega
    · exact Or.inr old
  have ordered : ((done ++ passed) ++ kept).Pairwise fun x y => x.since ≤ y.since := by
    rw [← whole]
    exact List.pairwise_map.mpr times
  refine ⟨⟨done ++ passed, kept, whole, pushed, fun empty => absurd empty filled, start⟩, ?_⟩
  obtain ⟨e, es, front, least, x, member, level⟩ := front_least Size.area ordered filled start fresh
  refine ⟨e, es, pushed.trans front, ?_, ?_⟩
  · rw [IsMinimum, holdWindow, whole]
    exact ⟨least, x, member, level⟩
  · obtain ⟨⟨y, inside, size⟩, _⟩ := mem_stack Size.area (front ▸ List.mem_cons_self : e ∈ stack _ kept)
    have mem : y ∈ (ticks ++ [t]).map Tick.sample := by
      rw [whole]
      exact List.mem_append_right _ inside
    obtain ⟨u, listed, rfl⟩ := List.mem_map.mp mem
    exact ⟨u, listed, size⟩

/-! ### The window -/

theorem holdWindow_subset {ticks : List Tick} {nowMs : Int} {x : Sample Size Int}
    (member : x ∈ holdWindow ticks nowMs) : ∃ u ∈ ticks, u.sample = x :=
  List.mem_map.mp ((window_suffix _ _).subset member)

theorem newest_mem (ticks : List Tick) (t : Tick) : t.sample ∈ holdWindow (ticks ++ [t]) t.nowMs := by
  rw [holdWindow, List.map_append]
  exact mem_window fun r head => nomatch head

theorem IsMinimum.unique {ticks : List Tick} {nowMs m n : Int} (left : IsMinimum ticks nowMs m)
    (right : IsMinimum ticks nowMs n) : m = n := by
  obtain ⟨least, x, member, area⟩ := left
  obtain ⟨least', y, member', area'⟩ := right
  have one := least y member'
  have other := least' x member
  omega

/-- A first update before an old enough one is not in the window. -/
theorem holdWindow_old {first u : Tick} {later : List Tick} {nowMs : Int}
    (ordered : later.Pairwise fun u v => u.nowMs ≤ v.nowMs) (member : u ∈ later)
    (old : u.nowMs ≤ nowMs - 500) : holdWindow (first :: later) nowMs = holdWindow later nowMs := by
  cases later with
  | nil => cases member
  | cons h later =>
    have before : h.nowMs ≤ nowMs - 500 := by
      rcases List.mem_cons.mp member with rfl | inside
      · exact old
      · exact ((List.pairwise_cons.mp ordered).1 u inside).trans old
    rw [holdWindow, holdWindow, List.map_cons, List.map_cons, window, if_pos]
    exact before

theorem holdWindow_young (ticks : List Tick) {nowMs : Int}
    (young : ∀ u ∈ ticks.tail, nowMs - 500 < u.nowMs) :
    holdWindow ticks nowMs = ticks.map Tick.sample := by
  cases ticks with
  | nil => rfl
  | cons first later =>
    cases later with
    | nil => rfl
    | cons h later =>
      rw [holdWindow, List.map_cons, List.map_cons, window, if_neg]
      exact not_le.mpr (young h List.mem_cons_self)

theorem due_iff (first : Tick) (later : List Tick) (t : Tick) :
    Due (first :: later ++ [t]) ↔ first.nowMs + 2500 ≤ t.nowMs ∨
      first.nowMs + 2000 ≤ t.nowMs ∧ IsMinimum (first :: later ++ [t]) t.nowMs t.target.area := by
  have last : (first :: later ++ [t]).getLast? = some t := List.getLast?_concat
  constructor
  · rintro ⟨_, head, _, named, due⟩
    rw [last] at named
    cases head
    cases named
    exact due
  · intro due
    exact ⟨first, rfl, t, last, due⟩

/-! ### One more update -/

theorem offered_front {c : MappingContext} {e : Sample Size Int} {es : List (Sample Size Int)}
    {sinceMs : Int} (since : c.pendingMappedSinceMs = sinceMs) (positive : 0 < sinceMs)
    (later : sinceMs ≤ t.nowMs)
    (front : confirmCandidates c.pendingMappedCandidates t = e :: es) :
    c.offered t = if sinceMs + 2000 ≤ t.nowMs ∧
      ¬ (e.size.area < t.target.area ∧ t.nowMs < sinceMs + 2500) then some e.size else none := by
  have stable : VideoAdaptationPolicy.isBandwidthMappingStable t.nowMs c.pendingMappedSinceMs =
      decide (sinceMs + 2000 ≤ t.nowMs) := by
    unfold VideoAdaptationPolicy.isBandwidthMappingStable
      VideoAdaptationPolicy.kBandwidthMappingStabilityMs
    rw [since]
    refine decide_eq_decide.mpr ?_
    omega
  have supported : (c.confirmed t).supportedSize t =
      if e.size.area < t.target.area ∧ t.nowMs < sinceMs + 2500 then none else some e.size := by
    have same : (t.nowMs - sinceMs < VideoAdaptationPolicy.kBandwidthMappingStabilityMs +
        VideoAdaptationPolicy.kBandwidthMappingIncreaseStabilityMs) ↔ t.nowMs < sinceMs + 2500 := by
      unfold VideoAdaptationPolicy.kBandwidthMappingStabilityMs
        VideoAdaptationPolicy.kBandwidthMappingIncreaseStabilityMs
      omega
    simp only [MappingContext.supportedSize, MappingContext.confirmed, front, since, same]
  rw [MappingContext.offered, stable, supported]
  by_cases waits : e.size.area < t.target.area ∧ t.nowMs < sinceMs + 2500
  · rw [if_pos waits, ite_self, if_neg fun both => both.2 waits]
  · rw [if_neg waits]
    simp only [decide_eq_true_eq]
    by_cases late : sinceMs + 2000 ≤ t.nowMs
    · rw [if_pos late, if_pos ⟨late, waits⟩]
    · rw [if_neg late, if_neg fun both => late both.1]

/-- What an update commits is the least size of its window, and it commits nothing before it is
due. -/
def Commits (ticks : List Tick) (nowMs : Int) (committed : Option Size) : Prop :=
  (committed = none → ¬ Due ticks) ∧ ∀ size, committed = some size → Due ticks ∧
    IsMinimum ticks nowMs size.area ∧ ∃ x ∈ holdWindow ticks nowMs, x.size = size

theorem commits_minimum {size : Size} (minimum : IsMinimum (first :: later ++ [t]) t.nowMs size.area)
    (named : ∃ u ∈ first :: later ++ [t], u.target = size)
    (sizes : (first :: later ++ [t]).Pairwise fun u v =>
      u.target.area = v.target.area → u.target = v.target) :
    Commits (first :: later ++ [t]) t.nowMs (if first.nowMs + 2000 ≤ t.nowMs ∧
      ¬ (size.area < t.target.area ∧ t.nowMs < first.nowMs + 2500) then some size else none) := by
  have newest := minimum.1 t.sample (newest_mem _ t)
  have newest : size.area ≤ t.target.area := newest
  constructor
  · intro empty due
    rw [due_iff] at due
    split at empty
    · cases empty
    · rename_i waits
      apply waits
      rcases due with late | ⟨stable, least⟩
      · exact ⟨by omega, by omega⟩
      · exact ⟨stable, fun larger => absurd (minimum.unique least) (ne_of_lt larger.1)⟩
  · intro size' commits
    split at commits
    · rename_i ready
      cases commits
      obtain ⟨stable, settled⟩ := ready
      refine ⟨?_, minimum, ?_⟩
      · rw [due_iff]
        by_cases late : first.nowMs + 2500 ≤ t.nowMs
        · exact Or.inl late
        · have level : size.area = t.target.area := by omega
          exact Or.inr ⟨stable, level ▸ minimum⟩
      · obtain ⟨u, listed, target⟩ := named
        obtain ⟨_, x, member, area⟩ := minimum
        obtain ⟨v, inside, rfl⟩ := holdWindow_subset member
        have symm : Std.Symm fun u v : Tick => u.target.area = v.target.area → u.target = v.target :=
          ⟨fun _ _ equal area => (equal area.symm).symm⟩
        have equal := sizes.forall_of_forall (fun _ _ _ => rfl) inside listed
        refine ⟨v.sample, member, ?_⟩
        rw [← target]
        exact equal (by rw [target]; exact area)
    · cases commits

theorem commits_none (early : ¬ Due (first :: later ++ [t])) :
    Commits (first :: later ++ [t]) t.nowMs none :=
  ⟨fun _ => early, fun _ impossible => nomatch impossible⟩

section Step

variable (confirming : Confirming s first later) (admits : s.Admits t)
include confirming admits

/-- The lists of a confirmation with one more update. -/
theorem Confirming.listed :
    ((first :: later ++ [t]).Pairwise fun u v => u.nowMs ≤ v.nowMs) ∧
      ((first :: later ++ [t]).Pairwise fun u v => u.target.area = v.target.area → u.target = v.target) ∧
      ∀ u ∈ later ++ [t], first.target.area ≤ u.target.area := by
  obtain ⟨_, supports, before⟩ := admits
  rw [confirming.ticks] at before
  refine ⟨?_, ?_, ?_⟩
  · refine List.pairwise_append.mpr ⟨confirming.ordered, List.pairwise_singleton _ _, ?_⟩
    intro u member v new
    rw [List.mem_singleton.mp new]
    exact (before u member).1
  · refine List.pairwise_append.mpr ⟨confirming.sizes, List.pairwise_singleton _ _, ?_⟩
    intro u member v new
    rw [List.mem_singleton.mp new]
    exact (before u member).2
  · intro u member
    rcases List.mem_append.mp member with inside | new
    · exact confirming.above u inside
    · rw [List.mem_singleton.mp new]
      have pending := supports.pending_le
      rw [MappingContext.pendingArea, confirming.width, confirming.height] at pending
      exact pending

/-- The candidates after one more update, and the front of them. -/
theorem Confirming.front :
    let tracked := s.tracked ++ [t]
    let candidates := confirmCandidates s.context.pendingMappedCandidates t
    Holds candidates tracked t.nowMs ∧ ∃ e es, candidates = e :: es ∧
      IsMinimum tracked t.nowMs e.size.area ∧ ∃ u ∈ tracked, u.target = e.size := by
  obtain ⟨times, _, _⟩ := confirming.listed admits
  obtain ⟨_, _, before⟩ := admits
  have among : s.tracked ⊆ s.ticks := by
    unfold tracked
    split
    · exact List.Subset.refl _
    · exact List.tail_subset _
  have times : (s.tracked ++ [t]).Pairwise fun u v => u.nowMs ≤ v.nowMs := by
    refine times.sublist ?_
    rw [← confirming.ticks]
    refine List.Sublist.append_right ?_ [t]
    unfold tracked
    split
    · exact List.Sublist.refl _
    · exact List.tail_sublist _
  obtain ⟨last, named⟩ : ∃ last, s.ticks.getLast? = some last := by
    rw [confirming.ticks]
    exact ⟨_, List.getLast?_eq_some_getLast (List.cons_ne_nil _ _)⟩
  exact (confirming.candidates last named).confirm (before last (List.mem_of_getLast? named)).1 times
    fun u member => (before u (among member)).2

theorem Confirming.offer (meets : s.Meets t) :
    Commits (first :: later ++ [t]) t.nowMs (s.context.offered t) := by
  obtain ⟨times, sizes, above⟩ := confirming.listed admits
  obtain ⟨_, e, es, front, minimum, named⟩ := confirming.front admits
  have start : first.nowMs ≤ t.nowMs := (List.pairwise_cons.mp times).1 t (by simp)
  rw [offered_front confirming.since confirming.positive start front]
  cases way : s.raised with
  | true =>
    rw [tracked, way, if_pos rfl, confirming.ticks] at minimum named
    exact commits_minimum minimum named sizes
  | false =>
    rw [tracked, way, if_neg Bool.false_ne_true, confirming.ticks, List.tail_cons] at minimum named
    have named : ∃ u ∈ first :: later ++ [t], u.target = e.size := by
      obtain ⟨u, member, target⟩ := named
      exact ⟨u, List.mem_cons_of_mem _ member, target⟩
    have alone : (later ++ [t]).Pairwise fun u v => u.nowMs ≤ v.nowMs := (List.pairwise_cons.mp times).2
    by_cases old : ∃ v ∈ later ++ [t], v.nowMs ≤ t.nowMs - 500
    · -- an old enough update takes the first one out of the window
      obtain ⟨v, member, old⟩ := old
      refine commits_minimum ?_ named sizes
      rw [List.cons_append, IsMinimum, holdWindow_old alone member old]
      exact minimum
    · push Not at old
      have young : ∀ v ∈ (later ++ [t]).tail, t.nowMs - 500 < v.nowMs := fun v inside =>
        old v (List.mem_of_mem_tail inside)
      have whole := holdWindow_young (first :: later ++ [t]) old
      rw [IsMinimum, holdWindow_young _ young] at minimum
      obtain ⟨least, x, inside, area⟩ := minimum
      obtain ⟨v, listed, rfl⟩ := List.mem_map.mp inside
      have lower : first.target.area ≤ e.size.area := area ▸ above v listed
      unfold Meets at meets
      rw [way, confirming.ticks] at meets
      rcases (meets.resolve_left Bool.false_ne_true) first rfl with
        early | ⟨u, member, ancient⟩ | ⟨u, member, level⟩ | ⟨early, u, member, smaller⟩
      · rw [if_neg (by omega)]
        refine commits_none ?_
        rw [due_iff]
        omega
      · exact absurd ancient (not_le.mpr (old u member))
      · -- the first update is as small as the least of the others
        have upper : e.size.area ≤ u.target.area := least u.sample (List.mem_map_of_mem member)
        have same : first.target.area = e.size.area := by omega
        refine commits_minimum ?_ named sizes
        rw [IsMinimum, whole]
        refine ⟨?_, first.sample, List.mem_cons_self, same⟩
        intro y mem
        rcases List.mem_cons.mp mem with rfl | behind
        · exact same.ge
        · exact least y behind
      · have upper : e.size.area ≤ u.target.area := least u.sample (List.mem_map_of_mem member)
        rw [if_neg (by omega)]
        refine commits_none ?_
        rw [due_iff]
        rintro (late | ⟨_, below, _⟩)
        · omega
        · rw [whole] at below
          have below := below u.sample (List.mem_cons_of_mem _ (List.mem_map_of_mem member))
          exact absurd below (not_le.mpr smaller)

end Step

/-! ### A whole run -/

theorem not_due_one (t : Tick) : ¬ Due [t] := by
  rintro ⟨_, head, _, named, due⟩
  have newest : [t].getLast? = some t := rfl
  rw [newest] at named
  cases head
  cases named
  omega

/-- The update that starts a confirmation. -/
theorem confirming_start {c : MappingContext} (starts : c.Starts t) : Confirming (start c t) t [] := by
  have made : (start c t).context = (c.leaveStaticHold t).startPending t := by
    rw [start, MappingContext.mapBandwidth_starts starts]
  refine ⟨rfl, rfl, starts.1, by rw [made]; rfl, by rw [made]; rfl, by rw [made]; rfl,
    List.pairwise_singleton _ _, List.pairwise_singleton _ _, fun _ member => absurd member List.not_mem_nil,
    ?_, ?_⟩
  · intro last _
    rw [made, tracked]
    show Holds (if _ then _ else _) (if (c.leaveStaticHold t).raisingCeiling t then [t] else []) _
    cases (c.leaveStaticHold t).raisingCeiling t with
    | true => exact ⟨[], [t.sample], rfl, rfl, fun empty => absurd empty (List.cons_ne_nil _ _), Or.inl rfl⟩
    | false => exact ⟨[], [], rfl, rfl, fun _ => rfl, Or.inl rfl⟩
  · intro earlier inside
    rcases List.prefix_cons_iff.mp inside with rfl | ⟨rest, rfl, empty⟩
    · rintro ⟨_, head, _⟩
      cases head
    · rw [List.prefix_nil.mp empty]
      exact not_due_one t

theorem tracked_apply (ticks : s.ticks ≠ []) : (s.apply t).tracked = s.tracked ++ [t] := by
  unfold tracked apply
  simp only
  split
  · rfl
  · exact List.tail_append_of_ne_nil ticks

/-- An update that does not commit. -/
theorem Confirming.next (confirming : Confirming s first later) (admits : s.Admits t) (meets : s.Meets t)
    (waits : s.context.offered t = none) : Confirming (s.apply t) first (later ++ [t]) := by
  obtain ⟨times, sizes, above⟩ := confirming.listed admits
  obtain ⟨holds, _⟩ := confirming.front admits
  obtain ⟨commits, goes, _⟩ := MappingContext.mapBandwidth_supports admits.2.1
  have context : (s.apply t).context = s.context.confirmed t := goes waits
  have ticks : (s.apply t).ticks = first :: later ++ [t] := by
    rw [apply, confirming.ticks]
  refine ⟨ticks, commits.trans waits, confirming.positive, ?_, ?_, ?_, times, sizes, above, ?_, ?_⟩
  · rw [context]
    exact confirming.width
  · rw [context]
    exact confirming.height
  · rw [context]
    exact confirming.since
  · intro last named
    rw [ticks, List.getLast?_concat] at named
    cases named
    rw [context, tracked_apply (by rw [confirming.ticks]; exact List.cons_ne_nil _ _)]
    exact holds
  · intro earlier inside
    rw [ticks] at inside
    rcases List.prefix_concat_iff.mp inside with rfl | before
    · exact (confirming.offer admits meets).1 waits
    · exact confirming.waited earlier (by rw [confirming.ticks]; exact before)

theorem Confirming.right (confirming : Confirming s first later) : Right s := by
  obtain ⟨last, named⟩ : ∃ last, s.ticks.getLast? = some last := by
    rw [confirming.ticks]
    exact ⟨_, List.getLast?_eq_some_getLast (List.cons_ne_nil _ _)⟩
  have times : s.tracked.Pairwise fun u v => u.nowMs ≤ v.nowMs := by
    unfold tracked
    rw [confirming.ticks]
    split
    · exact confirming.ordered
    · exact (List.pairwise_cons.mp confirming.ordered).2
  obtain ⟨increasing, ordered⟩ := (confirming.candidates last named).ordered times
  refine ⟨increasing, ordered, fun earlier inside _ => confirming.waited earlier inside, ?_⟩
  intro size committed
  rw [confirming.open_] at committed
  cases committed

/-- An update that commits. -/
theorem Confirming.commit {size : Size} (confirming : Confirming s first later) (admits : s.Admits t)
    (meets : s.Meets t) (offers : s.context.offered t = some size) : Right (s.apply t) := by
  obtain ⟨commits, _, ends⟩ := MappingContext.mapBandwidth_supports admits.2.1
  obtain ⟨due, least⟩ := (confirming.offer admits meets).2 size offers
  have context : (s.apply t).context = (s.context.confirmed t).commit size := ends size offers
  have committed : (s.apply t).committed = some size := commits.trans offers
  have ticks : (s.apply t).ticks = first :: later ++ [t] := by
    rw [apply, confirming.ticks]
  refine ⟨by rw [context]; exact List.Pairwise.nil, by rw [context]; exact List.Pairwise.nil, ?_, ?_⟩
  · intro earlier inside which
    rw [ticks] at inside which
    rcases List.prefix_concat_iff.mp inside with rfl | before
    · rcases which with other | open_
      · exact absurd rfl other
      · rw [committed] at open_
        cases open_
    · exact confirming.waited earlier (by rw [confirming.ticks]; exact before)
  · intro other named
    rw [committed] at named
    cases named
    rw [ticks]
    exact ⟨due, t, List.getLast?_concat, least⟩

/-- What every state of such a run has. -/
def Kept (s : Confirmation) : Prop :=
  s.Right ∧ (s.committed = none → ∃ first later, Confirming s first later)

/-- In a run whose updates all meet the condition, what is committed is the minimum of the window,
at the first update that is due. -/
theorem committed_window_minimum (s : Confirmation)
    (reachable : Runs.Reachable Start
      (Runs.Guarded (fun s t => s.Admits t ∧ s.Meets t) fun s t s' => s.apply t = s') s) :
    s.Right := by
  have held : s.Kept := by
    refine reachable.invariant ?_ ?_
    · rintro _ ⟨c, t, starts, rfl⟩
      exact ⟨(confirming_start starts).right, fun _ => ⟨t, [], confirming_start starts⟩⟩
    · rintro s _ ⟨_, going⟩ ⟨t, ⟨admits, meets⟩, rfl⟩
      obtain ⟨first, later, confirming⟩ := going admits.1
      cases offers : s.context.offered t with
      | none =>
        have next := confirming.next admits meets offers
        exact ⟨next.right, fun _ => ⟨_, _, next⟩⟩
      | some size =>
        refine ⟨confirming.commit admits meets offers, fun empty => ?_⟩
        have committed := (MappingContext.mapBandwidth_supports admits.2.1).1.trans offers
        rw [show (s.apply t).committed = _ from committed] at empty
        cases empty
  exact held.1

def raisingTick (nowMs : Int) : Tick where
  nowMs := nowMs
  target := ⟨1280, 720⟩
  source := ⟨1920, 1080⟩
  contextTargetWidth := some 640
  contextTargetHeight := some 360

theorem committed_window_minimum_constant :
    ((start {} (raisingTick 1000)).apply (raisingTick 3000)).Right :=
  committed_window_minimum _ <|
    (Runs.Reachable.start ⟨{}, raisingTick 1000, by decide, rfl⟩).guarded (raisingTick 3000)
      ⟨by decide, Or.inl rfl⟩ rfl

/-- The first update finds 640x360 under a ceiling of 1920x1080. Then the ceiling falls to 320x180, and
the next update commits the 1280x720 that it has just found. -/
def belowCeilingTick : Tick where
  nowMs := 1000
  target := ⟨640, 360⟩
  source := ⟨1920, 1080⟩

def loweredCeilingTick : Tick where
  nowMs := 3000
  target := ⟨1280, 720⟩
  source := ⟨1920, 1080⟩
  contextTargetWidth := some 320
  contextTargetHeight := some 180

theorem unconfirmed_size_committed : ¬ ∀ s, Runs.Reachable Start
    (Runs.Guarded Admits fun s t s' => s.apply t = s') s → s.Right := by
  intro all
  have started : Runs.Reachable Start (Runs.Guarded Admits fun s t s' => s.apply t = s')
      (start {} belowCeilingTick) := .start ⟨{}, belowCeilingTick, by decide, rfl⟩
  have right := all _ (started.guarded loweredCeilingTick (by decide) rfl)
  obtain ⟨_, last, named, minimum, _⟩ := right.least ⟨1280, 720⟩ (by decide)
  have same : last = loweredCeilingTick := by
    have newest : ((start {} belowCeilingTick).apply loweredCeilingTick).ticks.getLast? =
        some loweredCeilingTick := rfl
    rw [newest] at named
    exact (Option.some.inj named).symm
  rw [same] at minimum
  have low := minimum.1 belowCeilingTick.sample (by decide)
  exact absurd low (by decide)

end Confirmation

end MiniRtc.Transport
