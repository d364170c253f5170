import MiniRtc.Rtp.CaptureTime

/-! Runs of the estimator of capture times (remote_capture_time_estimator.h): which offset an estimate uses, what it is
on reports that lie on a line, and that the wrap of the timestamps does not show. -/
namespace MiniRtc.RemoteCaptureTimeEstimator

inductive Call where
  | clockOffset (offsetUs rttUs nowUs : Int)
  | senderReport (rtp : BitVec 32) (remoteUs arrivalUs : Int)
  | resetClockOffset
  | reset

def call (e : RemoteCaptureTimeEstimator) : Call → RemoteCaptureTimeEstimator
  | .clockOffset offsetUs rttUs nowUs => e.updateClockOffset offsetUs rttUs nowUs
  | .senderReport rtp remoteUs arrivalUs => e.updateSenderReport rtp remoteUs arrivalUs
  | .resetClockOffset => e.resetClockOffset
  | .reset => e.reset

def run (calls : List Call) : RemoteCaptureTimeEstimator := calls.foldl call {}

/-! ### The wrap of the timestamps -/

section Shift

variable (k : BitVec 32)

def Sample.shift (s : Sample) : Sample := { s with rtp := s.rtp + k }

def Call.shift : Call → Call
  | .senderReport rtp remoteUs arrivalUs => .senderReport (rtp + k) remoteUs arrivalUs
  | .clockOffset offsetUs rttUs nowUs => .clockOffset offsetUs rttUs nowUs
  | .resetClockOffset => .resetClockOffset
  | .reset => .reset

def shift (e : RemoteCaptureTimeEstimator) : RemoteCaptureTimeEstimator :=
  { e with samples := e.samples.map (Sample.shift k) }

theorem rtpDelta_shift (a b : BitVec 32) : rtpDelta (a + k) (b + k) = rtpDelta a b := by
  rw [rtpDelta, rtpDelta, add_sub_add_right_eq_sub]

theorem pushSample_shift (samples : List Sample) (s : Sample) :
    pushSample (samples.map (Sample.shift k)) (s.shift k) = (pushSample samples s).map (Sample.shift k) := by
  simp only [pushSample, List.length_append, List.length_map, List.length_singleton]
  split
  · rw [List.map_drop, List.map_append, List.map_singleton]
  · rw [List.map_append, List.map_singleton]

theorem repeats_shift (last : Sample) (rtp : BitVec 32) (remoteUs : Int) :
    (last.shift k).repeats (rtp + k) remoteUs = last.repeats rtp remoteUs := by
  rw [Bool.eq_iff_iff]
  simp only [Sample.repeats, Bool.or_eq_true, decide_eq_true_eq]
  simp only [Sample.shift, add_left_inj]

theorem drifts_shift (last : Sample) (rtp : BitVec 32) (remoteUs : Int) :
    (last.shift k).drifts (rtp + k) remoteUs = last.drifts rtp remoteUs := by
  rw [Bool.eq_iff_iff]
  simp only [Sample.drifts, decide_eq_true_eq]
  simp only [Sample.shift, Sample.elapsed, rtpDelta_shift]

theorem breaks_shift (last : Sample) (rtp : BitVec 32) (remoteUs : Int) :
    (last.shift k).breaks (rtp + k) remoteUs = last.breaks rtp remoteUs := by
  rw [Bool.eq_iff_iff, Sample.breaks, Sample.breaks, drifts_shift]
  simp only [Bool.or_eq_true, decide_eq_true_eq]
  simp only [Sample.shift, Sample.elapsed, rtpDelta_shift]

theorem updateSenderReport_shift (e : RemoteCaptureTimeEstimator) (rtp : BitVec 32) (remoteUs arrivalUs : Int) :
    (e.shift k).updateSenderReport (rtp + k) remoteUs arrivalUs =
      (e.updateSenderReport rtp remoteUs arrivalUs).shift k := by
  have pushed : ∀ samples : List Sample,
      pushSample (samples.map (Sample.shift k)) ⟨rtp + k, remoteUs, arrivalUs⟩ =
        (pushSample samples ⟨rtp, remoteUs, arrivalUs⟩).map (Sample.shift k) :=
    fun samples => pushSample_shift k samples ⟨rtp, remoteUs, arrivalUs⟩
  simp only [updateSenderReport, shift, List.getLast?_map]
  cases e.samples.getLast? with
  | none => simp only [Option.map_none, pushed]
  | some last =>
    have disagrees : (last.shift k).disagrees (rtp + k) remoteUs = last.disagrees rtp remoteUs := by
      rw [Sample.disagrees, Sample.disagrees, drifts_shift]
      rfl
    simp only [Option.map_some, repeats_shift, breaks_shift, disagrees]
    split
    · rfl
    · split
      · rw [← pushed, List.map_nil]
      · rw [← pushed]

theorem run_shift (calls : List Call) : run (calls.map (Call.shift k)) = (run calls).shift k := by
  induction calls using List.reverseRecOn with
  | nil => rfl
  | append_singleton calls c ih =>
    rw [run, run, List.map_append, List.foldl_append, List.foldl_append]
    change call (run (calls.map (Call.shift k))) (c.shift k) = (call (run calls) c).shift k
    rw [ih]
    cases c with
    | senderReport rtp remoteUs arrivalUs => exact updateSenderReport_shift k _ rtp remoteUs arrivalUs
    | clockOffset offsetUs rttUs nowUs =>
      simp only [call, Call.shift, updateClockOffset, shift]
      split <;> rfl
    | resetClockOffset => rfl
    | reset => rfl

theorem ticks_shift (anchor s : Sample) : ticks (anchor.shift k) (s.shift k) = ticks anchor s := by
  rw [ticks, ticks]
  exact congrArg _ (rtpDelta_shift k s.rtp anchor.rtp)

theorem mean_shift {f g : Sample → ℚ} (same : ∀ s : Sample, f (s.shift k) = g s) (samples : List Sample) :
    LeastSquares.mean f (samples.map (Sample.shift k)) = LeastSquares.mean g samples := by
  have terms : samples.map (f ∘ Sample.shift k) = samples.map g := List.map_congr_left fun s _ => same s
  rw [LeastSquares.mean, LeastSquares.mean, List.map_map, List.length_map, terms]

theorem covariance_shift {x y x' y' : Sample → ℚ} (first : ∀ s : Sample, x (s.shift k) = x' s)
    (second : ∀ s : Sample, y (s.shift k) = y' s) (samples : List Sample) :
    LeastSquares.covariance x y (samples.map (Sample.shift k)) = LeastSquares.covariance x' y' samples := by
  rw [LeastSquares.covariance, LeastSquares.covariance, mean_shift k first, mean_shift k second, List.map_map]
  congr 1
  refine List.map_congr_left fun s _ => ?_
  rw [Function.comp, first, second]

theorem estimate_shift (e : RemoteCaptureTimeEstimator) (rtp : BitVec 32) (nowUs : Int) :
    (e.shift k).estimate (rtp + k) nowUs = e.estimate rtp nowUs := by
  unfold estimate
  simp only [shift, List.getLast?_map]
  cases e.samples.getLast? with
  | none => rfl
  | some anchor =>
    have remotes : ∀ s : Sample, remote (anchor.shift k) (s.shift k) = remote anchor s := fun _ => rfl
    have variance : LeastSquares.variance (ticks (anchor.shift k)) (e.samples.map (Sample.shift k)) =
        LeastSquares.variance (ticks anchor) e.samples :=
      covariance_shift k (ticks_shift k anchor) (ticks_shift k anchor) e.samples
    have slope : LeastSquares.slope (ticks (anchor.shift k)) (remote (anchor.shift k))
        (e.samples.map (Sample.shift k)) = LeastSquares.slope (ticks anchor) (remote anchor) e.samples := by
      rw [LeastSquares.slope, LeastSquares.slope, variance, covariance_shift k (ticks_shift k anchor) remotes]
    have fit : fitted (e.samples.map (Sample.shift k)) (anchor.shift k) (rtp + k) = fitted e.samples anchor rtp := by
      rw [fitted, fitted, LeastSquares.predict, LeastSquares.predict, slope, mean_shift k remotes,
        mean_shift k (ticks_shift k anchor)]
      exact congrArg _ (congrArg _ (congrArg (· - _) (congrArg _ (rtpDelta_shift k rtp anchor.rtp))))
    simp only [Option.map_some, List.length_map, variance, slope, fit]
    rfl

end Shift

/-! ### The history -/

/-- The estimator, the offsets that were accepted since they were last cleared, and the reports since the samples
were. -/
structure History where
  estimator : RemoteCaptureTimeEstimator := {}
  accepted : List Offset := []
  reports : List Sample := []

/-- A report starts the samples anew, and may clear the offsets. -/
def breaksAt (e : RemoteCaptureTimeEstimator) (rtp : BitVec 32) (remoteUs : Int) : Bool :=
  e.samples.getLast?.any fun last => !last.repeats rtp remoteUs && last.breaks rtp remoteUs

def disagreesAt (e : RemoteCaptureTimeEstimator) (rtp : BitVec 32) (remoteUs : Int) : Bool :=
  e.breaksAt rtp remoteUs && e.samples.getLast?.any fun last => last.disagrees rtp remoteUs

def History.call (h : History) (c : Call) : History where
  estimator := h.estimator.call c
  accepted :=
    match c with
    | .clockOffset offsetUs rttUs nowUs =>
      if refusesOffset rttUs then h.accepted
      else (if goesBack h.accepted nowUs then [] else h.accepted) ++ [⟨offsetUs, rttUs, nowUs⟩]
    | .senderReport rtp remoteUs _ => if h.estimator.disagreesAt rtp remoteUs then [] else h.accepted
    | .resetClockOffset => []
    | .reset => []
  reports :=
    match c with
    | .senderReport rtp remoteUs arrivalUs =>
      (if h.estimator.breaksAt rtp remoteUs then [] else h.reports) ++ [⟨rtp, remoteUs, arrivalUs⟩]
    | .reset => []
    | .clockOffset _ _ _ => h.reports
    | .resetClockOffset => h.reports

def history (calls : List Call) : History := calls.foldl History.call {}

/-! ### The offsets that are held -/

/-- Too old for the newest one. -/
def aged (accepted : List Offset) (o : Offset) : Bool :=
  accepted.getLast?.any fun newest => kMaxAgeUs < newest.timeUs - o.timeUs

/-- The held offsets are the last accepted ones; what is gone has eight behind it, or is too old for the newest. -/
structure Held (accepted held : List Offset) : Prop where
  gone : ∃ gone, accepted = gone ++ held ∧ ∀ before o after, gone = before ++ o :: after →
    8 ≤ (after ++ held).length ∨ aged accepted o
  short : held.length ≤ 8
  fresh : ∀ o ∈ held, aged accepted o = false
  ordered : accepted.Pairwise fun a b => a.timeUs ≤ b.timeUs
  last : held.getLast? = accepted.getLast?

theorem Held.nil : Held [] [] where
  gone := ⟨[], rfl, by simp⟩
  short := Nat.zero_le _
  fresh := by simp
  ordered := .nil
  last := rfl

/-- What is dropped from the front, and what stays. -/
theorem dropOffsets_spec (nowUs : Int) {l : List Offset} (ordered : l.Pairwise fun a b => a.timeUs ≤ b.timeUs) :
    ∃ popped, l = popped ++ dropOffsets nowUs l ∧ (dropOffsets nowUs l).length ≤ 8 ∧
      (∀ o ∈ dropOffsets nowUs l, nowUs - o.timeUs ≤ kMaxAgeUs) ∧
      ∀ before o after, popped = before ++ o :: after →
        8 ≤ (after ++ dropOffsets nowUs l).length ∨ kMaxAgeUs < nowUs - o.timeUs := by
  induction l with
  | nil => exact ⟨[], rfl, Nat.zero_le _, by simp [dropOffsets], by simp⟩
  | cons front rest ih =>
    obtain ⟨first, later⟩ := List.pairwise_cons.mp ordered
    unfold dropOffsets
    split
    · rename_i drops
      obtain ⟨popped, split, short, fresh, gone⟩ := ih later
      refine ⟨front :: popped, congrArg (front :: ·) split, short, fresh, fun before o after eq => ?_⟩
      cases before with
      | nil =>
        cases eq
        refine drops.imp_left fun many => ?_
        rw [← split]
        exact Nat.lt_succ_iff.mp many
      | cons b before =>
        cases eq
        exact gone before o after rfl
    · rename_i stays
      rw [not_or, not_lt, not_lt] at stays
      refine ⟨[], rfl, stays.1, fun o member => ?_, by simp⟩
      rcases List.mem_cons.mp member with rfl | after
      · exact stays.2
      · have := first o after
        have := stays.2
        omega

theorem aged_concat (accepted : List Offset) (new o : Offset) :
    aged (accepted ++ [new]) o = decide (kMaxAgeUs < new.timeUs - o.timeUs) := by
  simp [aged]

theorem le_newest {accepted : List Offset} (ordered : accepted.Pairwise fun a b => a.timeUs ≤ b.timeUs)
    {newest : Offset} (last : accepted.getLast? = some newest) {o : Offset} (member : o ∈ accepted) :
    o.timeUs ≤ newest.timeUs := by
  obtain ⟨init, rfl⟩ := List.getLast?_eq_some_iff.mp last
  rcases List.mem_append.mp member with earlier | here
  · exact (List.pairwise_append.mp ordered).2.2 o earlier newest (List.mem_singleton_self _)
  · rw [List.mem_singleton.mp here]

/-- A new offset, not before the newest one. -/
theorem Held.push {accepted held : List Offset} (h : Held accepted held) {new : Offset}
    (later : ∀ newest, accepted.getLast? = some newest → newest.timeUs ≤ new.timeUs) :
    Held (accepted ++ [new]) (dropOffsets new.timeUs (held ++ [new])) := by
  obtain ⟨gone, split, went⟩ := h.gone
  have all : ∀ o ∈ accepted, o.timeUs ≤ new.timeUs := by
    intro o member
    cases last : accepted.getLast? with
    | none =>
      rw [List.getLast?_eq_none_iff.mp last] at member
      cases member
    | some newest => exact (le_newest h.ordered last member).trans (later newest last)
  have ordered : (accepted ++ [new]).Pairwise fun a b => a.timeUs ≤ b.timeUs := by
    refine List.pairwise_append.mpr ⟨h.ordered, List.pairwise_singleton _ _, fun o member n there => ?_⟩
    rw [List.mem_singleton.mp there]
    exact all o member
  have suffix : (held ++ [new]).Sublist (accepted ++ [new]) := by
    rw [split, List.append_assoc]
    exact List.sublist_append_right _ _
  obtain ⟨popped, parts, short, fresh, drops⟩ := dropOffsets_spec new.timeUs (ordered.sublist suffix)
  generalize dropOffsets new.timeUs (held ++ [new]) = rest at *
  have lengths := congrArg List.length parts
  simp only [List.length_append, List.length_singleton] at lengths
  refine ⟨⟨gone ++ popped, ?_, fun before o after eq => ?_⟩, short, fun o member => ?_, ordered, ?_⟩
  · rw [split, List.append_assoc, parts, List.append_assoc]
  · rw [aged_concat]
    rcases List.append_eq_append_iff.mp eq with ⟨behind, -, here⟩ | ⟨behind, here, there⟩
    · exact (drops behind o after here).imp_right decide_eq_true
    · cases behind with
      | nil => exact (drops [] o after there.symm).imp_right decide_eq_true
      | cons o' behind =>
        obtain ⟨rfl, rfl⟩ := List.cons.inj there
        rcases went before o behind here with many | old
        · left
          change 8 ≤ (behind ++ popped ++ rest).length
          simp only [List.length_append] at many ⊢
          omega
        · right
          rw [aged, Option.any_eq_true] at old
          obtain ⟨newest, last, age⟩ := old
          have := of_decide_eq_true age
          have := later newest last
          exact decide_eq_true (by omega)
  · rw [aged_concat]
    have := fresh o member
    exact decide_eq_false (by omega)
  · cases rest with
    | nil =>
      rw [List.append_nil] at parts
      have dropped := drops held new [] parts.symm
      simp [kMaxAgeUs] at dropped
    | cons o rest =>
      have last := congrArg List.getLast? parts
      rw [List.getLast?_concat, List.getLast?_append_of_ne_nil _ (List.cons_ne_nil _ _)] at last
      rw [← last, List.getLast?_concat]

/-- What an estimate may use: of the last eight accepted offsets the ones that are not too old for the newest, not later
than the time and not too old for it. -/
def usable (accepted : List Offset) (nowUs : Int) : List Offset :=
  (accepted.drop (accepted.length - 8)).filter fun o =>
    !aged accepted o && o.timeUs ≤ nowUs && nowUs - o.timeUs ≤ kMaxAgeUs

theorem Held.usable_eq {accepted held : List Offset} (h : Held accepted held) (nowUs : Int) :
    usable accepted nowUs = held.filter fun o => o.timeUs ≤ nowUs && nowUs - o.timeUs ≤ kMaxAgeUs := by
  obtain ⟨gone, split, went⟩ := h.gone
  have short := h.short
  have lengths := congrArg List.length split
  rw [List.length_append] at lengths
  have drop : accepted.drop (accepted.length - 8) = gone.drop (accepted.length - 8) ++ held := by
    conv_lhs => rw [split]
    rw [List.drop_append_of_le_length (by simp only [List.length_append]; omega), ← split]
  have none : (gone.drop (accepted.length - 8)).filter
      (fun o => !aged accepted o && o.timeUs ≤ nowUs && nowUs - o.timeUs ≤ kMaxAgeUs) = [] := by
    refine List.filter_eq_nil_iff.mpr fun o member => ?_
    obtain ⟨before, after, here⟩ := List.append_of_mem member
    have place : gone = gone.take (accepted.length - 8) ++ before ++ o :: after := by
      rw [List.append_assoc, ← here, List.take_append_drop]
    have count := congrArg List.length here
    simp only [List.length_drop, List.length_append, List.length_cons] at count
    rcases went _ o after place with many | old
    · rw [List.length_append] at many
      omega
    · simp [old]
  rw [usable, drop, List.filter_append, none, List.nil_append]
  refine List.filter_congr fun o member => ?_
  rw [h.fresh o member]
  rfl

/-! ### The offset that is used -/

/-- The newest one of the least round trip time. -/
def NewestLeast (offsets : List Offset) (best : Offset) : Prop :=
  ∃ before after, offsets = before ++ best :: after ∧ (∀ o ∈ before, best.rttUs ≤ o.rttUs) ∧
    ∀ o ∈ after, best.rttUs < o.rttUs

theorem NewestLeast.least {offsets : List Offset} {best : Offset} (h : NewestLeast offsets best) {o : Offset}
    (member : o ∈ offsets) : best.rttUs ≤ o.rttUs := by
  obtain ⟨before, after, rfl, earlier, later⟩ := h
  rcases List.mem_append.mp member with first | rest
  · exact earlier o first
  · rcases List.mem_cons.mp rest with rfl | last
    · exact le_rfl
    · exact (later o last).le

theorem NewestLeast.concat {offsets : List Offset} {best : Offset} (h : NewestLeast offsets best) (o : Offset) :
    NewestLeast (offsets ++ [o]) (if o.rttUs ≤ best.rttUs then o else best) := by
  split
  · rename_i less
    exact ⟨offsets, [], rfl, fun p member => less.trans (h.least member), by simp⟩
  · rename_i more
    obtain ⟨before, after, rfl, earlier, later⟩ := h
    refine ⟨before, after ++ [o], by simp, earlier, fun p member => ?_⟩
    rcases List.mem_append.mp member with there | new
    · exact later p there
    · rw [List.mem_singleton.mp new]
      exact not_le.mp more

/-- The loop, after some offsets were seen of which one is the best. -/
theorem bestOffset_from {nowUs : Int} (l : List Offset) {seen : List Offset} {best : Offset}
    (h : NewestLeast seen best) : ∃ last, bestOffset nowUs l (some best) = some last ∧
      NewestLeast (seen ++ l.filter fun o => o.timeUs ≤ nowUs && nowUs - o.timeUs ≤ kMaxAgeUs) last := by
  induction l generalizing seen best with
  | nil => exact ⟨best, rfl, by simpa using h⟩
  | cons o l ih =>
    rw [bestOffset]
    by_cases out : nowUs < o.timeUs ∨ kMaxAgeUs < nowUs - o.timeUs
    · rw [if_pos out, List.filter_cons_of_neg (by simp; omega)]
      exact ih h
    · rw [if_neg out, List.filter_cons_of_pos (by simp; omega)]
      have next := h.concat o
      split at next
      · rename_i less
        simp only [if_pos less]
        obtain ⟨last, found, least⟩ := ih next
        exact ⟨last, found, by simpa using least⟩
      · rename_i more
        simp only [if_neg more]
        obtain ⟨last, found, least⟩ := ih next
        exact ⟨last, found, by simpa using least⟩

theorem bestOffset_least {nowUs : Int} {l : List Offset} {best : Offset}
    (found : bestOffset nowUs l none = some best) :
    NewestLeast (l.filter fun o => o.timeUs ≤ nowUs && nowUs - o.timeUs ≤ kMaxAgeUs) best := by
  induction l with
  | nil => cases found
  | cons o l ih =>
    rw [bestOffset] at found
    by_cases out : nowUs < o.timeUs ∨ kMaxAgeUs < nowUs - o.timeUs
    · rw [if_pos out] at found
      rw [List.filter_cons_of_neg (by simp; omega)]
      exact ih found
    · rw [if_neg out] at found
      rw [List.filter_cons_of_pos (by simp; omega)]
      obtain ⟨last, here, least⟩ := bestOffset_from l (show NewestLeast [o] o from ⟨[], [], rfl, by simp, by simp⟩)
      rw [here] at found
      cases found
      exact least

end MiniRtc.RemoteCaptureTimeEstimator
