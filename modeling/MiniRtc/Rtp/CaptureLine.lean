import Mathlib.Data.Real.Basic
import MiniRtc.Rtp.CaptureRuns

/-! The reports that an estimate rests on (remote_capture_time_estimator.h), over every run of calls, and what the
estimate is. -/
namespace MiniRtc.RemoteCaptureTimeEstimator

/-! ### The reports that are held -/

/-- Two reports that follow each other agree. -/
structure Consistent (older newer : Sample) : Prop where
  forward : 0 < rtpDelta newer.rtp older.rtp
  later : 0 < older.elapsed newer.remoteUs
  near : older.elapsed newer.remoteUs ≤ kMaxAgeUs
  agree : |(older.elapsed newer.remoteUs : ℚ) - rtpDelta newer.rtp older.rtp * (1000000 / 90000)| ≤ 100000

/-- A report that repeats a clock of the one before it is not taken. -/
def take (taken : List Sample) (r : Sample) : List Sample :=
  if taken.getLast?.any (fun last => last.repeats r.rtp r.remoteUs) then taken else taken ++ [r]

def takenReports (reports : List Sample) : List Sample := reports.foldl take []

/-- The last 20. -/
def window (taken : List Sample) : List Sample := taken.drop (taken.length - 20)

theorem consistent_of_not_breaks {older : Sample} {rtp : BitVec 32} {remoteUs : Int} (arrivalUs : Int)
    (same : older.breaks rtp remoteUs = false) : Consistent older ⟨rtp, remoteUs, arrivalUs⟩ := by
  simp only [Sample.breaks, Sample.drifts, Bool.or_eq_false_iff, decide_eq_false_iff_not, not_le, not_lt] at same
  obtain ⟨⟨⟨forward, later⟩, near⟩, agree⟩ := same
  exact ⟨forward, later, near, agree⟩

theorem getLast?_window (taken : List Sample) : (window taken).getLast? = taken.getLast? := by
  rw [window, List.getLast?_drop]
  split
  · rename_i short
    have empty : taken = [] := List.length_eq_zero_iff.mp (by omega)
    rw [empty, List.getLast?_nil]
  · rfl

theorem pushSample_window (taken : List Sample) (s : Sample) : pushSample (window taken) s = window (taken ++ [s]) := by
  simp only [pushSample, window, List.length_append, List.length_drop, List.length_singleton]
  split
  · rw [← List.drop_append_of_le_length (Nat.sub_le _ _), List.drop_drop]
    congr 1
    omega
  · rw [← List.drop_append_of_le_length (Nat.sub_le _ _)]
    congr 1
    omega

theorem take_repeats {taken : List Sample} {r last : Sample} (newest : taken.getLast? = some last)
    (again : last.repeats r.rtp r.remoteUs = true) : take taken r = taken := by
  rw [take, if_pos (by simp [newest, again])]

theorem take_new {taken : List Sample} {r : Sample}
    (new : ∀ last, taken.getLast? = some last → last.repeats r.rtp r.remoteUs = false) :
    take taken r = taken ++ [r] := by
  rw [take, if_neg]
  rw [Option.any_eq_true]
  rintro ⟨last, newest, again⟩
  rw [new last newest] at again
  cases again

theorem takenReports_concat (reports : List Sample) (r : Sample) :
    takenReports (reports ++ [r]) = take (takenReports reports) r := by
  rw [takenReports, List.foldl_append]
  rfl

theorem takenReports_singleton (r : Sample) : takenReports [r] = [r] := rfl

theorem mem_takenReports {reports : List Sample} {s : Sample} (member : s ∈ takenReports reports) : s ∈ reports := by
  induction reports using List.reverseRecOn with
  | nil => cases member
  | append_singleton reports r ih =>
    rw [takenReports_concat, take] at member
    split at member
    · exact List.mem_append_left _ (ih member)
    · exact List.mem_append.mpr ((List.mem_append.mp member).imp_left ih)

/-- What holds after every run. -/
structure History.Sound (h : History) : Prop where
  held : Held h.accepted h.estimator.offsets
  samples : h.estimator.samples = window (takenReports h.reports)
  consistent : (takenReports h.reports).IsChain Consistent

theorem History.Sound.start : History.Sound {} := ⟨Held.nil, rfl, .nil⟩

theorem Held.goesBack_eq {accepted held : List Offset} (h : Held accepted held) (nowUs : Int) :
    goesBack held nowUs = goesBack accepted nowUs := by
  rw [goesBack, goesBack, h.last]

theorem Held.clockOffset {accepted held : List Offset} (h : Held accepted held) (offsetUs rttUs nowUs : Int) :
    Held ((if goesBack accepted nowUs then [] else accepted) ++ [⟨offsetUs, rttUs, nowUs⟩])
      (dropOffsets nowUs ((if goesBack held nowUs then [] else held) ++ [⟨offsetUs, rttUs, nowUs⟩])) := by
  rw [h.goesBack_eq]
  cases back : goesBack accepted nowUs with
  | true => exact Held.nil.push fun _ none => absurd none (by simp)
  | false =>
    refine h.push fun newest last => ?_
    rw [goesBack, last] at back
    exact not_lt.mp (of_decide_eq_false back)

variable {h : History}

theorem History.Sound.newest (sound : h.Sound) :
    h.estimator.samples.getLast? = (takenReports h.reports).getLast? := by
  rw [sound.samples, getLast?_window]

/-- A report that repeats the last one. -/
theorem History.Sound.repeated (sound : h.Sound) {rtp : BitVec 32} {remoteUs : Int} {last : Sample}
    (newest : h.estimator.samples.getLast? = some last) (again : last.repeats rtp remoteUs = true) (arrivalUs : Int) :
    (h.call (.senderReport rtp remoteUs arrivalUs)).Sound := by
  have stays : h.estimator.updateSenderReport rtp remoteUs arrivalUs = h.estimator := by
    rw [updateSenderReport, newest]
    exact if_pos again
  have goesOn : h.estimator.breaksAt rtp remoteUs = false := by simp [breaksAt, newest, again]
  have agrees : h.estimator.disagreesAt rtp remoteUs = false := by simp [disagreesAt, goesOn]
  have same : takenReports (h.reports ++ [⟨rtp, remoteUs, arrivalUs⟩]) = takenReports h.reports := by
    rw [takenReports_concat]
    exact take_repeats (sound.newest.symm.trans newest) again
  constructor
  · change Held (if h.estimator.disagreesAt rtp remoteUs then [] else h.accepted)
      (h.estimator.updateSenderReport rtp remoteUs arrivalUs).offsets
    rw [agrees, stays]
    exact sound.held
  · change (h.estimator.updateSenderReport rtp remoteUs arrivalUs).samples =
      window (takenReports ((if h.estimator.breaksAt rtp remoteUs then [] else h.reports) ++ [_]))
    rw [goesOn, if_neg Bool.false_ne_true, same, stays]
    exact sound.samples
  · change (takenReports ((if h.estimator.breaksAt rtp remoteUs then [] else h.reports) ++ [_])).IsChain Consistent
    rw [goesOn, if_neg Bool.false_ne_true, same]
    exact sound.consistent

/-- A report that starts the samples anew. -/
theorem History.Sound.broken (sound : h.Sound) {rtp : BitVec 32} {remoteUs : Int} {last : Sample}
    (newest : h.estimator.samples.getLast? = some last) (new : last.repeats rtp remoteUs = false)
    (breaks : last.breaks rtp remoteUs = true) (arrivalUs : Int) :
    (h.call (.senderReport rtp remoteUs arrivalUs)).Sound := by
  have update : h.estimator.updateSenderReport rtp remoteUs arrivalUs =
      { samples := [⟨rtp, remoteUs, arrivalUs⟩]
        offsets := if last.disagrees rtp remoteUs then [] else h.estimator.offsets } := by
    rw [updateSenderReport, newest]
    simp [new, breaks, pushSample]
  have anew : h.estimator.breaksAt rtp remoteUs = true := by simp [breaksAt, newest, new, breaks]
  have offsets : h.estimator.disagreesAt rtp remoteUs = last.disagrees rtp remoteUs := by
    simp [disagreesAt, anew, newest]
  constructor
  · change Held (if h.estimator.disagreesAt rtp remoteUs then [] else h.accepted)
      (h.estimator.updateSenderReport rtp remoteUs arrivalUs).offsets
    rw [update, offsets]
    cases last.disagrees rtp remoteUs with
    | true => exact Held.nil
    | false => exact sound.held
  · change (h.estimator.updateSenderReport rtp remoteUs arrivalUs).samples =
      window (takenReports ((if h.estimator.breaksAt rtp remoteUs then [] else h.reports) ++ [_]))
    rw [anew, update]
    rfl
  · change (takenReports ((if h.estimator.breaksAt rtp remoteUs then [] else h.reports) ++ [_])).IsChain Consistent
    rw [anew]
    exact List.isChain_singleton _

/-- A report that goes on from the last one, or the first. -/
theorem History.Sound.taken (sound : h.Sound) {rtp : BitVec 32} {remoteUs : Int}
    (goesOn : ∀ last, h.estimator.samples.getLast? = some last →
      last.repeats rtp remoteUs = false ∧ last.breaks rtp remoteUs = false) (arrivalUs : Int) :
    (h.call (.senderReport rtp remoteUs arrivalUs)).Sound := by
  have update : h.estimator.updateSenderReport rtp remoteUs arrivalUs =
      { h.estimator with samples := pushSample h.estimator.samples ⟨rtp, remoteUs, arrivalUs⟩ } := by
    rw [updateSenderReport]
    cases newest : h.estimator.samples.getLast? with
    | none => rfl
    | some last =>
      obtain ⟨new, same⟩ := goesOn last newest
      simp [new, same]
  have stays : h.estimator.breaksAt rtp remoteUs = false := by
    cases newest : h.estimator.samples.getLast? with
    | none => simp [breaksAt, newest]
    | some last => simp [breaksAt, newest, (goesOn last newest).2]
  have agrees : h.estimator.disagreesAt rtp remoteUs = false := by simp [disagreesAt, stays]
  have more : takenReports (h.reports ++ [⟨rtp, remoteUs, arrivalUs⟩]) =
      takenReports h.reports ++ [⟨rtp, remoteUs, arrivalUs⟩] := by
    rw [takenReports_concat]
    exact take_new fun last newest => (goesOn last (sound.newest.trans newest)).1
  constructor
  · change Held (if h.estimator.disagreesAt rtp remoteUs then [] else h.accepted)
      (h.estimator.updateSenderReport rtp remoteUs arrivalUs).offsets
    rw [agrees, update]
    exact sound.held
  · change (h.estimator.updateSenderReport rtp remoteUs arrivalUs).samples =
      window (takenReports ((if h.estimator.breaksAt rtp remoteUs then [] else h.reports) ++ [_]))
    rw [stays, if_neg Bool.false_ne_true, more, update, ← pushSample_window, ← sound.samples]
  · change (takenReports ((if h.estimator.breaksAt rtp remoteUs then [] else h.reports) ++ [_])).IsChain Consistent
    rw [stays, if_neg Bool.false_ne_true, more]
    refine List.isChain_append.mpr ⟨sound.consistent, List.isChain_singleton _, fun last newest r first => ?_⟩
    obtain rfl := Option.mem_some_iff.mp first
    exact consistent_of_not_breaks arrivalUs (goesOn last (sound.newest.trans newest)).2

theorem History.Sound.call (sound : h.Sound) (c : Call) : (h.call c).Sound := by
  cases c with
  | reset => exact .start
  | resetClockOffset => exact ⟨Held.nil, sound.samples, sound.consistent⟩
  | clockOffset offsetUs rttUs nowUs =>
    refine ⟨?_, ?_, sound.consistent⟩
    · change Held (if refusesOffset rttUs then h.accepted else _)
        (h.estimator.updateClockOffset offsetUs rttUs nowUs).offsets
      rw [updateClockOffset]
      split
      · exact sound.held
      · exact sound.held.clockOffset offsetUs rttUs nowUs
    · change (h.estimator.updateClockOffset offsetUs rttUs nowUs).samples = _
      rw [updateClockOffset]
      split <;> exact sound.samples
  | senderReport rtp remoteUs arrivalUs =>
    cases newest : h.estimator.samples.getLast? with
    | none => exact sound.taken (fun last some => by rw [newest] at some; cases some) arrivalUs
    | some last =>
      cases again : last.repeats rtp remoteUs with
      | true => exact sound.repeated newest again arrivalUs
      | false =>
        cases breaks : last.breaks rtp remoteUs with
        | true => exact sound.broken newest again breaks arrivalUs
        | false =>
          refine sound.taken (fun other some => ?_) arrivalUs
          obtain rfl := Option.some.inj (newest.symm.trans some)
          exact ⟨again, breaks⟩

theorem history_sound (calls : List Call) : (history calls).Sound := by
  induction calls using List.reverseRecOn with
  | nil => exact .start
  | append_singleton calls c ih =>
    rw [history, List.foldl_append]
    exact ih.call c

theorem history_estimator (calls : List Call) : (history calls).estimator = run calls := by
  induction calls using List.reverseRecOn with
  | nil => rfl
  | append_singleton calls c ih =>
    rw [history, run, List.foldl_append, List.foldl_append]
    exact congrArg (fun e => call e c) ih

/-! ### An estimate -/

theorem llround_error (x : ℚ) : |(llround x : ℚ) - x| ≤ 1 / 2 := by
  rw [llround]
  split
  · exact Binary32.llround_error x
  · have error := Binary32.llround_error (-x)
    rw [sub_neg_eq_add] at error
    rw [Int.cast_neg, ← neg_add', abs_neg]
    exact error

/-- What a value is computed from, and what was checked. -/
structure Estimated (e : RemoteCaptureTimeEstimator) (rtp : BitVec 32) (nowUs value : Int) (anchor : Sample)
    (best : Offset) : Prop where
  newest : e.samples.getLast? = some anchor
  enough : 3 ≤ e.samples.length
  chosen : bestOffset nowUs e.offsets none = some best
  spread : LeastSquares.variance (ticks anchor) e.samples ≠ 0
  eq : value = anchor.remoteUs + best.offsetUs + llround (fitted e.samples anchor rtp)
  positive : 0 < value
  past : value ≤ nowUs
  young : nowUs - value ≤ kMaxAgeUs

theorem estimate_spec {e : RemoteCaptureTimeEstimator} {rtp : BitVec 32} {nowUs value : Int}
    (given : e.estimate rtp nowUs = some value) : ∃ anchor best, Estimated e rtp nowUs value anchor best := by
  rw [estimate] at given
  split at given
  · cases given
  · rename_i anchor newest
    split at given
    · cases given
    · rename_i some
      split at given
      · cases given
      · rename_i best chosen
        split at given
        · cases given
        · rename_i spread
          dsimp only at given
          split at given
          · cases given
          · split at given
            · cases given
            · rename_i range
              obtain rfl := Option.some.inj given
              rw [not_or, not_or, not_le, not_lt, not_lt] at range
              exact ⟨anchor, best, newest, by omega, chosen, spread, rfl, range.1, range.2.1, range.2.2⟩

/-! ### Reports on a line -/

/-- The report lies on the line, its timestamp being the rest of a count of ticks. -/
def OnLine (c s : ℝ) (r : Sample) : Prop :=
  ∃ ticks : ℤ, r.rtp = BitVec.ofInt 32 ticks ∧ (r.remoteUs : ℝ) = c + s * ticks

theorem rtpDelta_eq (a b : BitVec 32) : rtpDelta a b = (a - b).toInt := by
  rw [rtpDelta, BitVec.toInt_eq_toNat_cond]
  split <;> split <;> omega

/-- Two timestamps less than half the range apart. -/
theorem rtpDelta_ofInt {t u : ℤ} (low : -2 ^ 31 ≤ t - u) (high : t - u < 2 ^ 31) :
    rtpDelta (BitVec.ofInt 32 t) (BitVec.ofInt 32 u) = t - u := by
  rw [rtpDelta_eq, BitVec.toInt_sub, BitVec.toInt_ofInt, BitVec.toInt_ofInt, Int.bmod_sub_bmod, Int.sub_bmod_bmod]
  exact Int.bmod_eq_of_le (by omega) (by omega)

/-- The timestamp, unwrapped around the count `u` of another. -/
theorem ofInt_unwrapped (rtp : BitVec 32) (u : ℤ) :
    BitVec.ofInt 32 (u + rtpDelta rtp (BitVec.ofInt 32 u)) = rtp := by
  rw [rtpDelta_eq, BitVec.ofInt_add, BitVec.ofInt_toInt]
  exact add_sub_cancel _ _

theorem rtpDelta_bounds (a b : BitVec 32) : -2 ^ 31 ≤ rtpDelta a b ∧ rtpDelta a b < 2 ^ 31 := by
  rw [rtpDelta]
  split <;> omega

/-- No other count of the same timestamp is nearer. -/
theorem unwrapped_nearest {rtp : BitVec 32} {u t : ℤ} (same : BitVec.ofInt 32 t = rtp) :
    |rtpDelta rtp (BitVec.ofInt 32 u)| ≤ |t - u| := by
  obtain ⟨low, high⟩ := rtpDelta_bounds rtp (BitVec.ofInt 32 u)
  have wrapped : rtpDelta rtp (BitVec.ofInt 32 u) = (t - u).bmod (2 ^ 32) := by
    rw [← same, rtpDelta_eq, BitVec.toInt_sub, BitVec.toInt_ofInt, BitVec.toInt_ofInt, Int.bmod_sub_bmod,
      Int.sub_bmod_bmod]
  have turns := Int.bmod_add_bdiv (t - u) (2 ^ 32)
  rw [← wrapped] at turns
  generalize (t - u).bdiv (2 ^ 32) = k at turns
  rw [abs_le, ← turns]
  rcases lt_trichotomy k 0 with less | rfl | more
  · rw [abs_of_neg (by omega)]
    omega
  · simpa using abs_le.mp le_rfl
  · rw [abs_of_pos (by omega)]
    omega

/-- Between the first and the last of consistent reports lie five seconds for each. -/
theorem span {samples : List Sample} {anchor : Sample} (chain : samples.IsChain Consistent)
    (newest : samples.getLast? = some anchor) {r : Sample} (member : r ∈ samples) :
    r.remoteUs ≤ anchor.remoteUs ∧ anchor.remoteUs - r.remoteUs ≤ kMaxAgeUs * (samples.length - 1) := by
  induction samples generalizing r with
  | nil => cases member
  | cons first rest ih =>
    cases rest with
    | nil =>
      obtain rfl := Option.some.inj newest
      obtain rfl := List.mem_singleton.mp member
      simp
    | cons second rest =>
      obtain ⟨follows, chain⟩ := List.isChain_cons_cons.mp chain
      have after := fun r member => @ih chain newest r member
      have later := follows.later
      have near := follows.near
      simp only [Sample.elapsed, kMaxAgeUs] at later near
      simp only [List.length_cons, kMaxAgeUs, Nat.cast_add, Nat.cast_one] at after ⊢
      rcases List.mem_cons.mp member with rfl | there
      · have := after second (List.mem_cons_self)
        omega
      · have := after r there
        omega

/-- A report on the line not long before another one. -/
theorem counts_near {c s : ℝ} (steep : 11 ≤ s) {t u : ℤ} {early late : Int} (order : early ≤ late)
    (near : late - early ≤ 100000000) (first : (early : ℝ) = c + s * t) (second : (late : ℝ) = c + s * u) :
    0 ≤ u - t ∧ u - t < 2 ^ 31 := by
  have rise : s * ((u - t : ℤ) : ℝ) = ((late - early : ℤ) : ℝ) := by
    push_cast
    rw [first, second]
    ring
  have order : (0 : ℝ) ≤ ((late - early : ℤ) : ℝ) := by exact_mod_cast sub_nonneg.mpr order
  have near : ((late - early : ℤ) : ℝ) ≤ 100000000 := by exact_mod_cast near
  have forward : (0 : ℝ) ≤ ((u - t : ℤ) : ℝ) := by
    by_contra back
    have := mul_neg_of_pos_of_neg (by linarith : 0 < s) (not_le.mp back)
    linarith
  have short : ((u - t : ℤ) : ℝ) < 2 ^ 31 := by
    have := mul_le_mul_of_nonneg_right steep forward
    have limit : (2 : ℝ) ^ 31 = 2147483648 := by norm_num
    linarith
  exact ⟨by exact_mod_cast forward, by exact_mod_cast short⟩

variable {samples : List Sample} {anchor : Sample} {c s : ℝ} {u : ℤ}

/-- The differences that enter the fit lie on a line through the last report. -/
theorem ticks_line (chain : samples.IsChain Consistent) (few : samples.length ≤ 20)
    (newest : samples.getLast? = some anchor) (steep : 11 ≤ s) (stamp : anchor.rtp = BitVec.ofInt 32 u)
    (clock : (anchor.remoteUs : ℝ) = c + s * u) {r : Sample} (member : r ∈ samples) (line : OnLine c s r) :
    ((remote anchor r : ℚ) : ℝ) = s * ((ticks anchor r : ℚ) : ℝ) := by
  obtain ⟨t, here, at_⟩ := line
  obtain ⟨order, near⟩ := span chain newest member
  simp only [kMaxAgeUs] at near
  obtain ⟨back, short⟩ := counts_near steep order (by omega) at_ clock
  have count : rtpDelta r.rtp anchor.rtp = t - u := by
    rw [here, stamp]
    exact rtpDelta_ofInt (by omega) (by omega)
  rw [remote, ticks, count]
  push_cast
  rw [at_, clock]
  ring

/-- The fit of reports on a line is the line. -/
theorem fitted_line (chain : samples.IsChain Consistent) (few : samples.length ≤ 20)
    (newest : samples.getLast? = some anchor) (steep : 11 ≤ s) (stamp : anchor.rtp = BitVec.ofInt 32 u)
    (clock : (anchor.remoteUs : ℝ) = c + s * u) (line : ∀ r ∈ samples, OnLine c s r)
    (spread : LeastSquares.variance (ticks anchor) samples ≠ 0) (rtp : BitVec 32) :
    ((fitted samples anchor rtp : ℚ) : ℝ) = s * rtpDelta rtp anchor.rtp := by
  have differences := fun r member => ticks_line chain few newest steep stamp clock (r := r) member (line r member)
  obtain ⟨r, member, apart⟩ : ∃ r ∈ samples, ticks anchor r ≠ 0 := by
    by_contra none
    push Not at none
    exact spread (LeastSquares.variance_const none)
  -- The slope is a rational number, since the clocks are whole.
  obtain ⟨q, rfl⟩ : ∃ q : ℚ, (q : ℝ) = s := by
    refine ⟨remote anchor r / ticks anchor r, ?_⟩
    have apart' : ((ticks anchor r : ℚ) : ℝ) ≠ 0 := by exact_mod_cast apart
    rw [Rat.cast_div, differences r member, mul_div_cancel_right₀ _ apart']
  have points : ∀ r ∈ samples, remote anchor r = 0 + q * ticks anchor r := by
    intro r member
    rw [zero_add]
    exact_mod_cast differences r member
  rw [fitted, LeastSquares.predict_line spread points, zero_add]
  push_cast
  rfl

/-! ### Every run -/

/-- Of the last eight accepted offsets the ones that are not older than five seconds. -/
def recent (accepted : List Offset) (nowUs : Int) : List Offset :=
  (accepted.drop (accepted.length - 8)).filter fun o => nowUs - o.timeUs ≤ kMaxAgeUs

/-- The offsets that are used, when the newest is not later than the time. -/
theorem Held.usable_recent {accepted held : List Offset} (h : Held accepted held) {nowUs : Int}
    (past : ∀ newest, accepted.getLast? = some newest → newest.timeUs ≤ nowUs) :
    usable accepted nowUs = recent accepted nowUs := by
  refine List.filter_congr fun o member => ?_
  have there := List.mem_of_mem_drop member
  cases last : accepted.getLast? with
  | none =>
    rw [List.getLast?_eq_none_iff.mp last] at there
    cases there
  | some newest =>
    have := le_newest h.ordered last there
    have := past newest last
    rw [Bool.eq_iff_iff]
    simp [aged, last]
    omega

/-- A value lies in the past and is young. It rests on reports that follow each other and agree, and on the newest of
the least delayed offsets that may be used. For reports on a line it is the line's value at the timestamp, taken
nearest to the last report, and the offset, to a microsecond. The wrap of the timestamps does not show. -/
theorem capture_time_estimates (calls : List Call) (rtp : BitVec 32) (nowUs : Int) :
    (∀ value, (run calls).estimate rtp nowUs = some value →
      (0 < value ∧ value ≤ nowUs ∧ nowUs - value ≤ kMaxAgeUs) ∧
      (run calls).samples = window (takenReports (history calls).reports) ∧ 3 ≤ (run calls).samples.length ∧
      (run calls).samples.IsChain Consistent ∧
      ∃ anchor best, (run calls).samples.getLast? = some anchor ∧
        NewestLeast (usable (history calls).accepted nowUs) best ∧
        ((∀ newest, (history calls).accepted.getLast? = some newest → newest.timeUs ≤ nowUs) →
          NewestLeast (recent (history calls).accepted nowUs) best) ∧
        value = anchor.remoteUs + best.offsetUs + llround (fitted (run calls).samples anchor rtp) ∧
        ∀ c s : ℝ, 11 ≤ s → s ≤ 11.23 → (∀ r ∈ (history calls).reports, OnLine c s r) →
          ∃ u t : ℤ, (anchor.rtp = BitVec.ofInt 32 u ∧ (anchor.remoteUs : ℝ) = c + s * u) ∧
            (BitVec.ofInt 32 t = rtp ∧ ∀ t', BitVec.ofInt 32 t' = rtp → |t - u| ≤ |t' - u|) ∧
            |(value : ℝ) - (c + s * t + best.offsetUs)| ≤ 1 / 2) ∧
    ∀ k : BitVec 32, (run (calls.map (Call.shift k))).estimate (rtp + k) nowUs = (run calls).estimate rtp nowUs := by
  constructor
  · intro value given
    obtain ⟨anchor, best, e⟩ := estimate_spec given
    have sound := history_sound calls
    have held := sound.held
    have samples := sound.samples
    rw [history_estimator] at held samples
    have chain : (run calls).samples.IsChain Consistent := by
      rw [samples]
      exact sound.consistent.drop _
    have least := bestOffset_least e.chosen
    rw [← held.usable_eq] at least
    refine ⟨⟨e.positive, e.past, e.young⟩, samples, e.enough, chain, anchor, best, e.newest, least,
      fun past => held.usable_recent past ▸ least, e.eq, fun c s steep _ line => ?_⟩
    have few : (run calls).samples.length ≤ 20 := by
      rw [samples, window, List.length_drop]
      omega
    have lines : ∀ r ∈ (run calls).samples, OnLine c s r := by
      intro r member
      rw [samples] at member
      exact line r (mem_takenReports (List.mem_of_mem_drop member))
    obtain ⟨u, stamp, clock⟩ := lines anchor (List.mem_of_getLast? e.newest)
    refine ⟨u, u + rtpDelta rtp anchor.rtp, ⟨stamp, clock⟩, ⟨?_, fun t' same => ?_⟩, ?_⟩
    · rw [stamp]
      exact ofInt_unwrapped rtp u
    · rw [add_sub_cancel_left, stamp]
      exact unwrapped_nearest same
    · have fit := fitted_line chain few e.newest steep stamp clock lines e.spread rtp
      have error : |((llround (fitted (run calls).samples anchor rtp) : ℤ) : ℝ) -
          ((fitted (run calls).samples anchor rtp : ℚ) : ℝ)| ≤ 1 / 2 := by
        have real := Rat.cast_le (K := ℝ) |>.mpr (llround_error (fitted (run calls).samples anchor rtp))
        push_cast at real
        exact real
      convert error using 2
      rw [e.eq, fit]
      push_cast
      rw [clock]
      ring
  · intro k
    rw [run_shift]
    exact estimate_shift k _ rtp nowUs

/-- Three offsets and three reports. -/
def threeExchanges : List Call :=
  [.clockOffset 1000 1000 0, .clockOffset 2000 5000 3000000, .clockOffset 3000 9000 6000000,
    .senderReport 0 1000000 1000000, .senderReport 90000 2000000 2000000, .senderReport 180000 3000000 3000000]

/-- The offset of the least delay is forgotten when a later one is accepted, also for a time before that one. -/
theorem least_offset_forgotten : ∃ calls rtp nowUs value, (run calls).estimate rtp nowUs = some value ∧
    ¬∃ anchor best, (run calls).samples.getLast? = some anchor ∧
      NewestLeast (recent (history calls).accepted nowUs) best ∧
      value = anchor.remoteUs + best.offsetUs + llround (fitted (run calls).samples anchor rtp) := by
  refine ⟨threeExchanges, 180000, 4000000, 3002000, by decide +kernel, ?_⟩
  rintro ⟨anchor, best, newest, chosen, value⟩
  have offsets : recent (history threeExchanges).accepted 4000000 =
      [⟨1000, 1000, 0⟩, ⟨2000, 5000, 3000000⟩, ⟨3000, 9000, 6000000⟩] := by decide +kernel
  rw [offsets] at chosen
  have last : (run threeExchanges).samples.getLast? = some ⟨180000, 3000000, 3000000⟩ := by decide +kernel
  obtain rfl := Option.some.inj (last.symm.trans newest)
  have fit : llround (fitted (run threeExchanges).samples ⟨180000, 3000000, 3000000⟩ 180000) = 0 := by decide +kernel
  rw [fit] at value
  have least := chosen.least (o := ⟨1000, 1000, 0⟩) (by simp)
  obtain ⟨before, after, all, -⟩ := chosen
  have member : best ∈ before ++ best :: after := by simp
  rw [← all] at member
  simp only [List.mem_cons, List.not_mem_nil, or_false] at member
  rcases member with rfl | rfl | rfl <;> simp at least value

end MiniRtc.RemoteCaptureTimeEstimator
