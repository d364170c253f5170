import MiniRtc.Web.QosController
import MiniRtc.Web.RtcpEntries

/-! Runs of a browser's RTCP (web_media_handler.cpp): the rates of its estimates, and what its reports of loss add
up to. -/
namespace MiniRtc.Web
open Wire WebMediaHandler

/-! ### Estimates -/

theorem estimateMantissa_lt (octets : Bytes) : estimateMantissa octets < 2 ^ 18 := by
  have high : (byteAt octets 5 &&& 3).toNat ≤ 3 := by
    rw [BitVec.toNat_and]
    exact Nat.and_le_right
  have low := (get16 octets 6).isLt
  rw [estimateMantissa, or_shift_sixteen low]
  omega

/-- The rate is exact up to the largest one; only for a mantissa of zero a large exponent gives a rate. -/
theorem estimateBps_eq_iff {exponent mantissa : Nat} (small : mantissa < 2 ^ 18) :
    estimateBps exponent mantissa = ((min (mantissa * 2 ^ exponent) (2 ^ 31 - 1) : Nat) : Int) ↔
      mantissa ≠ 0 ∨ exponent < 32 := by
  by_cases large : 32 ≤ exponent
  · have rate : estimateBps exponent mantissa = 2 ^ 31 - 1 := by
      rw [estimateBps, if_pos large]
      rfl
    rw [rate]
    rcases Nat.eq_zero_or_pos mantissa with rfl | positive
    · simp [large]
    · have product : 2 ^ 32 ≤ mantissa * 2 ^ exponent :=
        (Nat.pow_le_pow_right (by decide) large).trans (Nat.le_mul_of_pos_left _ positive)
      rw [min_eq_right (by omega)]
      exact ⟨fun _ => .inl (by omega), fun _ => rfl⟩
  · have shifted : mantissa * 2 ^ exponent < 2 ^ 64 := by
      have factor : 2 ^ exponent ≤ 2 ^ 31 := Nat.pow_le_pow_right (by decide) (by omega)
      have product := Nat.mul_le_mul small.le factor
      omega
    have rate : estimateBps exponent mantissa = ((min (mantissa * 2 ^ exponent) (2 ^ 31 - 1) : Nat) : Int) := by
      have whole : mantissa % 2 ^ 64 = mantissa := Nat.mod_eq_of_lt (by omega)
      rw [estimateBps, if_neg large, BitVec.toNat_shiftLeft, BitVec.toNat_ofNat, whole, Nat.shiftLeft_eq,
        Nat.mod_eq_of_lt shifted]
      push_cast
      rfl
    rw [rate]
    exact ⟨fun _ => .inr (by omega), fun _ => rfl⟩

def ratesOf (effects : List RtcpEffect) : List Int :=
  effects.filterMap fun
    | .onReceiverEstimate bitrateBps => some bitrateBps
    | _ => none

/-- The estimates for a stream that is there, with exponent and mantissa. -/
def RtcpEntry.estimated (streams : StreamTable) : RtcpEntry → List (Nat × Nat)
  | .estimate octets =>
    if relevant streams octets then [(estimateExponent octets, estimateMantissa octets)] else []
  | .report _ => []
  | .keyframe _ => []
  | .repair _ _ => []

def estimatesOf (streams : StreamTable) (p : Bytes) : List (Nat × Nat) :=
  (rtcpEntries p).flatMap (RtcpEntry.estimated streams)

/-- The rate that an estimate means. -/
def meantBps (estimate : Nat × Nat) : Int := (min (estimate.2 * 2 ^ estimate.1) (2 ^ 31 - 1) : Nat)

theorem estimatesOf_small {streams : StreamTable} {p : Bytes} {estimate : Nat × Nat}
    (member : estimate ∈ estimatesOf streams p) : estimate.2 < 2 ^ 18 := by
  obtain ⟨entry, -, here⟩ := List.mem_flatMap.mp member
  cases entry with
  | estimate octets =>
    rw [RtcpEntry.estimated] at here
    split at here
    · rw [List.mem_singleton.mp here]
      exact estimateMantissa_lt octets
    · cases here
  | report octets => cases here
  | keyframe octets => cases here
  | repair media item => cases here

theorem report_effects (s : Handled) (ssrc : BitVec 32) (stream : StreamReports) (sequence : BitVec 32)
    (lost rttMs : Int) : (s.report ssrc stream sequence lost rttMs).effects =
      s.effects ++ stream.calls ssrc sequence lost rttMs ++
        if stream.hasReport = false ∨ stream.inOrder sequence then [.reported ssrc sequence lost] else [] := by
  unfold Handled.report
  dsimp only
  split
  · rfl
  · simp [Handled.add]

theorem report_isSome {s : Handled} {ssrc : BitVec 32} {stream : StreamReports} (known : s.streams ssrc = some stream)
    (sequence : BitVec 32) (lost rttMs : Int) (other : BitVec 32) :
    ((s.report ssrc stream sequence lost rttMs).streams other).isSome = (s.streams other).isSome := by
  unfold Handled.report
  dsimp only
  split
  · by_cases same : other = ssrc
    · subst same
      simp [Handled.add, known]
    · simp [Handled.add, same]
  · rfl

theorem ratesOf_append (first second : List RtcpEffect) : ratesOf (first ++ second) = ratesOf first ++ ratesOf second :=
  List.filterMap_append

theorem ratesOf_calls (stream : StreamReports) (ssrc sequence : BitVec 32) (lost rttMs : Int) :
    ratesOf (stream.calls ssrc sequence lost rttMs) = [] := by
  unfold StreamReports.calls
  split_ifs <;> rfl

theorem ratesOf_act (actions : List RtcpAction) : ratesOf (actions.map .act) = [] := by
  simp [ratesOf]

section

variable (nowMs : Int) (s : Handled) (entry : RtcpEntry)

/-- No entry adds or removes a stream. -/
theorem apply_isSome (ssrc : BitVec 32) : ((entry.apply nowMs s).streams ssrc).isSome = (s.streams ssrc).isSome := by
  cases entry with
  | report octets =>
    rw [RtcpEntry.apply]
    split
    · rfl
    · rename_i stream known
      exact report_isSome known _ _ _ _
  | estimate octets =>
    rw [RtcpEntry.apply]
    split <;> rfl
  | keyframe octets =>
    rw [RtcpEntry.apply, Handled.keyframe]
    split <;> rfl
  | repair media item =>
    rw [RtcpEntry.apply]
    split <;> rfl

theorem apply_estimated (later : RtcpEntry) :
    later.estimated (entry.apply nowMs s).streams = later.estimated s.streams := by
  cases later with
  | estimate octets =>
    have same : relevant (entry.apply nowMs s).streams octets = relevant s.streams octets := by
      simp only [relevant, apply_isSome]
    rw [RtcpEntry.estimated, RtcpEntry.estimated, same]
  | report octets => rfl
  | keyframe octets => rfl
  | repair media item => rfl

theorem apply_rates : ratesOf (entry.apply nowMs s).effects =
    ratesOf s.effects ++ (entry.estimated s.streams).map fun estimate => estimateBps estimate.1 estimate.2 := by
  cases entry with
  | report octets =>
    rw [RtcpEntry.apply, RtcpEntry.estimated]
    split
    · simp
    · rw [report_effects, ratesOf_append, ratesOf_append, ratesOf_calls]
      split <;> simp [ratesOf]
  | estimate octets =>
    rw [RtcpEntry.apply, RtcpEntry.estimated]
    split
    · exact ratesOf_append _ _
    · simp
  | keyframe octets =>
    rw [RtcpEntry.apply, RtcpEntry.estimated, Handled.keyframe]
    split
    · exact ratesOf_append _ _
    · simp
  | repair media item =>
    rw [RtcpEntry.apply, RtcpEntry.estimated]
    split
    · rw [Handled.repairs, Handled.add, ratesOf_append, ratesOf_act]
      rfl
    · simp

end

/-- Every estimate for a stream that is there gives its rate to the controller, in order. -/
theorem foldl_rates (nowMs : Int) (entries : List RtcpEntry) (s : Handled) :
    ratesOf (entries.foldl (RtcpEntry.apply nowMs) s).effects = ratesOf s.effects ++
      (entries.flatMap (RtcpEntry.estimated s.streams)).map fun estimate =>
        estimateBps estimate.1 estimate.2 := by
  induction entries generalizing s with
  | nil => simp
  | cons entry entries ih =>
    have same : RtcpEntry.estimated (entry.apply nowMs s).streams = RtcpEntry.estimated s.streams :=
      funext (apply_estimated nowMs s entry)
    rw [List.foldl_cons, ih, apply_rates, same, List.flatMap_cons, List.map_append, List.append_assoc]

/-! ### Key frames and repairs -/

def actionsOf (effects : List RtcpEffect) : List RtcpAction :=
  effects.filterMap fun
    | .act action => some action
    | _ => none

def actionKnown (streams : StreamTable) : RtcpAction → Bool
  | .requestKeyframe ssrc => (streams ssrc).isSome
  | .requestRepair ssrc _ => (streams ssrc).isSome

theorem actionsOf_append (first second : List RtcpEffect) :
    actionsOf (first ++ second) = actionsOf first ++ actionsOf second :=
  List.filterMap_append

theorem actionsOf_act (actions : List RtcpAction) : actionsOf (actions.map .act) = actions := by
  rw [actionsOf, List.filterMap_map]
  exact List.filterMap_some

theorem repairsOf_known (streams : StreamTable) (ssrc : BitVec 32) (seq mask : BitVec 16) :
    ∀ action ∈ repairsOf ssrc seq mask, actionKnown streams action = (streams ssrc).isSome := by
  intro action member
  rcases List.mem_cons.mp member with rfl | bit
  · rfl
  · obtain ⟨_, -, rfl⟩ := List.mem_map.mp bit
    rfl

theorem apply_actions (nowMs : Int) (s : Handled) (entry : RtcpEntry) :
    actionsOf (entry.apply nowMs s).effects =
      actionsOf s.effects ++ entry.actions.filter (actionKnown s.streams) := by
  cases entry with
  | report octets =>
    rw [RtcpEntry.apply, RtcpEntry.actions]
    split
    · simp
    · rename_i stream _
      have none : actionsOf (stream.calls (get32 octets 0) (get32 octets 8) (signed24 (get32 octets 4))
          (reportRtt nowMs octets stream)) = [] := by
        unfold StreamReports.calls
        split_ifs <;> rfl
      rw [report_effects, actionsOf_append, actionsOf_append, none]
      split <;> simp [actionsOf]
  | estimate octets =>
    rw [RtcpEntry.apply, RtcpEntry.actions]
    split
    · exact actionsOf_append _ _
    · simp
  | keyframe octets =>
    rw [RtcpEntry.apply, RtcpEntry.actions, Handled.keyframe]
    split
    · rename_i there
      rw [Handled.add, actionsOf_append, List.filter_cons_of_pos (by exact there)]
      rfl
    · rename_i absent
      rw [List.filter_cons_of_neg (by exact absent), List.filter_nil, List.append_nil]
  | repair media item =>
    have all := repairsOf_known s.streams (get32 media 0) (get16 item 0) (get16 item 2)
    rw [RtcpEntry.apply, RtcpEntry.actions]
    split
    · rename_i there
      rw [Handled.repairs, Handled.add, actionsOf_append, actionsOf_act,
        List.filter_eq_self.mpr fun action member => (all action member).trans there]
    · rename_i absent
      have none : (repairsOf (get32 media 0) (get16 item 0) (get16 item 2)).filter (actionKnown s.streams) = [] :=
        List.filter_eq_nil_iff.mpr fun action member => by rwa [all action member]
      rw [none, List.append_nil]

theorem foldl_actions (nowMs : Int) (entries : List RtcpEntry) (s : Handled) :
    actionsOf (entries.foldl (RtcpEntry.apply nowMs) s).effects = actionsOf s.effects ++
      (entries.flatMap RtcpEntry.actions).filter (actionKnown s.streams) := by
  induction entries generalizing s with
  | nil => simp
  | cons entry entries ih =>
    have same : actionKnown (entry.apply nowMs s).streams = actionKnown s.streams := by
      funext action
      cases action <;> exact apply_isSome nowMs s entry _
    rw [List.foldl_cons, ih, apply_actions, same, List.flatMap_cons, List.filter_append, List.append_assoc]

/-- What a byte string does to the queue, the cache and the key frame requests of the handler are its actions for the
streams that are there. -/
theorem handled_actions (nowMs : Int) (data : Bytes) (streams : StreamTable) :
    ∃ result, handleRtcpLocked nowMs (data.length + 1) data { streams } = some result ∧
      actionsOf result.effects = (rtcpActions data.length data).filter (actionKnown streams) := by
  refine ⟨_, handleRtcpLocked_eq nowMs data { streams }, ?_⟩
  rw [foldl_actions, rtcpActions_eq]
  rfl

/-! ### Reports -/

/-- The last report of a stream that was accepted. -/
def StreamReports.baseline (stream : StreamReports) : Option (BitVec 32 × Int) :=
  if stream.hasReport then some (stream.reportedSequence, stream.reportedLoss) else none

def baselineOf (streams : StreamTable) (ssrc : BitVec 32) : Option (BitVec 32 × Int) :=
  (streams ssrc).bind StreamReports.baseline

/-- The accepted reports of a stream. -/
def reportsOf (ssrc : BitVec 32) (effects : List RtcpEffect) : List (BitVec 32 × Int) :=
  effects.filterMap fun
    | .reported id sequence lost => if id = ssrc then some (sequence, lost) else none
    | _ => none

/-- The loss and the expected packets that are given to the controller for a stream. -/
def handedOf (ssrc : BitVec 32) (effects : List RtcpEffect) : List (Int × Int) :=
  effects.filterMap fun
    | .onReceiverReport id lost expected _ => if id = ssrc then some (lost, expected) else none
    | _ => none

def lossOf (ssrc : BitVec 32) (effects : List RtcpEffect) : Int := ((handedOf ssrc effects).map Prod.fst).sum

def expectedOf (ssrc : BitVec 32) (effects : List RtcpEffect) : Int := ((handedOf ssrc effects).map Prod.snd).sum

/-- Sums that are the change from the first accepted report to the last one, without one they are zero. -/
structure Account (accepted : List (BitVec 32 × Int)) (loss expected : Int) : Prop where
  change : ∀ first last, accepted.head? = some first → accepted.getLast? = some last →
    loss = last.2 - first.2 ∧ BitVec.ofInt 32 expected = last.1 - first.1
  nothing : accepted = [] → loss = 0 ∧ expected = 0

namespace Account

variable {accepted : List (BitVec 32 × Int)} {loss expected : Int}

theorem begin (account : Account [] loss expected) (sequence : BitVec 32) (lost : Int) :
    Account [(sequence, lost)] loss expected := by
  obtain ⟨rfl, rfl⟩ := account.nothing rfl
  refine ⟨?_, fun empty => absurd empty (List.cons_ne_nil _ _)⟩
  rintro first last ⟨⟩ ⟨⟩
  simp

theorem extend (account : Account accepted loss expected) {last : BitVec 32 × Int}
    (known : accepted.getLast? = some last) (sequence : BitVec 32) (lost : Int) :
    Account (accepted ++ [(sequence, lost)]) (loss + (lost - last.2))
      (expected + ((sequence - last.1).toNat : Int)) := by
  have some : accepted ≠ [] := by
    rintro rfl
    cases known
  refine ⟨fun first now atFirst atLast => ?_, fun empty => absurd (List.append_eq_nil_iff.mp empty).1 some⟩
  rw [List.head?_append_of_ne_nil _ some] at atFirst
  rw [List.getLast?_concat] at atLast
  cases atLast
  obtain ⟨losses, sequences⟩ := account.change first last atFirst known
  refine ⟨by dsimp only; omega, ?_⟩
  rw [BitVec.ofInt_add, sequences, BitVec.ofInt_natCast, BitVec.ofNat_toNat, BitVec.setWidth_eq]
  ring

end Account

/-- What was given to the controller for a stream, from some table of streams on. -/
structure Telescopes (before : StreamTable) (ssrc : BitVec 32) (s : Handled) : Prop where
  last : ((baselineOf before ssrc).toList ++ reportsOf ssrc s.effects).getLast? = baselineOf s.streams ssrc
  account : Account ((baselineOf before ssrc).toList ++ reportsOf ssrc s.effects) (lossOf ssrc s.effects)
    (expectedOf ssrc s.effects)

section

variable {ssrc : BitVec 32}

theorem reportsOf_append (first second : List RtcpEffect) :
    reportsOf ssrc (first ++ second) = reportsOf ssrc first ++ reportsOf ssrc second :=
  List.filterMap_append

theorem handedOf_append (first second : List RtcpEffect) :
    handedOf ssrc (first ++ second) = handedOf ssrc first ++ handedOf ssrc second :=
  List.filterMap_append

theorem lossOf_append (first second : List RtcpEffect) :
    lossOf ssrc (first ++ second) = lossOf ssrc first + lossOf ssrc second := by
  rw [lossOf, handedOf_append, List.map_append, List.sum_append]
  rfl

theorem expectedOf_append (first second : List RtcpEffect) :
    expectedOf ssrc (first ++ second) = expectedOf ssrc first + expectedOf ssrc second := by
  rw [expectedOf, handedOf_append, List.map_append, List.sum_append]
  rfl

/-- Calls that are not of this stream, or that hand no packets. -/
structure Silent (ssrc : BitVec 32) (effects : List RtcpEffect) : Prop where
  reports : reportsOf ssrc effects = []
  loss : lossOf ssrc effects = 0
  expected : expectedOf ssrc effects = 0

theorem Silent.act (actions : List RtcpAction) : Silent ssrc (actions.map .act) := by
  have none : handedOf ssrc (actions.map .act) = [] := by simp [handedOf]
  refine ⟨by simp [reportsOf], ?_, ?_⟩
  · rw [lossOf, none]
    rfl
  · rw [expectedOf, none]
    rfl

theorem Silent.other {other : BitVec 32} (different : other ≠ ssrc) (stream : StreamReports) (sequence : BitVec 32)
    (lost rttMs : Int) : Silent ssrc (stream.calls other sequence lost rttMs) := by
  unfold StreamReports.calls
  split_ifs <;> exact ⟨by simp [reportsOf], by simp [lossOf, handedOf, different],
    by simp [expectedOf, handedOf, different]⟩

theorem Telescopes.add {before : StreamTable} {s : Handled} (telescopes : Telescopes before ssrc s)
    {effects : List RtcpEffect} (silent : Silent ssrc effects) : Telescopes before ssrc (s.add effects) := by
  refine ⟨?_, ?_⟩
  · simp only [Handled.add, reportsOf_append, silent.reports, List.append_nil]
    exact telescopes.last
  · simp only [Handled.add, reportsOf_append, lossOf_append, expectedOf_append, silent.reports, silent.loss,
      silent.expected, List.append_nil, Int.add_zero]
    exact telescopes.account

/-- Only the baseline of the stream matters. -/
theorem Telescopes.table {before : StreamTable} {s : Handled} (telescopes : Telescopes before ssrc s)
    {streams : StreamTable} (same : baselineOf streams ssrc = baselineOf s.streams ssrc) :
    Telescopes before ssrc { s with streams } :=
  ⟨telescopes.last.trans same.symm, telescopes.account⟩

end

/-- A report that the next ones are compared with. -/
theorem Telescopes.accept {before : StreamTable} {ssrc sequence : BitVec 32} {lost : Int} {s : Handled}
    {calls : List RtcpEffect} (unreported : reportsOf ssrc calls = [])
    (account : Account ((baselineOf before ssrc).toList ++ reportsOf ssrc s.effects ++ [(sequence, lost)])
      (lossOf ssrc s.effects + lossOf ssrc calls) (expectedOf ssrc s.effects + expectedOf ssrc calls))
    {stream : StreamReports} (baseline : stream.baseline = some (sequence, lost)) :
    Telescopes before ssrc
      ({ s.add calls with streams := Function.update (s.add calls).streams ssrc (some stream) }.add
        [.reported ssrc sequence lost]) := by
  have reports : reportsOf ssrc (s.effects ++ calls ++ [.reported ssrc sequence lost]) =
      reportsOf ssrc s.effects ++ [(sequence, lost)] := by
    rw [reportsOf_append, reportsOf_append, unreported, List.append_nil]
    simp [reportsOf]
  have loss : lossOf ssrc (s.effects ++ calls ++ [.reported ssrc sequence lost]) =
      lossOf ssrc s.effects + lossOf ssrc calls := by
    rw [lossOf_append, lossOf_append]
    simp [lossOf, handedOf]
  have expected : expectedOf ssrc (s.effects ++ calls ++ [.reported ssrc sequence lost]) =
      expectedOf ssrc s.effects + expectedOf ssrc calls := by
    rw [expectedOf_append, expectedOf_append]
    simp [expectedOf, handedOf]
  refine ⟨?_, ?_⟩
  · simp only [Handled.add, reports, ← List.append_assoc, List.getLast?_concat, baselineOf, Function.update_self,
      Option.bind_some]
    exact baseline.symm
  · simp only [Handled.add, reports, loss, expected, ← List.append_assoc]
    exact account

/-- A report of the stream itself. -/
theorem Telescopes.report {before : StreamTable} {ssrc : BitVec 32} {s : Handled}
    (telescopes : Telescopes before ssrc s) {stream : StreamReports} (known : s.streams ssrc = some stream)
    (sequence : BitVec 32) (lost rttMs : Int) : Telescopes before ssrc (s.report ssrc stream sequence lost rttMs) := by
  have here : baselineOf s.streams ssrc = stream.baseline := by
    rw [baselineOf, known]
    rfl
  have last := telescopes.last
  rw [here, StreamReports.baseline] at last
  have zero : Silent ssrc [.onReceiverReport ssrc 0 0 rttMs] :=
    ⟨by simp [reportsOf], by simp [lossOf, handedOf], by simp [expectedOf, handedOf]⟩
  unfold Handled.report StreamReports.calls
  dsimp only
  cases new : stream.hasReport with
  | false =>
    rw [new] at last
    have empty := List.getLast?_eq_none_iff.mp last
    rw [if_pos (.inl rfl), if_neg (by simp), if_pos (.inl rfl)]
    refine Telescopes.accept zero.reports ?_ (by rfl)
    have account := telescopes.account
    rw [empty] at account ⊢
    rw [zero.loss, zero.expected, Int.add_zero, Int.add_zero]
    exact account.begin sequence lost
  | true =>
    rw [new, if_pos rfl] at last
    by_cases inOrder : stream.inOrder sequence = true
    · rw [if_pos (.inr inOrder), if_pos ⟨rfl, inOrder⟩]
      refine Telescopes.accept (by rfl) ?_ (by rfl)
      have account := telescopes.account.extend last sequence lost
      simpa [lossOf, expectedOf, handedOf, StreamReports.expected] using account
    · rw [if_neg (by simpa using inOrder), if_neg (fun both => inOrder both.2)]
      split
      · exact telescopes.add zero
      · exact telescopes.add (Silent.act [])

theorem Telescopes.apply {before : StreamTable} {ssrc : BitVec 32} {s : Handled}
    (telescopes : Telescopes before ssrc s) (nowMs : Int) (entry : RtcpEntry) :
    Telescopes before ssrc (entry.apply nowMs s) := by
  cases entry with
  | report octets =>
    rw [RtcpEntry.apply]
    split
    · exact telescopes
    rename_i stream known
    generalize get32 octets 0 = other at known ⊢
    by_cases same : other = ssrc
    · subst same
      exact telescopes.report known _ _ _
    · unfold Handled.report
      dsimp only
      have called := telescopes.add (Silent.other same stream (get32 octets 8) (signed24 (get32 octets 4))
        (reportRtt nowMs octets stream))
      split
      · refine (called.table ?_).add
          ⟨by simp [reportsOf, same], by simp [lossOf, handedOf], by simp [expectedOf, handedOf]⟩
        rw [baselineOf, baselineOf, Function.update_of_ne (Ne.symm same)]
      · exact called
  | estimate octets =>
    rw [RtcpEntry.apply]
    split
    · exact telescopes.add ⟨by simp [reportsOf], by simp [lossOf, handedOf], by simp [expectedOf, handedOf]⟩
    · exact telescopes
  | keyframe octets =>
    rw [RtcpEntry.apply, Handled.keyframe]
    split
    · exact telescopes.add (Silent.act [_])
    · exact telescopes
  | repair media item =>
    rw [RtcpEntry.apply]
    split
    · exact telescopes.add (Silent.act _)
    · exact telescopes

theorem Telescopes.foldl {before : StreamTable} {ssrc : BitVec 32} {s : Handled}
    (telescopes : Telescopes before ssrc s) (nowMs : Int) (entries : List RtcpEntry) :
    Telescopes before ssrc (entries.foldl (RtcpEntry.apply nowMs) s) := by
  induction entries generalizing s with
  | nil => exact telescopes
  | cons entry entries ih => exact ih (telescopes.apply nowMs entry)

theorem Telescopes.start (streams : StreamTable) (ssrc : BitVec 32) : Telescopes streams ssrc { streams } := by
  have none : (baselineOf streams ssrc).toList ++ reportsOf ssrc [] = (baselineOf streams ssrc).toList :=
    List.append_nil _
  refine ⟨?_, ?_, fun _ => ⟨rfl, rfl⟩⟩
  · rw [none]
    cases baselineOf streams ssrc <;> rfl
  · rw [none]
    cases baselineOf streams ssrc with
    | none => rintro first last ⟨⟩
    | some report =>
      rintro first last ⟨⟩ ⟨⟩
      simp [lossOf, expectedOf, handedOf]

/-! ### Runs -/

structure RtcpHost where
  stopped : Bool := false
  handled : Handled

inductive HostEvent where
  | stop
  | registerStream (ssrc : BitVec 32)
  | observeSenderReport (message : Bytes) (nowMs : Int)
  | incoming (data : Bytes) (nowMs : Int)

namespace RtcpHost

variable (h : RtcpHost)

def registerStream (ssrc : BitVec 32) : RtcpHost :=
  if (h.handled.streams ssrc).isSome then h
  else { h with handled := { h.handled with streams := Function.update h.handled.streams ssrc (some {}) } }

def observeSenderReport (message : Bytes) (nowMs : Int) : RtcpHost :=
  if message.length < 28 ∨ byteAt message 1 ≠ 200 then h
  else
    let ssrc := get32 message 4
    match h.handled.streams ssrc with
    | none => h
    | some stream =>
      if h.stopped then h
      else
        let reports := if 16 ≤ stream.senderReports.entries.length then SortedMap.empty else stream.senderReports
        let stream := { stream with senderReports := reports.assign (get32 message 10).toNat nowMs }
        { h with handled := { h.handled with streams := Function.update h.handled.streams ssrc (some stream) } }

/-- One control message of `incoming`. -/
def incoming (data : Bytes) (nowMs : Int) : Option RtcpHost :=
  if h.stopped then some h
  else do
    let handled ← handleRtcpLocked nowMs (data.length + 1) data h.handled
    return { h with handled }

def step : HostEvent → Option RtcpHost
  | .stop => some { h with stopped := true }
  | .registerStream ssrc => some (h.registerStream ssrc)
  | .observeSenderReport message nowMs => some (h.observeSenderReport message nowMs)
  | .incoming data nowMs => h.incoming data nowMs

def run : RtcpHost → List HostEvent → Option RtcpHost
  | h, [] => some h
  | h, event :: events => do run (← h.step event) events

/-- The byte strings that are handled in a run, with the streams and the time at which they are. -/
def callsOf : RtcpHost → List HostEvent → List (StreamTable × Bytes × Int)
  | _, [] => []
  | h, event :: events =>
    let calls :=
      match event with
      | .incoming data nowMs => if h.stopped then [] else [(h.handled.streams, data, nowMs)]
      | _ => []
    calls ++
      match h.step event with
      | some next => callsOf next events
      | none => []

end RtcpHost

/-- The handler of a byte string ends, reads each block before its padding, does what the complete entries of the
well-formed blocks say that precede the first malformed one, and gives the rates that they mean. -/
structure CallRight (streams : StreamTable) (data : Bytes) (nowMs : Int) : Prop where
  handled : ∃ result, handleRtcpLocked nowMs (data.length + 1) data { streams } = some result ∧
    result = (rtcpEntries data).foldl (RtcpEntry.apply nowMs) { streams } ∧
    ratesOf result.effects = (estimatesOf streams data).map meantBps
  blocks : ∃ rest, (rtcpBlocks data).flatMap RtcpBlock.octets ++ rest = data ∧ ∀ b : RtcpBlock, ¬b.octets <+: rest
  entries : ∀ b ∈ rtcpBlocks data, ∀ entry ∈ entriesOf b.payload, entry.Within b.payload

/-- No estimate has a mantissa of zero and an exponent from 32 on. -/
def NoHugeZero (streams : StreamTable) (data : Bytes) : Prop :=
  ∀ estimate ∈ estimatesOf streams data, estimate.2 ≠ 0 ∨ estimate.1 < 32

theorem callRight_iff (streams : StreamTable) (data : Bytes) (nowMs : Int) :
    CallRight streams data nowMs ↔ NoHugeZero streams data := by
  have handled := handleRtcpLocked_eq nowMs data { streams }
  have rates := foldl_rates nowMs (rtcpEntries data) { streams }
  have exact_iff : (estimatesOf streams data).map (fun estimate => estimateBps estimate.1 estimate.2) =
      (estimatesOf streams data).map meantBps ↔ NoHugeZero streams data := by
    rw [List.map_inj_left]
    refine forall₂_congr fun estimate member => ?_
    exact estimateBps_eq_iff (estimatesOf_small member)
  rw [← exact_iff]
  constructor
  · rintro ⟨⟨result, ran, -, meant⟩, -, -⟩
    rw [handled] at ran
    cases ran
    rw [← meant, rates]
    rfl
  · intro meant
    refine ⟨⟨_, handled, rfl, ?_⟩, rtcpBlocks_split data, fun b _ entry member => entriesOf_within member⟩
    rw [rates, ← meant]
    rfl

namespace RtcpHost

/-- Between the calls the reports of a stream stay, and no stream is lost. -/
theorem registerStream_telescopes {before : StreamTable} {ssrc : BitVec 32} {h : RtcpHost}
    (telescopes : Telescopes before ssrc h.handled) (other : BitVec 32) :
    Telescopes before ssrc (h.registerStream other).handled := by
  unfold registerStream
  split
  · exact telescopes
  · rename_i absent
    refine telescopes.table ?_
    by_cases same : ssrc = other
    · subst same
      rw [Bool.not_eq_true, Option.isSome_eq_false_iff, Option.isNone_iff_eq_none] at absent
      rw [baselineOf, baselineOf, Function.update_self, absent]
      rfl
    · rw [baselineOf, baselineOf, Function.update_of_ne same]

theorem observeSenderReport_telescopes {before : StreamTable} {ssrc : BitVec 32} {h : RtcpHost}
    (telescopes : Telescopes before ssrc h.handled) (message : Bytes) (nowMs : Int) :
    Telescopes before ssrc (h.observeSenderReport message nowMs).handled := by
  unfold observeSenderReport
  split
  · exact telescopes
  dsimp only
  split
  · exact telescopes
  · rename_i stream known
    split
    · exact telescopes
    · refine telescopes.table ?_
      by_cases same : ssrc = get32 message 4
      · subst same
        rw [baselineOf, baselineOf, Function.update_self, known]
        rfl
      · rw [baselineOf, baselineOf, Function.update_of_ne same]

theorem incoming_eq {h : RtcpHost} (running : h.stopped = false) (data : Bytes) (nowMs : Int) :
    h.incoming data nowMs =
      some { h with handled := (rtcpEntries data).foldl (RtcpEntry.apply nowMs) h.handled } := by
  rw [incoming, running, handleRtcpLocked_eq]
  rfl

/-- Every step ends, and the sums go on. -/
theorem step_telescopes (h : RtcpHost) (event : HostEvent) :
    ∃ next, h.step event = some next ∧
      ∀ before ssrc, Telescopes before ssrc h.handled → Telescopes before ssrc next.handled := by
  cases event with
  | stop => exact ⟨_, rfl, fun _ _ telescopes => telescopes⟩
  | registerStream ssrc => exact ⟨_, rfl, fun _ _ telescopes => registerStream_telescopes telescopes ssrc⟩
  | observeSenderReport message nowMs =>
    exact ⟨_, rfl, fun _ _ telescopes => observeSenderReport_telescopes telescopes message nowMs⟩
  | incoming data nowMs =>
    cases running : h.stopped with
    | true => exact ⟨h, if_pos running, fun _ _ telescopes => telescopes⟩
    | false => exact ⟨_, incoming_eq running data nowMs, fun _ _ telescopes => telescopes.foldl nowMs _⟩

theorem run_telescopes (h : RtcpHost) (events : List HostEvent) :
    ∃ last, h.run events = some last ∧
      ∀ before ssrc, Telescopes before ssrc h.handled → Telescopes before ssrc last.handled := by
  induction events generalizing h with
  | nil => exact ⟨h, rfl, fun _ _ telescopes => telescopes⟩
  | cons event events ih =>
    obtain ⟨next, stepped, kept⟩ := h.step_telescopes event
    obtain ⟨last, ran, later⟩ := ih next
    refine ⟨last, ?_, fun before ssrc telescopes => later before ssrc (kept before ssrc telescopes)⟩
    rw [run, stepped]
    exact ran

end RtcpHost

/-- In a run every byte string is handled right, and for every stream the loss and the expected packets that were
given to the controller add up to the change between its first and its last accepted report. -/
structure RunRight (h : RtcpHost) (events : List HostEvent) : Prop where
  sums : ∃ last, h.run events = some last ∧ ∀ ssrc,
    Account ((baselineOf h.handled.streams ssrc).toList ++ reportsOf ssrc last.handled.effects)
      (lossOf ssrc last.handled.effects) (expectedOf ssrc last.handled.effects)
  calls : ∀ call ∈ h.callsOf events, CallRight call.1 call.2.1 call.2.2

/-- From every table of streams: a run is handled right if and only if no estimate for a known stream has a mantissa
of zero and an exponent from 32 on. A rate of zero is no estimate. -/
theorem rtcp_right_iff (stopped : Bool) (streams : StreamTable) (events : List HostEvent) :
    (RunRight ⟨stopped, { streams }⟩ events ↔
      ∀ call ∈ RtcpHost.callsOf ⟨stopped, { streams }⟩ events, NoHugeZero call.1 call.2.1) ∧
    ∀ (σ : Type) (e : Estimator σ) (q : WebQosController σ) (nowMs : Int), q.onReceiverEstimate e 0 nowMs = q := by
  refine ⟨⟨?_, ?_⟩, fun _ _ _ _ => if_pos le_rfl⟩
  · exact fun right call member => (callRight_iff _ _ _).mp (right.calls call member)
  · intro met
    obtain ⟨last, ran, kept⟩ := RtcpHost.run_telescopes ⟨stopped, { streams }⟩ events
    refine ⟨⟨last, ran, fun ssrc => ?_⟩, fun call member => (callRight_iff _ _ _).mpr (met call member)⟩
    exact (kept streams ssrc (Telescopes.start streams ssrc)).account

/-- An estimate of zero for stream 1, with exponent 32: the controller gets the largest rate. -/
def zeroEstimate : Bytes :=
  [0x8f, 206, 0, 5, 0, 0, 0, 0, 0, 0, 0, 0, 0x52, 0x45, 0x4d, 0x42, 1, 0x80, 0, 0, 0, 0, 0, 1]

def oneStream : StreamTable := fun ssrc => if ssrc = 1 then some {} else none

theorem zero_estimate_is_huge : ¬RunRight ⟨false, { streams := oneStream }⟩ [.incoming zeroEstimate 0] := by
  intro right
  have call := right.calls (oneStream, zeroEstimate, 0) (by exact List.mem_singleton_self _)
  have met := (callRight_iff _ _ _).mp call (32, 0) (by decide +kernel)
  exact absurd met (by decide)

end MiniRtc.Web
