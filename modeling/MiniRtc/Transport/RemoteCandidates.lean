import MiniRtc.Ice.CandidateSignal

/-! The candidates of the remote peer on their way to the ICE agent. Before the remote SDP they
wait in a queue, after it they go to the agent at once.
What the agent answers is a parameter. -/
namespace MiniRtc.Transport

open Ice

/-- A call of the agent about the candidates of the peer. -/
inductive AgentCall where
  | addRemoteCandidate (sdp : Text)
  | setRemoteCandidateGatheringDone
deriving DecidableEq, Repr

/-- Which calls of the agent succeed. -/
structure IceAgent where
  setRemoteSdp : Text → Bool
  addRemoteCandidate : Text → Bool
  setRemoteCandidateGatheringDone : Bool

/-- The calls are those that the agent got, the oldest first. -/
structure IceTransport where
  remoteSdp : Text := []
  remoteIceUsername : Text := []
  pendingRemoteCandidates : List IceCandidateSignal := []
  remoteCandidateKeys : List Text := []
  remoteGatheringDone : Bool := false
  calls : List AgentCall := []
deriving DecidableEq, Repr

namespace IceTransport

/-- The fragment is of another ICE generation. -/
def stale (t : IceTransport) (ufrag : Text) : Bool :=
  ufrag ≠ [] && t.remoteIceUsername ≠ [] && ufrag ≠ t.remoteIceUsername

section Agent

variable (agent : IceAgent)

/-- `SetRemoteCandidateGatheringDone` with a remote SDP. -/
def gatheringDone (t : IceTransport) (candidateUfrag : Text) : IceTransport × Int :=
  if t.stale candidateUfrag then (t, 0)
  else if t.remoteGatheringDone then (t, 0)
  else
    let t := { t with calls := t.calls ++ [.setRemoteCandidateGatheringDone] }
    if agent.setRemoteCandidateGatheringDone then ({ t with remoteGatheringDone := true }, 0)
    else (t, -1)

def addRemoteCandidate (t : IceTransport) (candidateSdp candidateUfrag : Text) :
    IceTransport × Int :=
  match parseIceCandidateSignal candidateSdp candidateUfrag with
  | none => (t, -1)
  | some signal =>
    if t.stale signal.ufrag then (t, 0)
    else if t.remoteSdp = [] then
      if signal ∈ t.pendingRemoteCandidates then (t, 0)
      else if 256 ≤ t.pendingRemoteCandidates.length then (t, -1)
      else ({ t with pendingRemoteCandidates := t.pendingRemoteCandidates ++ [signal] }, 0)
    else if signal.complete then gatheringDone agent t signal.ufrag
    else if t.remoteGatheringDone then (t, 0)
    else if signal.sdp ∈ t.remoteCandidateKeys then (t, 0)
    else
      let t := { t with calls := t.calls ++ [.addRemoteCandidate signal.sdp] }
      if agent.addRemoteCandidate signal.sdp then
        ({ t with remoteCandidateKeys := signal.sdp :: t.remoteCandidateKeys }, 0)
      else (t, -1)

def setRemoteCandidateGatheringDone (t : IceTransport) (candidateUfrag : Text) :
    IceTransport × Int :=
  if t.remoteSdp = [] then
    if t.stale candidateUfrag then (t, 0) else addRemoteCandidate agent t [] candidateUfrag
  else gatheringDone agent t candidateUfrag

/-- `mediaStreamSdp` is what negotiation makes of the SDP, empty when it fails. -/
def setRemoteSdp (mediaStreamSdp : Text → Text) (t : IceTransport) (remoteSdp : Text) :
    IceTransport × Int :=
  let remoteUfrag := getIceUsername remoteSdp
  if remoteUfrag = [] then (t, -1)
  else if t.remoteIceUsername ≠ [] ∧ t.remoteIceUsername ≠ remoteUfrag then (t, -1)
  else if mediaStreamSdp remoteSdp = [] then (t, -1)
  else if agent.setRemoteSdp (mediaStreamSdp remoteSdp) = false then (t, -1)
  else
    let pending := t.pendingRemoteCandidates
    let t := { t with remoteSdp, remoteIceUsername := remoteUfrag, pendingRemoteCandidates := [] }
    (pending.foldl (fun t c => (addRemoteCandidate agent t c.sdp c.ufrag).1) t, 0)

end Agent

/-- A call from the signaling. -/
inductive Call where
  | addRemoteCandidate (candidateSdp candidateUfrag : Text)
  | setRemoteCandidateGatheringDone (candidateUfrag : Text)
deriving DecidableEq, Repr

/-- The signal of a call, if it is well formed. -/
def Call.signal : Call → Option IceCandidateSignal
  | addRemoteCandidate candidateSdp candidateUfrag =>
    parseIceCandidateSignal candidateSdp candidateUfrag
  | setRemoteCandidateGatheringDone candidateUfrag => parseIceCandidateSignal [] candidateUfrag

variable (agent : IceAgent) (mediaStreamSdp : Text → Text)

def apply (t : IceTransport) : Call → IceTransport
  | .addRemoteCandidate candidateSdp candidateUfrag =>
    (addRemoteCandidate agent t candidateSdp candidateUfrag).1
  | .setRemoteCandidateGatheringDone candidateUfrag =>
    (setRemoteCandidateGatheringDone agent t candidateUfrag).1

/-- A new transport gets some calls, the remote SDP, and then the others. -/
def arrive (before after : List Call) (remoteSdp : Text) : IceTransport :=
  after.foldl (apply agent)
    (setRemoteSdp agent mediaStreamSdp (before.foldl (apply agent) {}) remoteSdp).1

/-! What the agent should get. -/

def current (ufrag : Text) (signal : IceCandidateSignal) : Bool :=
  signal.ufrag = [] || signal.ufrag = ufrag

/-- The candidates of the generation before its first completion. -/
def admitted (ufrag : Text) (signals : List IceCandidateSignal) : List IceCandidateSignal :=
  (signals.filter (current ufrag)).takeWhile fun signal => !signal.complete

def completed (ufrag : Text) (signals : List IceCandidateSignal) : Bool :=
  signals.any fun signal => current ufrag signal && signal.complete

/-- Every admitted line once, in the order of its first arrival, and one completion. -/
def expected (ufrag : Text) (signals : List IceCandidateSignal) : List AgentCall :=
  ((admitted ufrag signals).map IceCandidateSignal.sdp).eraseDups.map .addRemoteCandidate ++
    if completed ufrag signals then [.setRemoteCandidateGatheringDone] else []

section EraseDups

variable {α : Type*} [BEq α] [LawfulBEq α] {l : List α} {a : α}

theorem eraseDups_concat_mem (mem : a ∈ l) : (l ++ [a]).eraseDups = l.eraseDups := by
  rw [List.eraseDups_append]
  simp [List.removeAll, mem]

theorem eraseDups_concat_new (fresh : a ∉ l) : (l ++ [a]).eraseDups = l.eraseDups ++ [a] := by
  rw [List.eraseDups_append]
  simp [List.removeAll, fresh, List.eraseDups_cons]

end EraseDups

section Expected

variable {ufrag : Text} {signals : List IceCandidateSignal} {s : IceCandidateSignal}

theorem admitted_cons : admitted ufrag (s :: signals) =
    if current ufrag s then if s.complete then [] else s :: admitted ufrag signals
    else admitted ufrag signals := by
  unfold admitted
  cases here : current ufrag s
  · rw [List.filter_cons_of_neg (by simp [here]), if_neg Bool.false_ne_true]
  · rw [List.filter_cons_of_pos here, List.takeWhile_cons]
    cases s.complete <;> rfl

theorem completed_concat : completed ufrag (signals ++ [s]) =
    (completed ufrag signals || (current ufrag s && s.complete)) := by
  simp [completed]

theorem admitted_concat : admitted ufrag (signals ++ [s]) =
    if current ufrag s = false ∨ completed ufrag signals = true ∨ s.complete = true then
      admitted ufrag signals
    else admitted ufrag signals ++ [s] := by
  induction signals with
  | nil =>
    rw [List.nil_append, admitted_cons]
    cases here : current ufrag s <;> cases ends : s.complete <;> simp [admitted, completed]
  | cons first rest ih =>
    rw [List.cons_append, admitted_cons, admitted_cons, ih]
    have step : completed ufrag (first :: rest) =
        (current ufrag first && first.complete || completed ufrag rest) := List.any_cons
    rw [step]
    cases current ufrag first <;> cases first.complete <;> simp
    split <;> rfl

/-- A signal changes what is expected if it is the first of its kind. -/
theorem expected_concat : expected ufrag (signals ++ [s]) = expected ufrag signals ++
    if current ufrag s = false ∨ completed ufrag signals = true then []
    else if s.complete then [.setRemoteCandidateGatheringDone]
    else if s.sdp ∈ (admitted ufrag signals).map IceCandidateSignal.sdp then []
    else [.addRemoteCandidate s.sdp] := by
  unfold expected
  rw [admitted_concat, completed_concat]
  cases here : current ufrag s
  · simp
  cases before : completed ufrag signals
  · cases ends : s.complete
    · simp only [Bool.true_eq_false, Bool.false_eq_true, or_false, if_false, Bool.and_false,
        Bool.or_false, List.append_nil, List.map_append, List.map_cons, List.map_nil]
      split
      · rename_i mem
        rw [eraseDups_concat_mem mem, List.append_nil]
      · rename_i fresh
        rw [eraseDups_concat_new fresh, List.map_append]
        rfl
    · simp
  · simp

theorem admitted_append (more : List IceCandidateSignal) :
    ∃ rest, admitted ufrag (signals ++ more) = admitted ufrag signals ++ rest := by
  induction more using List.reverseRecOn with
  | nil => exact ⟨[], by simp⟩
  | append_singleton more last ih =>
    obtain ⟨rest, same⟩ := ih
    rw [← List.append_assoc, admitted_concat, same]
    split
    · exact ⟨rest, rfl⟩
    · exact ⟨rest ++ [last], List.append_assoc ..⟩

theorem admitted_mono (more : List IceCandidateSignal) (mem : s ∈ admitted ufrag signals) :
    s ∈ admitted ufrag (signals ++ more) := by
  obtain ⟨rest, grows⟩ := admitted_append more
  rw [grows]
  exact List.mem_append_left _ mem

theorem mem_admitted (mem : s ∈ signals) (here : current ufrag s = true)
    (before : completed ufrag signals = false) :
    s ∈ admitted ufrag signals := by
  have all : ∀ signal ∈ signals.filter (current ufrag), (!signal.complete) = true := by
    intro signal member
    obtain ⟨inside, is_current⟩ := List.mem_filter.mp member
    have known := List.any_eq_false.mp before signal inside
    simpa [is_current] using known
  rw [admitted, List.takeWhile_eq_self_iff.mpr all]
  exact List.mem_filter.mpr ⟨mem, here⟩

/-- A signal that has come before changes nothing. -/
theorem expected_again (mem : s ∈ signals) :
    expected ufrag (signals ++ [s]) = expected ufrag signals := by
  rw [expected_concat]
  split
  · exact List.append_nil _
  rename_i fresh
  obtain ⟨here, before⟩ := not_or.mp fresh
  have here := Bool.eq_true_of_not_eq_false here
  have before := Bool.eq_false_of_not_eq_true before
  split
  · rename_i ends
    have known := List.any_eq_false.mp before s mem
    simp [here, ends] at known
  · have inside := mem_admitted mem here before
    rw [if_pos (List.mem_map_of_mem inside), List.append_nil]

end Expected

section Follows

variable {agent : IceAgent} {mediaStreamSdp : Text → Text} {ufrag : Text}
  {signals : List IceCandidateSignal} {t : IceTransport}

/-- A transport with a remote SDP that has got some signals. -/
structure Follows (ufrag : Text) (signals : List IceCandidateSignal) (t : IceTransport) : Prop where
  fragment : ufrag ≠ []
  sdp : t.remoteSdp ≠ []
  username : t.remoteIceUsername = ufrag
  keys : ∀ line, line ∈ t.remoteCandidateKeys ↔
    line ∈ (admitted ufrag signals).map IceCandidateSignal.sdp
  done : t.remoteGatheringDone = completed ufrag signals
  calls : t.calls = expected ufrag signals

theorem Follows.stale (follows : Follows ufrag signals t) (signal : IceCandidateSignal) :
    t.stale signal.ufrag = !current ufrag signal := by
  have fragment := follows.fragment
  simp [IceTransport.stale, current, follows.username, fragment]

/-- A signal that is not the first of its kind leaves the transport as it is. -/
theorem Follows.again {s : IceCandidateSignal} (follows : Follows ufrag signals t)
    (mem : s ∈ signals) : Follows ufrag (signals ++ [s]) t := by
  obtain ⟨fragment, sdp, username, keys, done, calls⟩ := follows
  refine ⟨fragment, sdp, username, fun line => ?_, ?_, calls.trans (expected_again mem).symm⟩
  · rw [keys, admitted_concat]
    split
    · exact Iff.rfl
    · rename_i fresh
      simp only [not_or, Bool.not_eq_false, Bool.not_eq_true] at fresh
      have inside := List.mem_map_of_mem (f := IceCandidateSignal.sdp)
        (mem_admitted mem fresh.1 fresh.2.1)
      simp only [List.map_append, List.map_cons, List.map_nil, List.mem_append, List.mem_singleton]
      exact ⟨.inl, fun either => either.elim id fun same => same ▸ inside⟩
  · rw [done, completed_concat]
    cases ends : current ufrag s && s.complete
    · simp
    · have before : completed ufrag signals = true := List.any_eq_true.mpr ⟨s, mem, ends⟩
      simp [before]

/-- A signal that is not admitted changes nothing but the completion. -/
theorem Follows.refused {s : IceCandidateSignal} (follows : Follows ufrag signals t)
    (out : current ufrag s = false ∨ completed ufrag signals = true) :
    Follows ufrag (signals ++ [s]) t := by
  obtain ⟨fragment, sdp, username, keys, done, calls⟩ := follows
  have same : admitted ufrag (signals ++ [s]) = admitted ufrag signals := by
    rw [admitted_concat, if_pos (out.imp_right .inl)]
  refine ⟨fragment, sdp, username, fun line => by rw [keys, same], ?_, ?_⟩
  · rw [done, completed_concat]
    obtain other | before := out
    · simp [other]
    · simp [before]
  · rw [calls, expected_concat, if_pos out, List.append_nil]

theorem Follows.gatheringDone {s : IceCandidateSignal} (follows : Follows ufrag signals t)
    (ends : s.complete = true) (completes : agent.setRemoteCandidateGatheringDone = true) :
    Follows ufrag (signals ++ [s]) (t.gatheringDone agent s.ufrag).1 := by
  simp only [IceTransport.gatheringDone, follows.stale s, completes, if_true]
  split
  · rename_i other
    exact follows.refused (.inl (by simpa using other))
  rename_i here
  split
  · rename_i done
    exact follows.refused (.inr (follows.done ▸ done))
  rename_i first
  simp only [Bool.not_eq_true', Bool.not_eq_false] at here
  have before : completed ufrag signals = false := by
    rw [← follows.done]
    exact Bool.eq_false_of_not_eq_true first
  obtain ⟨fragment, sdp, username, keys, done, calls⟩ := follows
  refine ⟨fragment, sdp, username, fun line => ?_, ?_, ?_⟩
  · rw [admitted_concat, if_pos (.inr (.inr ends))]
    exact keys line
  · rw [completed_concat, here, ends]
    simp
  · rw [expected_concat, if_neg (by simp [here, before]), if_pos ends, ← calls]

theorem Follows.addRemoteCandidate {s : IceCandidateSignal} {candidateSdp candidateUfrag : Text}
    (follows : Follows ufrag signals t)
    (parsed : parseIceCandidateSignal candidateSdp candidateUfrag = some s)
    (accepts : s ∈ admitted ufrag (signals ++ [s]) → agent.addRemoteCandidate s.sdp = true)
    (completes : agent.setRemoteCandidateGatheringDone = true) :
    Follows ufrag (signals ++ [s]) (t.addRemoteCandidate agent candidateSdp candidateUfrag).1 := by
  simp only [IceTransport.addRemoteCandidate, parsed, follows.stale s]
  split
  · rename_i other
    exact follows.refused (.inl (by simpa using other))
  rename_i here
  rw [if_neg follows.sdp]
  split
  · rename_i ends
    exact follows.gatheringDone ends completes
  rename_i candidate
  split
  · rename_i done
    exact follows.refused (.inr (follows.done ▸ done))
  rename_i first
  simp only [Bool.not_eq_true', Bool.not_eq_false] at here
  have before : completed ufrag signals = false := by
    rw [← follows.done]
    exact Bool.eq_false_of_not_eq_true first
  have candidate := Bool.eq_false_of_not_eq_true candidate
  obtain ⟨fragment, sdp, username, keys, done, calls⟩ := follows
  have grows : admitted ufrag (signals ++ [s]) = admitted ufrag signals ++ [s] := by
    rw [admitted_concat, if_neg (by simp [here, before, candidate])]
  have open_ : completed ufrag (signals ++ [s]) = completed ufrag signals := by
    rw [completed_concat, candidate, Bool.and_false, Bool.or_false]
  have next := @expected_concat ufrag signals s
  rw [if_neg (by simp [here, before]), if_neg (by simp [candidate])] at next
  split
  · rename_i known
    have mem := (keys _).mp known
    refine ⟨fragment, sdp, username, fun line => ?_, done.trans open_.symm, ?_⟩
    · rw [keys, grows, List.map_append, List.mem_append]
      refine ⟨.inl, fun either => either.elim id fun same => ?_⟩
      rw [List.mem_singleton.mp same]
      exact mem
    · rw [next, if_pos mem, List.append_nil, calls]
  · rename_i fresh
    rw [if_pos (accepts (by simp [grows]))]
    refine ⟨fragment, sdp, username, fun line => ?_, done.trans open_.symm, ?_⟩
    · rw [grows, List.map_append, List.mem_append, List.mem_cons, keys, or_comm]
      simp
    · rw [next, if_neg fun mem => fresh ((keys _).mpr mem), ← calls]

end Follows

/-! Before the remote SDP. -/

/-- The signals of some calls, if they are all well formed. -/
def signals (calls : List Call) : List IceCandidateSignal := calls.filterMap Call.signal

section Pending

variable {agent : IceAgent} {mediaStreamSdp : Text → Text} {t : IceTransport}

/-- A transport without a remote SDP keeps every signal once. -/
structure Waits (signals : List IceCandidateSignal) (t : IceTransport) : Prop where
  sdp : t.remoteSdp = []
  username : t.remoteIceUsername = []
  pending : t.pendingRemoteCandidates = signals.eraseDups
  keys : t.remoteCandidateKeys = []
  done : t.remoteGatheringDone = false
  calls : t.calls = []

theorem Waits.addRemoteCandidate {known : List IceCandidateSignal} {s : IceCandidateSignal}
    {candidateSdp candidateUfrag : Text} (waits : Waits known t)
    (parsed : parseIceCandidateSignal candidateSdp candidateUfrag = some s)
    (few : (known ++ [s]).eraseDups.length ≤ 256) :
    Waits (known ++ [s]) (t.addRemoteCandidate agent candidateSdp candidateUfrag).1 := by
  obtain ⟨sdp, username, pending, keys, done, calls⟩ := waits
  have fresh : t.stale s.ufrag = false := by simp [IceTransport.stale, username]
  simp only [IceTransport.addRemoteCandidate, parsed, fresh, Bool.false_eq_true, if_false]
  rw [if_pos sdp]
  split
  · rename_i mem
    rw [pending, List.mem_eraseDups] at mem
    exact ⟨sdp, username, pending.trans (eraseDups_concat_mem mem).symm, keys, done, calls⟩
  · rename_i new
    rw [pending, List.mem_eraseDups] at new
    rw [eraseDups_concat_new new, List.length_append, List.length_singleton] at few
    rw [if_neg (by rw [pending]; omega)]
    refine ⟨sdp, username, ?_, keys, done, calls⟩
    rw [eraseDups_concat_new new, ← pending]

theorem parse_completion {ufrag : Text} {s : IceCandidateSignal}
    (parsed : parseIceCandidateSignal [] ufrag = some s) : s = ⟨[], ufrag⟩ := by
  unfold parseIceCandidateSignal at parsed
  split at parsed
  · cases parsed
  · exact (Option.some.inj parsed).symm

/-- With a remote SDP both paths of a call come to the same signal. -/
theorem Follows.apply {ufrag : Text} {known : List IceCandidateSignal} {c : Call}
    {s : IceCandidateSignal} (follows : Follows ufrag known t) (parsed : c.signal = some s)
    (accepts : s ∈ admitted ufrag (known ++ [s]) → agent.addRemoteCandidate s.sdp = true)
    (completes : agent.setRemoteCandidateGatheringDone = true) :
    Follows ufrag (known ++ [s]) (apply agent t c) := by
  cases c with
  | addRemoteCandidate candidateSdp candidateUfrag =>
    exact follows.addRemoteCandidate parsed accepts completes
  | setRemoteCandidateGatheringDone candidateUfrag =>
    obtain rfl := parse_completion parsed
    simp only [IceTransport.apply, setRemoteCandidateGatheringDone]
    rw [if_neg follows.sdp]
    exact follows.gatheringDone rfl completes

theorem Waits.apply {known : List IceCandidateSignal} {c : Call} {s : IceCandidateSignal}
    (waits : Waits known t) (parsed : c.signal = some s)
    (few : (known ++ [s]).eraseDups.length ≤ 256) :
    Waits (known ++ [s]) (apply agent t c) := by
  cases c with
  | addRemoteCandidate candidateSdp candidateUfrag => exact waits.addRemoteCandidate parsed few
  | setRemoteCandidateGatheringDone candidateUfrag =>
    have fresh : t.stale candidateUfrag = false := by simp [IceTransport.stale, waits.username]
    simp only [IceTransport.apply, setRemoteCandidateGatheringDone, fresh]
    rw [if_pos waits.sdp]
    exact waits.addRemoteCandidate parsed few

variable (agent) in
/-- A run of well-formed calls before the SDP. -/
theorem waits_foldl {before : List Call} (wellFormed : ∀ c ∈ before, c.signal.isSome = true)
    (few : (signals before).eraseDups.length ≤ 256) :
    Waits (signals before) (before.foldl (apply agent) {}) := by
  induction before using List.reverseRecOn with
  | nil => exact ⟨rfl, rfl, rfl, rfl, rfl, rfl⟩
  | append_singleton before c ih =>
    obtain ⟨s, parsed⟩ := Option.isSome_iff_exists.mp (wellFormed c (by simp))
    have split : signals (before ++ [c]) = signals before ++ [s] := by
      simp [signals, parsed]
    have fewer : (signals before).eraseDups.length ≤ 256 := by
      refine le_trans ?_ few
      rw [split]
      by_cases mem : s ∈ signals before
      · rw [eraseDups_concat_mem mem]
      · simp [eraseDups_concat_new mem]
    rw [List.foldl_append, split]
    have waits := ih (fun d mem => wellFormed d (by simp [mem])) fewer
    exact waits.apply parsed (split ▸ few)

/-- A run of well-formed calls after the SDP. -/
theorem follows_foldl {ufrag : Text} {known : List IceCandidateSignal} {after : List Call}
    (follows : Follows ufrag known t) (wellFormed : ∀ c ∈ after, c.signal.isSome = true)
    (accepts : ∀ s ∈ admitted ufrag (known ++ signals after), agent.addRemoteCandidate s.sdp = true)
    (completes : agent.setRemoteCandidateGatheringDone = true) :
    Follows ufrag (known ++ signals after) (after.foldl (apply agent) t) := by
  induction after using List.reverseRecOn with
  | nil => simpa [signals] using follows
  | append_singleton after c ih =>
    obtain ⟨s, parsed⟩ := Option.isSome_iff_exists.mp (wellFormed c (by simp))
    have split : known ++ signals (after ++ [c]) = known ++ signals after ++ [s] := by
      simp [signals, parsed]
    rw [List.foldl_append, split]
    rw [split] at accepts
    have before : ∀ s ∈ admitted ufrag (known ++ signals after),
        agent.addRemoteCandidate s.sdp = true := fun s mem => accepts s (admitted_mono _ mem)
    have here := ih (fun d mem => wellFormed d (by simp [mem])) before
    exact here.apply parsed (accepts s) completes

/-- The queue is played back with the remote SDP set. A line that is too long is lost, which makes
a difference if it was admitted. -/
theorem follows_pending {ufrag : Text} (known : List IceCandidateSignal)
    (start : Follows ufrag [] t)
    (wellFormed : ∀ s ∈ known, ∃ sdp ufrag, parseIceCandidateSignal sdp ufrag = some s)
    (short : ∀ s ∈ admitted ufrag known, s.sdp.length ≤ 4096)
    (accepts : ∀ s ∈ admitted ufrag known, agent.addRemoteCandidate s.sdp = true)
    (completes : agent.setRemoteCandidateGatheringDone = true) :
    Follows ufrag known (known.eraseDups.foldl
      (fun t c => (t.addRemoteCandidate agent c.sdp c.ufrag).1) t) := by
  induction known using List.reverseRecOn with
  | nil => exact start
  | append_singleton known s ih =>
    have before := ih (fun c mem => wellFormed c (by simp [mem]))
      (fun c mem => short c (admitted_mono _ mem)) (fun c mem => accepts c (admitted_mono _ mem))
    by_cases mem : s ∈ known
    · rw [eraseDups_concat_mem mem]
      exact before.again mem
    · rw [eraseDups_concat_new mem, List.foldl_append, List.foldl_cons, List.foldl_nil]
      obtain ⟨sdp, fragment, parsed⟩ := wellFormed s (by simp)
      have again := parseIceCandidateSignal_again parsed
      split at again
      · rename_i long
        simp only [IceTransport.addRemoteCandidate, again]
        apply before.refused
        by_contra inside
        simp only [not_or, Bool.not_eq_false, Bool.not_eq_true] at inside
        have candidate : s.complete = false := by
          rw [IceCandidateSignal.complete, List.isEmpty_eq_false_iff]
          rintro empty
          rw [empty] at long
          exact absurd long (by decide)
        have grows : admitted ufrag (known ++ [s]) = admitted ufrag known ++ [s] := by
          rw [admitted_concat, if_neg (by simp [inside, candidate])]
        have fits := short s (by simp [grows])
        omega
      · exact before.addRemoteCandidate again (accepts s) completes

theorem mem_calls_gatheringDone {line candidateUfrag : Text}
    (mem : .addRemoteCandidate line ∈ (t.gatheringDone agent candidateUfrag).1.calls) :
    .addRemoteCandidate line ∈ t.calls := by
  simp only [gatheringDone] at mem
  split at mem
  · exact mem
  split at mem
  · exact mem
  split at mem <;> simpa using mem

theorem mem_calls_addRemoteCandidate {line candidateSdp candidateUfrag : Text}
    (mem : .addRemoteCandidate line ∈
      (t.addRemoteCandidate agent candidateSdp candidateUfrag).1.calls) :
    .addRemoteCandidate line ∈ t.calls ∨
      ∃ s, parseIceCandidateSignal candidateSdp candidateUfrag = some s ∧ line = s.sdp := by
  simp only [addRemoteCandidate] at mem
  split at mem
  · exact .inl mem
  rename_i s parsed
  split at mem
  · exact .inl mem
  split at mem
  · split at mem
    · exact .inl mem
    split at mem <;> exact .inl mem
  split at mem
  · exact .inl (mem_calls_gatheringDone mem)
  split at mem
  · exact .inl mem
  split at mem
  · exact .inl mem
  · have either : .addRemoteCandidate line ∈ t.calls ++ [.addRemoteCandidate s.sdp] := by
      split at mem <;> exact mem
    obtain before | new := List.mem_append.mp either
    · exact .inl before
    · exact .inr ⟨s, parsed, by simpa using new⟩

/-- What is played back has lines that fit. -/
theorem pending_short {pending : List IceCandidateSignal}
    (start : ∀ line, .addRemoteCandidate line ∈ t.calls → line.length ≤ 4096)
    (wellFormed : ∀ s ∈ pending, ∃ sdp ufrag, parseIceCandidateSignal sdp ufrag = some s)
    (line : Text) (mem : .addRemoteCandidate line ∈ (pending.foldl
      (fun t c => (t.addRemoteCandidate agent c.sdp c.ufrag).1) t).calls) :
    line.length ≤ 4096 := by
  induction pending generalizing t with
  | nil => exact start line mem
  | cons s rest ih =>
    refine ih (fun line mem => ?_) (fun c mem => wellFormed c (List.mem_cons_of_mem _ mem)) mem
    obtain before | ⟨again, parsed, rfl⟩ := mem_calls_addRemoteCandidate mem
    · exact start line before
    · obtain ⟨sdp, fragment, first⟩ := wellFormed s List.mem_cons_self
      rw [parseIceCandidateSignal_again first] at parsed
      split at parsed
      · cases parsed
      · rename_i fits
        cases parsed
        exact Nat.le_of_not_lt fits

end Pending

section Arrival

variable {agent : IceAgent} {mediaStreamSdp : Text → Text} {sdp : Text}

/-- The remote SDP is set, whatever has been queued. -/
theorem setRemoteSdp_succeeds (succeeds : (setRemoteSdp agent mediaStreamSdp {} sdp).2 = 0)
    {t : IceTransport} (username : t.remoteIceUsername = []) :
    (setRemoteSdp agent mediaStreamSdp t sdp).1 = t.pendingRemoteCandidates.foldl
      (fun t c => (t.addRemoteCandidate agent c.sdp c.ufrag).1)
      { t with
        remoteSdp := sdp
        remoteIceUsername := getIceUsername sdp
        pendingRemoteCandidates := [] } ∧ getIceUsername sdp ≠ [] ∧ sdp ≠ [] := by
  unfold setRemoteSdp at succeeds ⊢
  simp only [username, ne_eq, not_true_eq_false, false_and, if_false] at succeeds ⊢
  split at succeeds
  · exact absurd succeeds (by decide)
  rename_i fragment
  split at succeeds
  · exact absurd succeeds (by decide)
  rename_i negotiated
  split at succeeds
  · exact absurd succeeds (by decide)
  rename_i accepted
  rw [if_neg fragment, if_neg negotiated, if_neg accepted]
  refine ⟨rfl, fragment, ?_⟩
  rintro rfl
  exact fragment rfl

/-- The signals of calls come from the parser. -/
theorem signals_parsed {calls : List Call} :
    ∀ s ∈ signals calls, ∃ sdp ufrag, parseIceCandidateSignal sdp ufrag = some s := by
  intro s mem
  obtain ⟨c, -, parsed⟩ := List.mem_filterMap.mp mem
  cases c with
  | addRemoteCandidate candidateSdp candidateUfrag => exact ⟨_, _, parsed⟩
  | setRemoteCandidateGatheringDone candidateUfrag => exact ⟨_, _, parsed⟩

/-- Wherever the remote SDP comes among well-formed calls, the agent gets the same: every line of
the generation once before its first completion, and one completion. This needs that every such
line fits the parser a second time, and nothing else. -/
theorem arrives_in_any_order {calls : List Call}
    (wellFormed : ∀ c ∈ calls, c.signal.isSome = true)
    (succeeds : (setRemoteSdp agent mediaStreamSdp {} sdp).2 = 0)
    (accepts : ∀ s ∈ admitted (getIceUsername sdp) (signals calls),
      agent.addRemoteCandidate s.sdp = true)
    (completes : agent.setRemoteCandidateGatheringDone = true) :
    ((∀ s ∈ admitted (getIceUsername sdp) (signals calls), s.sdp.length ≤ 4096) →
      ∀ before after, calls = before ++ after → (signals before).eraseDups.length ≤ 256 →
        (arrive agent mediaStreamSdp before after sdp).calls =
          expected (getIceUsername sdp) (signals calls)) ∧
    ((signals calls).eraseDups.length ≤ 256 →
      (∀ before after, calls = before ++ after →
        (arrive agent mediaStreamSdp before after sdp).calls =
          expected (getIceUsername sdp) (signals calls)) →
      ∀ s ∈ admitted (getIceUsername sdp) (signals calls), s.sdp.length ≤ 4096) := by
  constructor
  · rintro short before after rfl few
    have together : signals (before ++ after) = signals before ++ signals after :=
      List.filterMap_append
    rw [together] at short accepts ⊢
    have waits := waits_foldl agent (fun c mem => wellFormed c (by simp [mem])) few
    obtain ⟨played, fragment, filled⟩ := setRemoteSdp_succeeds succeeds waits.username
    rw [arrive, played, waits.pending]
    have start : Follows (getIceUsername sdp) [] { before.foldl (apply agent) {} with
        remoteSdp := sdp
        remoteIceUsername := getIceUsername sdp
        pendingRemoteCandidates := [] } :=
      ⟨fragment, filled, rfl, by simp [waits.keys, admitted], by simp [waits.done, completed],
        by simp [waits.calls, expected, admitted, completed]⟩
    have queued := follows_pending (signals before) start signals_parsed
      (fun s mem => short s (admitted_mono _ mem)) (fun s mem => accepts s (admitted_mono _ mem))
      completes
    exact (follows_foldl queued (fun c mem => wellFormed c (by simp [mem])) accepts completes).calls
  · intro few same s mem
    have last := same calls [] (List.append_nil calls).symm
    have waits := waits_foldl agent wellFormed few
    obtain ⟨played, -, -⟩ := setRemoteSdp_succeeds succeeds waits.username
    rw [arrive, List.foldl_nil, played, waits.pending] at last
    have line := List.mem_map_of_mem (f := IceCandidateSignal.sdp) mem
    have wanted : .addRemoteCandidate s.sdp ∈ expected (getIceUsername sdp) (signals calls) :=
      List.mem_append_left _ (List.mem_map_of_mem (List.mem_eraseDups.mpr line))
    rw [← last] at wanted
    exact pending_short (by simp [waits.calls])
      (fun c mem => signals_parsed c (List.mem_eraseDups.mp mem)) s.sdp wanted

end Arrival

/-- An agent whose calls all succeed. -/
def willing : IceAgent := ⟨fun _ => true, fun _ => true, true⟩

def hostLine : Text := "candidate:1 1 udp 9 1.2.3.4 5 typ host".toList

/-- The SDP comes after a candidate of another generation and before a second copy. -/
theorem arrives_in_any_order_between :
    (arrive willing id
      [.addRemoteCandidate ("candidate:2 1 udp 9 1.2.3.4 6 typ host".toList) "old".toList,
        .addRemoteCandidate hostLine []]
      [.addRemoteCandidate hostLine "ab".toList, .setRemoteCandidateGatheringDone "ab".toList,
        .addRemoteCandidate ("candidate:3 1 udp 9 1.2.3.4 7 typ host".toList) []]
      "a=ice-ufrag:ab".toList).calls =
        [.addRemoteCandidate ("a=".toList ++ hostLine), .setRemoteCandidateGatheringDone] := by
  unfold hostLine
  repeat rw [String.toList_ofList]
  refine ((arrives_in_any_order ?_ ?_ (fun _ _ => rfl) rfl).1 ?_
    [_, _] [_, _, _] rfl ?_).trans ?_
  · decide
  · rfl
  · decide
  · decide
  · rfl

def longHead : Text := "candidate:1 1 udp 9 1.2.3.4 5 typ host x ".toList

/-- A candidate with an extension of any length. -/
def longLine (filler : Text) : Text := longHead ++ filler

theorem length_longLine {filler : Text} : (longLine filler).length = 41 + filler.length := by
  have head : longHead.length = 41 := rfl
  rw [longLine, List.length_append, head]

theorem fields_longLine {filler : Text} (plain : ∀ c ∈ filler, Text.isSpace c = false)
    (filled : filler ≠ []) : Text.fields (longLine filler) = ["candidate:1".toList, "1".toList,
      "udp".toList, "9".toList, "1.2.3.4".toList, "5".toList, "typ".toList, "host".toList,
      "x".toList, filler] := by
  have last : Text.fieldsFrom [] filler = [filler] := Text.fieldsFrom_plain plain filled
  have start : Text.fields (longLine filler) = ["candidate:1".toList, "1".toList,
      "udp".toList, "9".toList, "1.2.3.4".toList, "5".toList, "typ".toList, "host".toList,
      "x".toList] ++ Text.fieldsFrom [] filler := by
    unfold longLine longHead
    repeat rw [String.toList_ofList]
    rfl
  rw [start, last]
  rfl

theorem parseCandidate_longLine {filler : Text} (plain : ∀ c ∈ filler, Text.isSpace c = false)
    (filled : filler ≠ []) :
    parseCandidate (longLine filler) [] = some ⟨"a=".toList ++ longLine filler, []⟩ := by
  have starts : "candidate:".toList.isPrefixOf (longLine filler) = true := rfl
  rw [parseCandidate, starts, if_neg (by decide), fields_longLine plain filled,
    if_neg (by simp)]
  rfl

theorem trim_longLine {filler : Text} (filled : filler ≠ []) (letters : ∀ c ∈ filler, c = 'y') :
    trimIceWhitespace (longLine filler) = longLine filler := by
  apply trimIceWhitespace_trimmed
  · intro c head
    cases head
    rfl
  · intro c tail
    rw [longLine, List.getLast?_append_of_ne_nil _ filled] at tail
    rw [letters c (List.mem_of_getLast? tail)]
    rfl

theorem parse_longLine {filler : Text} (filled : filler ≠ []) (short : filler.length ≤ 4055)
    (letters : ∀ c ∈ filler, c = 'y') :
    parseIceCandidateSignal (longLine filler) [] = some ⟨"a=".toList ++ longLine filler, []⟩ := by
  have mem {c : Char} (inside : c ∈ longLine filler) : c ∈ longHead ∨ c = 'y' :=
    (List.mem_append.mp inside).imp_right (letters c)
  have head : longHead = _ := String.toList_ofList
  rw [head] at mem
  have fits : ¬ (4096 < (longLine filler).length ∨ 256 < ([] : Text).length ∨
      '\x00' ∈ longLine filler ∨ '\x00' ∈ ([] : Text) ∨
      ([] : Text).any isIceWhitespace = true) := by
    rintro (long | long | nul | nul | space)
    · rw [length_longLine] at long
      omega
    · cases long
    · exact absurd (mem nul) (by decide)
    · cases nul
    · cases space
  have single : ¬ ('\r' ∈ longLine filler ∨ '\n' ∈ longLine filler) := by
    rintro (line | line) <;> exact absurd (mem line) (by decide)
  have starts : ¬ "a=".toList.isPrefixOf (longLine filler) = true := by
    have front : "a=".toList.isPrefixOf (longLine filler) = false := rfl
    rw [front]
    exact Bool.false_ne_true
  have line : ¬ (longLine filler = [] ∨ longLine filler = "a=end-of-candidates".toList ∨
      longLine filler = "end-of-candidates".toList) := by
    rintro (same | same | same) <;> cases same
  rw [parseIceCandidateSignal, if_neg fits]
  simp only [trim_longLine filled letters]
  rw [if_neg line, if_neg single, if_neg starts]
  exact parseCandidate_longLine (fun c inside => by rw [letters c inside]; rfl) filled

/-- With the SDP first the agent gets the long candidate, with the SDP last it does not. -/
theorem late_sdp_loses_candidate :
    (arrive willing id [] [.addRemoteCandidate (longLine (List.replicate 4055 'y')) []]
        "a=ice-ufrag:ab".toList).calls =
          [.addRemoteCandidate ("a=".toList ++ longLine (List.replicate 4055 'y'))] ∧
      (arrive willing id [.addRemoteCandidate (longLine (List.replicate 4055 'y')) []] []
        "a=ice-ufrag:ab".toList).calls = [] := by
  have letters : ∀ c ∈ List.replicate 4055 'y', c = 'y' := fun c mem => List.eq_of_mem_replicate mem
  have length : (List.replicate 4055 'y').length = 4055 := List.length_replicate
  have filled : List.replicate 4055 'y' ≠ [] := List.ne_nil_of_length_pos (by omega)
  generalize List.replicate 4055 'y' = filler at *
  have parsed := parse_longLine filled (by omega) letters
  have again := parseIceCandidateSignal_again parsed
  have long : 4096 < ("a=".toList ++ longLine filler).length := by
    rw [List.length_append, length_longLine, length]
    decide
  rw [if_pos long] at again
  constructor
  · have first : setRemoteSdp willing id {} "a=ice-ufrag:ab".toList =
        ({ remoteSdp := "a=ice-ufrag:ab".toList, remoteIceUsername := "ab".toList }, 0) := by
      repeat rw [String.toList_ofList]
      rfl
    rw [arrive, List.foldl_nil, first, List.foldl_cons, List.foldl_nil, apply, addRemoteCandidate,
      parsed]
    rfl
  · have waits : apply willing {} (.addRemoteCandidate (longLine filler) []) =
        { pendingRemoteCandidates := [⟨"a=".toList ++ longLine filler, []⟩] } := by
      rw [apply, addRemoteCandidate, parsed]
      rfl
    have lost (t : IceTransport) :
        (addRemoteCandidate willing t ("a=".toList ++ longLine filler) []).1 = t := by
      rw [addRemoteCandidate, again]
    have agreed : getIceUsername "a=ice-ufrag:ab".toList = "ab".toList := by
      repeat rw [String.toList_ofList]
      rfl
    rw [arrive, List.foldl_nil, List.foldl_cons, List.foldl_nil, waits, setRemoteSdp, agreed,
      if_neg (by decide), if_neg (fun other => other.1 rfl), if_neg (by decide),
      if_neg (by decide)]
    exact congrArg calls (lost _)

end IceTransport
end MiniRtc.Transport
