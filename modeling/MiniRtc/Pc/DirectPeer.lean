import MiniRtc.Lib.Runs
import MiniRtc.Ice.DirectPolicy

/-! The signals that a direct peer takes from the application (direct_peer.cpp). An event is one
region of `direct_mutex_`, or one atomic step of `ReportDirectError`. The JSON parser is a
parameter, and so are addresses. -/
namespace MiniRtc.Pc

open Ice

/-- What is read of a JSON value. -/
inductive Value where
  | string (s : Text)
  | boolean (b : Bool)
  | other
deriving DecidableEq

/-- A JSON object. -/
abbrev Fields := List (String × Value)

def Fields.find (j : Fields) (key : String) : Option Value :=
  (j.find? fun field => field.1 = key).map Prod.snd

def Fields.contains (j : Fields) (key : String) : Bool := (j.find key).isSome

def Fields.string (j : Fields) (key : String) : Option Text :=
  match j.find key with
  | some (.string s) => some s
  | _ => none

inductive MiniRtcDirectError where
  | invalidSignal
  | signalSendFailed
  | dtlsHandshakeFailed
  | requiredCryptoUnsupported
  | srtpInstallFailed
  | networkPolicyFailed
  | fingerprintMissing
  | fingerprintMismatch
  | srtpKeyExportFailed
deriving DecidableEq, Repr

inductive MsgType where
  | offer
  | answer
  | newCandidate
deriving DecidableEq, Repr

structure IceWorkMsg where
  type : MsgType
  transmissionId : Text
  remoteUserId : Text
  remoteSdp : Text := []
  candidateUfrag : Text := []
  newCandidate : Text := []
deriving DecidableEq, Repr

def endOfCandidates : Text := "a=end-of-candidates\r\n".toList

/-- How far a call of `ReportDirectError` has come. -/
inductive Report where
  | exchange (error : MiniRtcDirectError)
  | close (error : MiniRtcDirectError)
  | callback (error : MiniRtcDirectError)
  | terminal
  | done
deriving DecidableEq, Repr

/-- What `InitDirect` has set, and what the peer is given from outside. -/
structure DirectOptions (α : Type) where
  offerer : Bool
  sessionId : Text
  remoteId : Text
  remoteAddress : Text
  addresses : DirectAddresses α
  parse : List UInt8 → Option Fields

/-- A started peer. Behind the fields of the source come the calls of `ReportDirectError`, the
messages for the ICE worker, the sizes of the messages that went to the parser, the errors that
the application was told, and how often it was told a terminal status. -/
structure DirectPeer where
  remoteSdp : Bool := false
  remoteEnd : Bool := false
  receivedBytes : Nat := 0
  receivedMessages : Nat := 0
  remoteUfrag : Text := []
  candidates : Finset Text := ∅
  closing : Bool := false
  errorReported : Bool := false
  terminalReported : Bool := false
  reporting : List Report := []
  pushed : List IceWorkMsg := []
  accepted : List Nat := []
  errors : List MiniRtcDirectError := []
  statuses : Nat := 0
deriving DecidableEq

namespace DirectPeer

def reportDirectError (d : DirectPeer) (error : MiniRtcDirectError) : DirectPeer :=
  { d with reporting := d.reporting ++ [.exchange error] }

def fail (d : DirectPeer) : DirectPeer := d.reportDirectError .invalidSignal

def pushIceWorkMsg (d : DirectPeer) (msg : IceWorkMsg) : DirectPeer :=
  { d with pushed := d.pushed ++ [msg] }

section Receive

variable {α : Type} [DecidableEq α] (options : DirectOptions α)

def receiveSdp (d : DirectPeer) (type : MsgType) (j : Fields) : DirectPeer :=
  if d.remoteSdp ∨ (type = .answer) ≠ options.offerer then d.fail
  else
    match j.string "sdp" with
    | none => d.fail
    | some sdp =>
      let valid := validateDirectSdp options.addresses options.remoteAddress sdp d.candidates
      let d := { d with candidates := valid.2 }
      match valid.1 with
      | none => d.fail
      | some remoteUfrag =>
        if d.remoteUfrag ≠ [] ∧ remoteUfrag ≠ d.remoteUfrag then d.fail
        else
          { d with remoteUfrag, remoteSdp := true }.pushIceWorkMsg
            { type
              transmissionId := options.sessionId
              remoteUserId := options.remoteId
              remoteSdp := sdp }

/-- A candidate or the end of them, after the checks of the fragment. -/
def receiveLine (d : DirectPeer) (candidateUfrag : Text) (j : Fields) : DirectPeer :=
  let msg : IceWorkMsg :=
    { type := .newCandidate
      transmissionId := options.sessionId
      remoteUserId := options.remoteId
      candidateUfrag }
  match j.find "end_of_candidates" with
  | some marker =>
    if marker ≠ .boolean true ∨ j.contains "candidate" then d.fail
    else { d with remoteEnd := true }.pushIceWorkMsg { msg with newCandidate := endOfCandidates }
  | none =>
    match j.string "candidate" with
    | none => d.fail
    | some newCandidate =>
      match normalizeDirectCandidate options.addresses options.remoteAddress newCandidate with
      | none => d.fail
      | some normalized =>
        if normalized ∈ d.candidates then d
        else
          let d := { d with candidates := insert normalized d.candidates }
          if 128 < d.candidates.card then d.fail else d.pushIceWorkMsg { msg with newCandidate }

def receiveCandidate (d : DirectPeer) (j : Fields) : DirectPeer :=
  if d.remoteEnd ∨ options.offerer = false ∧ d.remoteSdp = false then d.fail
  else
    match j.string "ufrag" with
    | none => d.fail
    | some ufrag =>
      if ufrag = [] ∨ 256 < ufrag.length ∨ d.remoteUfrag ≠ [] ∧ ufrag ≠ d.remoteUfrag then d.fail
      else receiveLine options { d with remoteUfrag := ufrag } ufrag j

def receiveObject (d : DirectPeer) (j : Fields) : DirectPeer :=
  match j.string "type" with
  | none => d.fail
  | some type =>
    if j.string "session_id" ≠ some options.sessionId ∨ j.contains "user_id" ∨
        j.contains "remote_user_id" then d.fail
    else if type = "offer".toList then receiveSdp options d .offer j
    else if type = "answer".toList then receiveSdp options d .answer j
    else if type = "candidate".toList then receiveCandidate options d j
    else d.fail

/-- The region of `ReceiveDirect`; a null pointer is no message. -/
def receiveDirect (d : DirectPeer) (message : Option (List UInt8)) : DirectPeer :=
  if d.closing then d
  else
    match message with
    | none => d.fail
    | some message =>
      if message.length = 0 ∨ 256 * 1024 < message.length then d.fail
      else
        let d := { d with receivedMessages := d.receivedMessages + 1 }
        if 256 < d.receivedMessages then d.fail
        else
          let d := { d with receivedBytes := d.receivedBytes + message.length }
          if 1024 * 1024 < d.receivedBytes then d.fail
          else
            let d := { d with accepted := d.accepted ++ [message.length] }
            match options.parse message with
            | none => d.fail
            | some j => receiveObject options d j

end Receive

/-- A terminal status goes to the application once. -/
def reportTerminal (d : DirectPeer) : DirectPeer :=
  if d.terminalReported then d
  else { d with terminalReported := true, statuses := d.statuses + 1 }

/-- The next step of a call of `ReportDirectError`. -/
def report (d : DirectPeer) (i : Nat) : Option DirectPeer :=
  match d.reporting[i]? with
  | none | some .done => none
  | some (.exchange error) =>
    if d.errorReported then some { d with reporting := d.reporting.set i .done }
    else some { d with errorReported := true, reporting := d.reporting.set i (.close error) }
  | some (.close error) =>
    some { d with closing := true, reporting := d.reporting.set i (.callback error) }
  | some (.callback error) =>
    some { d with errors := d.errors ++ [error], reporting := d.reporting.set i .terminal }
  | some .terminal =>
    some { d.reportTerminal with reporting := d.reporting.set i .done }

end DirectPeer

inductive DirectEvent where
  | receiveDirect (message : Option (List UInt8))
  | report (i : Nat)
  | reportDirectError (error : MiniRtcDirectError)
  | connectionStatus
  | closeDirect
deriving DecidableEq

/-- The errors of the transport, a terminal status and `CloseDirect` come from elsewhere. -/
def DirectPeer.step {α : Type} [DecidableEq α] (options : DirectOptions α) (d : DirectPeer) :
    DirectEvent → Option DirectPeer
  | .receiveDirect message => some (d.receiveDirect options message)
  | .report i => d.report i
  | .reportDirectError error => some (d.reportDirectError error)
  | .connectionStatus => some d.reportTerminal
  | .closeDirect => some { d with closing := true }

/-! What the ICE worker should get. -/

def IceWorkMsg.isSdp (m : IceWorkMsg) : Bool := m.type ≠ .newCandidate

def IceWorkMsg.isEnd (m : IceWorkMsg) : Bool :=
  m.type = .newCandidate && m.newCandidate = endOfCandidates

/-- The candidate lines of a message. -/
def IceWorkMsg.lines (m : IceWorkMsg) : List Text :=
  if m.isSdp then candidateLines m.remoteSdp else if m.isEnd then [] else [m.newCandidate]

/-- The message is of the generation with this fragment. -/
def IceWorkMsg.OfGeneration (ufrag : Text) (m : IceWorkMsg) : Prop :=
  if m.isSdp then ufragLines m.remoteSdp ≠ [] ∧ ∀ line ∈ ufragLines m.remoteSdp, line.drop 12 = ufrag
  else m.candidateUfrag = ufrag

section Admitted

variable {α : Type} [DecidableEq α] (options : DirectOptions α)

def normalize (line : Text) : Option Text :=
  normalizeDirectCandidate options.addresses options.remoteAddress line

/-- The candidates of messages, in their normal form. -/
def normals (pushed : List IceWorkMsg) : Finset Text :=
  (pushed.flatMap fun m => m.lines.filterMap (normalize options)).toFinset

/-- The messages make up one generation, pinned to the remote address. -/
structure Admitted (pushed : List IceWorkMsg) : Prop where
  oneSdp : pushed.countP IceWorkMsg.isSdp ≤ 1
  role : ∀ m ∈ pushed, m.isSdp = true → m.type = if options.offerer then .answer else .offer
  generation : ∃ ufrag, ∀ m ∈ pushed, m.OfGeneration ufrag
  offerFirst : options.offerer = false → ∀ before m, before ++ [m] <+: pushed →
    m.type = .newCandidate → ∃ offer ∈ before, offer.isSdp = true
  oneEnd : pushed.countP IceWorkMsg.isEnd ≤ 1
  endLast : pushed.Pairwise fun m n => m.isEnd = true → n.type ≠ .newCandidate
  host : ∀ m ∈ pushed, ∀ line ∈ m.lines,
    HostCandidate options.addresses options.remoteAddress line
  distinct : pushed.Pairwise fun m n => n.isSdp = false → ∀ line ∈ m.lines, ∀ other ∈ n.lines,
    normalize options line ≠ normalize options other
  few : (normals options pushed).card ≤ 128

/-- What the state keeps of the messages. -/
structure Tracked (d : DirectPeer) : Prop where
  sdp : d.pushed.countP IceWorkMsg.isSdp = if d.remoteSdp then 1 else 0
  role : ∀ m ∈ d.pushed, m.isSdp = true → m.type = if options.offerer then .answer else .offer
  generation : d.pushed ≠ [] → d.remoteUfrag ≠ []
  ufrag : ∀ m ∈ d.pushed, m.OfGeneration d.remoteUfrag
  offerFirst : options.offerer = false → ∀ before m, before ++ [m] <+: d.pushed →
    m.type = .newCandidate → ∃ offer ∈ before, offer.isSdp = true
  ends : d.pushed.countP IceWorkMsg.isEnd = if d.remoteEnd then 1 else 0
  endLast : d.pushed.Pairwise fun m n => m.isEnd = true → n.type ≠ .newCandidate
  candidates : ∀ m ∈ d.pushed, ∀ line ∈ m.lines,
    ∃ normal ∈ d.candidates, normalize options line = some normal
  distinct : d.pushed.Pairwise fun m n => n.isSdp = false → ∀ line ∈ m.lines, ∀ other ∈ n.lines,
    normalize options line ≠ normalize options other
  few : (normals options d.pushed).card ≤ 128

variable {options} {d d' : DirectPeer}

theorem Tracked.admitted (tracked : Tracked options d) : Admitted options d.pushed where
  oneSdp := by
    have sdp := tracked.sdp
    split at sdp <;> omega
  role := tracked.role
  generation := ⟨d.remoteUfrag, tracked.ufrag⟩
  offerFirst := tracked.offerFirst
  oneEnd := by
    have ends := tracked.ends
    split at ends <;> omega
  endLast := tracked.endLast
  host m mem line inside := by
    obtain ⟨normal, -, normalized⟩ := tracked.candidates m mem line inside
    exact hostCandidate_of_normalize normalized
  distinct := tracked.distinct
  few := tracked.few

/-- Nothing is pushed, and what is known of the generation stays. -/
structure Kept (d d' : DirectPeer) : Prop where
  pushed : d'.pushed = d.pushed
  remoteSdp : d'.remoteSdp = d.remoteSdp
  remoteEnd : d'.remoteEnd = d.remoteEnd
  remoteUfrag : d.remoteUfrag ≠ [] → d'.remoteUfrag = d.remoteUfrag
  candidates : d.candidates ⊆ d'.candidates

theorem Tracked.kept (tracked : Tracked options d) (kept : Kept d d') : Tracked options d' := by
  obtain ⟨pushed, remoteSdp, remoteEnd, remoteUfrag, candidates⟩ := kept
  constructor
  · rw [pushed, remoteSdp]
    exact tracked.sdp
  · rw [pushed]
    exact tracked.role
  · rw [pushed]
    intro some
    have filled := tracked.generation some
    rwa [remoteUfrag filled]
  · rw [pushed]
    intro m mem
    rw [remoteUfrag (tracked.generation (List.ne_nil_of_mem mem))]
    exact tracked.ufrag m mem
  · rw [pushed]
    exact tracked.offerFirst
  · rw [pushed, remoteEnd]
    exact tracked.ends
  · rw [pushed]
    exact tracked.endLast
  · rw [pushed]
    intro m mem line inside
    obtain ⟨normal, there, normalized⟩ := tracked.candidates m mem line inside
    exact ⟨normal, candidates there, normalized⟩
  · rw [pushed]
    exact tracked.distinct
  · rw [pushed]
    exact tracked.few

/-- A message is pushed that fits what is known of the generation. -/
structure Pushes (options : DirectOptions α) (d : DirectPeer) (m : IceWorkMsg) (d' : DirectPeer) :
    Prop where
  pushed : d'.pushed = d.pushed ++ [m]
  first : m.isSdp = true → d.remoteSdp = false ∧
    m.type = if options.offerer then .answer else .offer
  remoteSdp : d'.remoteSdp = (d.remoteSdp || m.isSdp)
  filled : d'.remoteUfrag ≠ []
  kept : d.remoteUfrag ≠ [] → d'.remoteUfrag = d.remoteUfrag
  generation : m.OfGeneration d'.remoteUfrag
  offered : options.offerer = false → m.isSdp = false → d.remoteSdp = true
  goesOn : m.isSdp = false → d.remoteEnd = false
  remoteEnd : d'.remoteEnd = (d.remoteEnd || m.isEnd)
  candidates : d.candidates ⊆ d'.candidates
  lines : ∀ line ∈ m.lines, ∃ normal ∈ d'.candidates, normalize options line = some normal
  fresh : m.isSdp = false → ∀ line ∈ m.lines, ∀ normal ∈ d.candidates,
    normalize options line ≠ some normal
  few : m.lines ≠ [] → d'.candidates.card ≤ 128

theorem isSdp_of_isEnd {m : IceWorkMsg} (last : m.isEnd = true) : m.isSdp = false := by
  simp only [IceWorkMsg.isEnd, Bool.and_eq_true, decide_eq_true_eq] at last
  simp [IceWorkMsg.isSdp, last.1]

theorem mem_normals {pushed : List IceWorkMsg} {normal : Text} : normal ∈ normals options pushed ↔
    ∃ m ∈ pushed, ∃ line ∈ m.lines, normalize options line = some normal := by
  simp [normals]

theorem Tracked.push {m : IceWorkMsg} (tracked : Tracked options d)
    (pushes : Pushes options d m d') : Tracked options d' := by
  have pushed := pushes.pushed
  have ufrag (n : IceWorkMsg) (mem : n ∈ d.pushed) : n.OfGeneration d'.remoteUfrag := by
    rw [pushes.kept (tracked.generation (List.ne_nil_of_mem mem))]
    exact tracked.ufrag n mem
  have candidates (n : IceWorkMsg) (mem : n ∈ d'.pushed) (line : Text) (inside : line ∈ n.lines) :
      ∃ normal ∈ d'.candidates, normalize options line = some normal := by
    rw [pushed] at mem
    obtain old | new := List.mem_append.mp mem
    · obtain ⟨normal, there, normalized⟩ := tracked.candidates n old line inside
      exact ⟨normal, pushes.candidates there, normalized⟩
    · cases List.mem_singleton.mp new
      exact pushes.lines line inside
  constructor
  · rw [pushed, List.countP_append, List.countP_singleton, pushes.remoteSdp, tracked.sdp]
    cases sdp : m.isSdp with
    | true => simp [(pushes.first sdp).1]
    | false => simp
  · rw [pushed]
    intro n mem sdp
    obtain old | new := List.mem_append.mp mem
    · exact tracked.role n old sdp
    · cases List.mem_singleton.mp new
      exact (pushes.first sdp).2
  · exact fun _ => pushes.filled
  · rw [pushed]
    intro n mem
    obtain old | new := List.mem_append.mp mem
    · exact ufrag n old
    · cases List.mem_singleton.mp new
      exact pushes.generation
  · rw [pushed]
    intro answerer before n here candidate
    obtain same | old := List.prefix_concat_iff.mp here
    · obtain ⟨rfl, last⟩ := List.append_inj' same rfl
      cases last
      have offered := pushes.offered answerer (by simp [IceWorkMsg.isSdp, candidate])
      have sdp := tracked.sdp
      rw [offered, if_pos rfl] at sdp
      exact List.countP_pos_iff.mp (by omega)
    · exact tracked.offerFirst answerer before n old candidate
  · rw [pushed, List.countP_append, List.countP_singleton, pushes.remoteEnd, tracked.ends]
    cases last : m.isEnd with
    | true => simp [pushes.goesOn (isSdp_of_isEnd last)]
    | false => simp
  · rw [pushed, List.pairwise_append]
    refine ⟨tracked.endLast, List.pairwise_singleton _ _, ?_⟩
    intro n old k new last candidate
    cases List.mem_singleton.mp new
    have ended := pushes.goesOn (by simp [IceWorkMsg.isSdp, candidate])
    have ends := tracked.ends
    rw [ended] at ends
    exact List.countP_eq_zero.mp ends n old last
  · exact candidates
  · rw [pushed, List.pairwise_append]
    refine ⟨tracked.distinct, List.pairwise_singleton _ _, ?_⟩
    intro n old k new single line inside other within same
    cases List.mem_singleton.mp new
    obtain ⟨normal, there, normalized⟩ := tracked.candidates n old line inside
    exact pushes.fresh single other within normal there (same.symm.trans normalized)
  · by_cases bare : m.lines = []
    · have same : normals options d'.pushed = normals options d.pushed := by
        rw [pushed, normals, normals, List.flatMap_append, List.flatMap_singleton, bare]
        simp
      rw [same]
      exact tracked.few
    · have inside : normals options d'.pushed ⊆ d'.candidates := by
        intro normal mem
        obtain ⟨n, member, line, within, normalized⟩ := mem_normals.mp mem
        obtain ⟨other, there, same⟩ := candidates n member line within
        cases normalized.symm.trans same
        exact there
      exact (Finset.card_le_card inside).trans (pushes.few bare)

theorem Tracked.fail (tracked : Tracked options d) : Tracked options d.fail :=
  tracked.kept ⟨rfl, rfl, rfl, fun _ => rfl, Finset.Subset.refl _⟩

theorem Tracked.receiveSdp {type : MsgType} (tracked : Tracked options d)
    (sdp : type ≠ .newCandidate) (j : Fields) :
    Tracked options (d.receiveSdp options type j) := by
  unfold DirectPeer.receiveSdp
  split
  · exact tracked.fail
  rename_i expected
  simp only [not_or, Bool.not_eq_true, not_not] at expected
  split
  · exact tracked.fail
  rename_i text _
  obtain ⟨grown, valid⟩ := validateDirectSdp_spec options.addresses options.remoteAddress text
    d.candidates
  have kept : Tracked options { d with candidates := (validateDirectSdp options.addresses
      options.remoteAddress text d.candidates).2 } :=
    tracked.kept ⟨rfl, rfl, rfl, fun _ => rfl, grown⟩
  simp only
  split
  · exact kept.fail
  rename_i ufrag accepted
  obtain ⟨filled, some, same, lines, few⟩ := valid ufrag accepted
  split
  · exact kept.fail
  rename_i agrees
  simp only [not_and, not_not] at agrees
  have isSdp : (⟨type, options.sessionId, options.remoteId, text, [], []⟩ : IceWorkMsg).isSdp =
      true := by
    simp [IceWorkMsg.isSdp, sdp]
  have notEnd : (⟨type, options.sessionId, options.remoteId, text, [], []⟩ : IceWorkMsg).isEnd =
      false := by
    simp [IceWorkMsg.isEnd, sdp]
  have role : type = if options.offerer then .answer else .offer := by
    cases type with
    | offer =>
      rw [if_neg]
      rw [← expected.2]
      exact MsgType.noConfusion
    | answer =>
      rw [if_pos]
      rw [← expected.2]
    | newCandidate => exact absurd rfl sdp
  refine tracked.push (m := ⟨type, options.sessionId, options.remoteId, text, [], []⟩)
    ⟨rfl, fun _ => ⟨expected.1, role⟩, ?_, filled, agrees, ?_, ?_, ?_, ?_, grown, ?_, ?_, ?_⟩
  · rw [isSdp, Bool.or_true]
    rfl
  · rw [IceWorkMsg.OfGeneration, if_pos isSdp]
    exact ⟨some, same⟩
  · intro _ other
    cases isSdp.symm.trans other
  · intro other
    cases isSdp.symm.trans other
  · rw [notEnd, Bool.or_false]
    rfl
  · rw [IceWorkMsg.lines, if_pos isSdp]
    exact lines
  · intro other
    cases isSdp.symm.trans other
  · rw [IceWorkMsg.lines, if_pos isSdp]
    exact few

theorem normalize_endOfCandidates : normalize options endOfCandidates = none := rfl

theorem Tracked.pushEnd {ufrag : Text} (tracked : Tracked options d) (goesOn : d.remoteEnd = false)
    (offered : options.offerer = false → d.remoteSdp = true) (filled : ufrag ≠ [])
    (same : d.remoteUfrag = ufrag) :
    Tracked options ({ d with remoteEnd := true }.pushIceWorkMsg
      ⟨.newCandidate, options.sessionId, options.remoteId, [], ufrag, endOfCandidates⟩) := by
  have isEnd : (⟨.newCandidate, options.sessionId, options.remoteId, [], ufrag,
      endOfCandidates⟩ : IceWorkMsg).isEnd = true := by simp [IceWorkMsg.isEnd]
  have lines : (⟨.newCandidate, options.sessionId, options.remoteId, [], ufrag,
      endOfCandidates⟩ : IceWorkMsg).lines = [] := by
    rw [IceWorkMsg.lines, if_neg (by simp [isSdp_of_isEnd isEnd]), if_pos isEnd]
  refine tracked.push (m := ⟨.newCandidate, options.sessionId, options.remoteId, [], ufrag,
    endOfCandidates⟩) ⟨rfl, ?_, ?_, same ▸ filled, fun _ => rfl, ?_, fun answerer _ =>
    offered answerer, fun _ => goesOn, ?_, Finset.Subset.refl _, ?_, ?_, ?_⟩
  · intro sdp
    cases (isSdp_of_isEnd isEnd).symm.trans sdp
  · rw [isSdp_of_isEnd isEnd, Bool.or_false]
    rfl
  · rw [IceWorkMsg.OfGeneration, if_neg (by simp [isSdp_of_isEnd isEnd])]
    exact same.symm
  · rw [isEnd, Bool.or_true]
    rfl
  · simp [lines]
  · simp [lines]
  · simp [lines]

theorem Tracked.pushCandidate {ufrag candidate normal : Text} (tracked : Tracked options d)
    (goesOn : d.remoteEnd = false) (offered : options.offerer = false → d.remoteSdp = true)
    (filled : ufrag ≠ []) (same : d.remoteUfrag = ufrag)
    (normalized : normalize options candidate = some normal) (fresh : normal ∉ d.candidates)
    (few : (insert normal d.candidates).card ≤ 128) :
    Tracked options ({ d with candidates := insert normal d.candidates }.pushIceWorkMsg
      ⟨.newCandidate, options.sessionId, options.remoteId, [], ufrag, candidate⟩) := by
  have isSdp : (⟨.newCandidate, options.sessionId, options.remoteId, [], ufrag,
      candidate⟩ : IceWorkMsg).isSdp = false := rfl
  have notEnd : (⟨.newCandidate, options.sessionId, options.remoteId, [], ufrag,
      candidate⟩ : IceWorkMsg).isEnd = false := by
    have other : candidate ≠ endOfCandidates := by
      rintro rfl
      cases normalize_endOfCandidates.symm.trans normalized
    simp [IceWorkMsg.isEnd, other]
  have lines : (⟨.newCandidate, options.sessionId, options.remoteId, [], ufrag,
      candidate⟩ : IceWorkMsg).lines = [candidate] := by
    rw [IceWorkMsg.lines, if_neg (by simp [isSdp]), if_neg (by simp [notEnd])]
  refine tracked.push (m := ⟨.newCandidate, options.sessionId, options.remoteId, [], ufrag,
    candidate⟩) ⟨rfl, ?_, ?_, same ▸ filled, fun _ => rfl, ?_, fun answerer _ => offered answerer,
    fun _ => goesOn, ?_, Finset.subset_insert _ _, ?_, ?_, fun _ => few⟩
  · intro sdp
    cases isSdp.symm.trans sdp
  · rw [isSdp, Bool.or_false]
    rfl
  · rw [IceWorkMsg.OfGeneration, if_neg (by simp [isSdp])]
    exact same.symm
  · rw [notEnd, Bool.or_false]
    rfl
  · rw [lines]
    intro line mem
    cases List.mem_singleton.mp mem
    exact ⟨normal, Finset.mem_insert_self _ _, normalized⟩
  · rw [lines]
    intro _ line mem other there same
    cases List.mem_singleton.mp mem
    cases normalized.symm.trans same
    exact fresh there

theorem Tracked.receiveLine {ufrag : Text} (tracked : Tracked options d)
    (goesOn : d.remoteEnd = false) (offered : options.offerer = false → d.remoteSdp = true)
    (filled : ufrag ≠ []) (same : d.remoteUfrag = ufrag) (j : Fields) :
    Tracked options (d.receiveLine options ufrag j) := by
  unfold DirectPeer.receiveLine
  simp only
  split
  · split
    · exact tracked.fail
    · exact tracked.pushEnd goesOn offered filled same
  split
  · exact tracked.fail
  split
  · exact tracked.fail
  rename_i normal normalized
  split
  · exact tracked
  rename_i fresh
  have kept : Tracked options { d with candidates := insert normal d.candidates } :=
    tracked.kept ⟨rfl, rfl, rfl, fun _ => rfl, Finset.subset_insert _ _⟩
  split
  · exact kept.fail
  rename_i fits
  exact tracked.pushCandidate goesOn offered filled same normalized fresh (Nat.le_of_not_lt fits)

theorem Tracked.receiveCandidate (tracked : Tracked options d) (j : Fields) :
    Tracked options (d.receiveCandidate options j) := by
  unfold DirectPeer.receiveCandidate
  split
  · exact tracked.fail
  rename_i goesOn
  simp only [not_or, not_and, Bool.not_eq_false, Bool.not_eq_true] at goesOn
  split
  · exact tracked.fail
  rename_i ufrag _
  split
  · exact tracked.fail
  rename_i agrees
  simp only [not_or, not_and, not_not] at agrees
  have kept : Tracked options { d with remoteUfrag := ufrag } :=
    tracked.kept ⟨rfl, rfl, rfl, agrees.2.2, Finset.Subset.refl _⟩
  exact kept.receiveLine goesOn.1 goesOn.2 agrees.1 rfl j

theorem Tracked.receiveObject (tracked : Tracked options d) (j : Fields) :
    Tracked options (d.receiveObject options j) := by
  unfold DirectPeer.receiveObject
  split
  · exact tracked.fail
  split
  · exact tracked.fail
  split
  · exact tracked.receiveSdp (by decide) j
  split
  · exact tracked.receiveSdp (by decide) j
  split
  · exact tracked.receiveCandidate j
  · exact tracked.fail

/-- The call has made the exchange, and the application is still to be told. -/
def Report.claimed : Report → Bool
  | .close _ | .callback _ => true
  | _ => false

/-- The limits of what is accepted and reported. -/
structure Limited (d : DirectPeer) : Prop where
  counted : d.accepted.length ≤ d.receivedMessages ∧ d.accepted.length ≤ 256
  summed : d.accepted.sum ≤ d.receivedBytes ∧ d.accepted.sum ≤ 1024 * 1024
  errors : d.errors.length + d.reporting.countP Report.claimed = if d.errorReported then 1 else 0
  statuses : d.statuses = if d.terminalReported then 1 else 0
  closed : d.errors ≠ [] → d.closing = true
  closes : ∀ error, .callback error ∈ d.reporting → d.closing = true

/-- A message changes neither what counts towards the limits nor what has been reported. -/
structure Framed (d d' : DirectPeer) : Prop where
  accepted : d'.accepted = d.accepted
  received : d'.receivedMessages = d.receivedMessages ∧ d'.receivedBytes = d.receivedBytes
  reported : d'.errorReported = d.errorReported ∧ d'.terminalReported = d.terminalReported
  told : d'.errors = d.errors ∧ d'.statuses = d.statuses
  reporting : d'.reporting.countP Report.claimed = d.reporting.countP Report.claimed
  closing : d'.closing = d.closing
  callbacks : ∀ error, .callback error ∈ d'.reporting → .callback error ∈ d.reporting

theorem Limited.framed (limited : Limited d) (framed : Framed d d') : Limited d' := by
  obtain ⟨accepted, ⟨messages, bytes⟩, ⟨reported, terminal⟩, ⟨errors, statuses⟩, reporting, closing,
    callbacks⟩ := framed
  constructor
  · rw [accepted, messages]
    exact limited.counted
  · rw [accepted, bytes]
    exact limited.summed
  · rw [errors, reporting, reported]
    exact limited.errors
  · rw [statuses, terminal]
    exact limited.statuses
  · rw [errors, closing]
    exact limited.closed
  · rw [closing]
    exact fun error mem => limited.closes error (callbacks error mem)

theorem framed_reportDirectError (d : DirectPeer) (error : MiniRtcDirectError) :
    Framed d (d.reportDirectError error) :=
  ⟨rfl, ⟨rfl, rfl⟩, ⟨rfl, rfl⟩, ⟨rfl, rfl⟩, by
    simp [DirectPeer.reportDirectError, Report.claimed], rfl, by
    simp [DirectPeer.reportDirectError]⟩

theorem framed_fail {d d' : DirectPeer} (framed : Framed d d') : Framed d d'.fail := by
  obtain ⟨accepted, received, reported, told, reporting, closing, callbacks⟩ := framed
  have reports := framed_reportDirectError d' .invalidSignal
  refine ⟨accepted, received, reported, told, reports.reporting.trans reporting, closing, ?_⟩
  exact fun error mem => callbacks error (reports.callbacks error mem)

theorem Framed.refl (d : DirectPeer) : Framed d d :=
  ⟨rfl, ⟨rfl, rfl⟩, ⟨rfl, rfl⟩, ⟨rfl, rfl⟩, rfl, rfl, fun _ mem => mem⟩

theorem framed_receiveSdp (d : DirectPeer) (type : MsgType) (j : Fields) :
    Framed d (d.receiveSdp options type j) := by
  unfold DirectPeer.receiveSdp
  split
  · exact framed_fail (.refl d)
  split
  · exact framed_fail (.refl d)
  simp only
  split
  · exact framed_fail ⟨rfl, ⟨rfl, rfl⟩, ⟨rfl, rfl⟩, ⟨rfl, rfl⟩, rfl, rfl, fun _ mem => mem⟩
  split
  · exact framed_fail ⟨rfl, ⟨rfl, rfl⟩, ⟨rfl, rfl⟩, ⟨rfl, rfl⟩, rfl, rfl, fun _ mem => mem⟩
  · exact ⟨rfl, ⟨rfl, rfl⟩, ⟨rfl, rfl⟩, ⟨rfl, rfl⟩, rfl, rfl, fun _ mem => mem⟩

theorem framed_receiveLine (d : DirectPeer) (ufrag : Text) (j : Fields) :
    Framed d (d.receiveLine options ufrag j) := by
  unfold DirectPeer.receiveLine
  simp only
  split
  · split
    · exact framed_fail (.refl d)
    · exact ⟨rfl, ⟨rfl, rfl⟩, ⟨rfl, rfl⟩, ⟨rfl, rfl⟩, rfl, rfl, fun _ mem => mem⟩
  split
  · exact framed_fail (.refl d)
  split
  · exact framed_fail (.refl d)
  split
  · exact .refl d
  split
  · exact framed_fail ⟨rfl, ⟨rfl, rfl⟩, ⟨rfl, rfl⟩, ⟨rfl, rfl⟩, rfl, rfl, fun _ mem => mem⟩
  · exact ⟨rfl, ⟨rfl, rfl⟩, ⟨rfl, rfl⟩, ⟨rfl, rfl⟩, rfl, rfl, fun _ mem => mem⟩

theorem framed_receiveObject (d : DirectPeer) (j : Fields) :
    Framed d (d.receiveObject options j) := by
  unfold DirectPeer.receiveObject
  split
  · exact framed_fail (.refl d)
  split
  · exact framed_fail (.refl d)
  split
  · exact framed_receiveSdp d _ j
  split
  · exact framed_receiveSdp d _ j
  split
  swap
  · exact framed_fail (.refl d)
  unfold DirectPeer.receiveCandidate
  split
  · exact framed_fail (.refl d)
  split
  · exact framed_fail (.refl d)
  split
  · exact framed_fail (.refl d)
  · obtain ⟨accepted, received, reported, told, reporting, closing, callbacks⟩ :=
      @framed_receiveLine _ _ options { d with remoteUfrag := _ } _ j
    exact ⟨accepted, received, reported, told, reporting, closing, callbacks⟩

theorem Tracked.receiveDirect (tracked : Tracked options d) (message : Option (List UInt8)) :
    Tracked options (d.receiveDirect options message) := by
  unfold DirectPeer.receiveDirect
  split
  · exact tracked
  split
  · exact tracked.fail
  split
  · exact tracked.fail
  have kept {d' : DirectPeer} (pushed : d'.pushed = d.pushed) (sdp : d'.remoteSdp = d.remoteSdp)
      (last : d'.remoteEnd = d.remoteEnd) (ufrag : d'.remoteUfrag = d.remoteUfrag)
      (candidates : d'.candidates = d.candidates) : Tracked options d' :=
    tracked.kept ⟨pushed, sdp, last, fun _ => ufrag, candidates ▸ Finset.Subset.refl _⟩
  simp only
  split
  · apply Tracked.fail
    exact kept rfl rfl rfl rfl rfl
  split
  · apply Tracked.fail
    exact kept rfl rfl rfl rfl rfl
  split
  · apply Tracked.fail
    exact kept rfl rfl rfl rfl rfl
  · apply Tracked.receiveObject
    exact kept rfl rfl rfl rfl rfl

theorem Limited.receiveDirect (limited : Limited d) (message : Option (List UInt8)) :
    Limited (d.receiveDirect options message) := by
  obtain ⟨counted, summed, errors, statuses, closed, closes⟩ := limited
  unfold DirectPeer.receiveDirect
  split
  · exact ⟨counted, summed, errors, statuses, closed, closes⟩
  split
  · exact Limited.framed ⟨counted, summed, errors, statuses, closed, closes⟩ (framed_fail (.refl d))
  rename_i bytes
  split
  · exact Limited.framed ⟨counted, summed, errors, statuses, closed, closes⟩ (framed_fail (.refl d))
  simp only
  split
  · refine Limited.framed (d := { d with receivedMessages := d.receivedMessages + 1 })
      ⟨⟨?_, counted.2⟩, summed, errors, statuses, closed, closes⟩ (framed_fail (.refl _))
    exact Nat.le_succ_of_le counted.1
  rename_i few
  split
  · refine Limited.framed (d := { d with
        receivedMessages := d.receivedMessages + 1
        receivedBytes := d.receivedBytes + bytes.length })
      ⟨⟨?_, counted.2⟩, ⟨?_, summed.2⟩, errors, statuses, closed, closes⟩ (framed_fail (.refl _))
    · exact Nat.le_succ_of_le counted.1
    · exact Nat.le_add_right_of_le summed.1
  rename_i small
  have accepted : Limited { d with
      receivedMessages := d.receivedMessages + 1
      receivedBytes := d.receivedBytes + bytes.length
      accepted := d.accepted ++ [bytes.length] } := by
    refine ⟨?_, ?_, errors, statuses, closed, closes⟩
    · simp only [List.length_append, List.length_singleton]
      omega
    · simp only [List.sum_append, List.sum_singleton]
      omega
  split
  · exact accepted.framed (framed_fail (.refl _))
  · exact accepted.framed (framed_receiveObject _ _)

theorem Limited.report {i : Nat} (limited : Limited d) (moved : d.report i = some d') :
    Limited d' := by
  obtain ⟨counted, summed, errors, statuses, closed, closes⟩ := limited
  unfold DirectPeer.report at moved
  have within {r : Report} (next : d.reporting[i]? = some r) : ∃ inside : i < d.reporting.length,
      d.reporting[i] = r := List.getElem?_eq_some_iff.mp next
  have claims {r : Report} (next : d.reporting[i]? = some r) (s : Report) :
      (d.reporting.set i s).countP Report.claimed + (if r.claimed then 1 else 0) =
        d.reporting.countP Report.claimed + if s.claimed then 1 else 0 := by
    obtain ⟨inside, rfl⟩ := within next
    have member : (if d.reporting[i].claimed then 1 else 0) ≤ d.reporting.countP Report.claimed := by
      split
      · rename_i claimed
        exact List.countP_pos_iff.mpr ⟨_, List.getElem_mem inside, claimed⟩
      · exact Nat.zero_le _
    rw [List.countP_set inside]
    omega
  have other (s : Report) (waits : ∀ error, s ≠ .callback error) (error : MiniRtcDirectError)
      (mem : .callback error ∈ d.reporting.set i s) : d.closing = true := by
    obtain old | new := List.mem_or_eq_of_mem_set mem
    · exact closes error old
    · exact absurd new.symm (waits error)
  split at moved
  · cases moved
  · cases moved
  · rename_i error next
    have later := claims next .done
    have started := claims next (.close error)
    simp only [Report.claimed, Bool.false_eq_true, if_false, if_true] at later started
    split at moved
    · cases moved
      exact ⟨counted, summed, by simp only; omega, statuses, closed, other .done nofun⟩
    · rename_i unreported
      rw [if_neg unreported] at errors
      cases moved
      exact ⟨counted, summed, by simp only [if_true]; omega, statuses, closed,
        other (.close error) nofun⟩
  · rename_i error next
    have later := claims next (.callback error)
    simp only [Report.claimed, if_true] at later
    cases moved
    exact ⟨counted, summed, by simp only; omega, statuses, fun _ => rfl, fun _ _ => rfl⟩
  · rename_i error next
    have later := claims next .terminal
    simp only [Report.claimed, Bool.false_eq_true, if_false, if_true] at later
    cases moved
    have told : d.closing = true := closes error (List.mem_of_getElem? next)
    refine ⟨counted, summed, ?_, statuses, fun _ => told, fun _ _ => told⟩
    simp only [List.length_append, List.length_singleton]
    omega
  · rename_i next
    have later := claims next .done
    simp only [Report.claimed, Bool.false_eq_true, if_false] at later
    cases moved
    unfold DirectPeer.reportTerminal
    split
    · exact ⟨counted, summed, by simp only; omega, statuses, closed, other .done nofun⟩
    · rename_i unreported
      rw [if_neg unreported] at statuses
      exact ⟨counted, summed, by simp only; omega, by simp [statuses], closed, other .done nofun⟩

theorem Limited.reportTerminal (limited : Limited d) : Limited d.reportTerminal := by
  obtain ⟨counted, summed, errors, statuses, closed, closes⟩ := limited
  unfold DirectPeer.reportTerminal
  split
  · exact ⟨counted, summed, errors, statuses, closed, closes⟩
  · rename_i unreported
    rw [if_neg unreported] at statuses
    exact ⟨counted, summed, errors, by simp [statuses], closed, closes⟩

theorem kept_reportTerminal (d : DirectPeer) :
    Kept d d.reportTerminal ∧ d.reportTerminal.closing = d.closing := by
  unfold DirectPeer.reportTerminal
  split
  · exact ⟨⟨rfl, rfl, rfl, fun _ => rfl, Finset.Subset.refl _⟩, rfl⟩
  · exact ⟨⟨rfl, rfl, rfl, fun _ => rfl, Finset.Subset.refl _⟩, rfl⟩

theorem kept_report {i : Nat} (moved : d.report i = some d') :
    Kept d d' ∧ (d.closing = true → d'.closing = true) := by
  unfold DirectPeer.report at moved
  split at moved
  · cases moved
  · cases moved
  · split at moved <;> cases moved
    · exact ⟨⟨rfl, rfl, rfl, fun _ => rfl, Finset.Subset.refl _⟩, id⟩
    · exact ⟨⟨rfl, rfl, rfl, fun _ => rfl, Finset.Subset.refl _⟩, id⟩
  · cases moved
    exact ⟨⟨rfl, rfl, rfl, fun _ => rfl, Finset.Subset.refl _⟩, fun _ => rfl⟩
  · cases moved
    exact ⟨⟨rfl, rfl, rfl, fun _ => rfl, Finset.Subset.refl _⟩, id⟩
  · cases moved
    obtain ⟨kept, closing⟩ := kept_reportTerminal d
    exact ⟨⟨kept.pushed, kept.remoteSdp, kept.remoteEnd, kept.remoteUfrag, kept.candidates⟩,
      fun closes => closing.trans closes⟩

/-- Every event keeps what is tracked and the limits, and after the peer has begun to close
nothing is pushed. -/
theorem step_kept {e : DirectEvent} (moved : d.step options e = some d') :
    (Tracked options d → Tracked options d') ∧ (Limited d → Limited d') ∧
      (d.closing = true → d'.closing = true ∧ d'.pushed = d.pushed) := by
  cases e with
  | receiveDirect message =>
    cases moved
    refine ⟨fun tracked => tracked.receiveDirect message,
      fun limited => limited.receiveDirect message, fun closing => ?_⟩
    unfold DirectPeer.receiveDirect
    rw [if_pos closing]
    exact ⟨closing, rfl⟩
  | report i =>
    obtain ⟨kept, closes⟩ := kept_report moved
    exact ⟨fun tracked => tracked.kept kept, fun limited => limited.report moved,
      fun closing => ⟨closes closing, kept.pushed⟩⟩
  | reportDirectError error =>
    cases moved
    exact ⟨fun tracked => tracked.kept ⟨rfl, rfl, rfl, fun _ => rfl, Finset.Subset.refl _⟩,
      fun limited => limited.framed (framed_reportDirectError d error), fun closing => ⟨closing, rfl⟩⟩
  | connectionStatus =>
    cases moved
    obtain ⟨kept, same⟩ := kept_reportTerminal d
    exact ⟨fun tracked => tracked.kept kept, fun limited => limited.reportTerminal,
      fun closing => ⟨same.trans closing, kept.pushed⟩⟩
  | closeDirect =>
    cases moved
    refine ⟨fun tracked => tracked.kept ⟨rfl, rfl, rfl, fun _ => rfl, Finset.Subset.refl _⟩,
      fun limited => ?_, fun _ => ⟨rfl, rfl⟩⟩
    exact ⟨limited.counted, limited.summed, limited.errors, limited.statuses, fun _ => rfl,
      fun _ _ => rfl⟩

theorem kept_of_reachable
    (reachable : Runs.Reachable (· = {}) (Runs.Steps fun d e d' => d.step options e = some d') d) :
    Tracked options d ∧ Limited d := by
  refine @Runs.Reachable.invariant _ _ _ (fun d => Tracked options d ∧ Limited d) ?_ ?_ _ reachable
  · rintro d rfl
    refine ⟨⟨rfl, nofun, fun some => absurd rfl some, nofun, ?_, rfl, List.Pairwise.nil, nofun,
      List.Pairwise.nil, Nat.zero_le _⟩, ⟨by decide, by decide, rfl, rfl, nofun, nofun⟩⟩
    intro _ before m here
    exact absurd (List.prefix_nil.mp here) (by simp)
  · rintro d d' ⟨tracked, limited⟩ ⟨e, -, moved⟩
    obtain ⟨keeps, limits, -⟩ := step_kept moved
    exact ⟨keeps tracked, limits limited⟩

/-- Whatever messages come, from however many threads, those that reach the ICE worker make up
one generation at the pinned address. At most 256 messages and 1 MiB are parsed, one error is
reported, and from the moment the peer closes nothing is pushed. -/
theorem admits_one_generation
    (reachable : Runs.Reachable (· = {}) (Runs.Steps fun d e d' => d.step options e = some d') d) :
    Admitted options d.pushed ∧ d.accepted.length ≤ 256 ∧ d.accepted.sum ≤ 1024 * 1024 ∧
      d.errors.length ≤ 1 ∧ d.statuses ≤ 1 ∧ (d.errors ≠ [] → d.closing = true) ∧
      ∀ e d', d.step options e = some d' → d.closing = true →
        d'.closing = true ∧ d'.pushed = d.pushed := by
  obtain ⟨tracked, limited⟩ := kept_of_reachable reachable
  refine ⟨tracked.admitted, limited.counted.2, limited.summed.2, ?_, ?_, limited.closed,
    fun e d' moved => (step_kept moved).2.2⟩
  · have errors := limited.errors
    split at errors <;> omega
  · have statuses := limited.statuses
    split at statuses <;> omega

end Admitted

def octets (s : String) : List UInt8 := s.toList.map fun c => c.toNat.toUInt8

def offerMessage : List UInt8 :=
  octets "\x7b\"type\":\"offer\",\"session_id\":\"s\",\"sdp\":\"a=ice-ufrag:ab\"\x7d"

def candidateMessage : List UInt8 :=
  octets ("\x7b\"type\":\"candidate\",\"session_id\":\"s\",\"ufrag\":\"ab\"," ++
    "\"candidate\":\"candidate:1 1 udp 5 10.0.0.1 9 typ host\"\x7d")

/-- An answerer whose peer sends these two messages. -/
def answerer : DirectOptions Text where
  offerer := false
  sessionId := "s".toList
  remoteId := "r".toList
  remoteAddress := "10.0.0.1".toList
  addresses :=
    { parseDirectAddress := fun text _ => if text = "10.0.0.1".toList then some text else none
      isV4 := fun _ => true
      withoutScope := id
      directAddressString := id }
  parse := fun message =>
    if message = offerMessage then
      some [("type", .string "offer".toList), ("session_id", .string "s".toList),
        ("sdp", .string "a=ice-ufrag:ab".toList)]
    else if message = candidateMessage then
      some [("type", .string "candidate".toList), ("session_id", .string "s".toList),
        ("ufrag", .string "ab".toList),
        ("candidate", .string "candidate:1 1 udp 5 10.0.0.1 9 typ host".toList)]
    else none

def answererEvents : List DirectEvent :=
  [.receiveDirect (some offerMessage), .receiveDirect (some candidateMessage),
    .receiveDirect (some candidateMessage), .receiveDirect none, .report 0,
    .receiveDirect (some offerMessage), .report 0, .report 0]

/-- The candidate comes twice, and after a null pointer the offer once more. -/
theorem admits_one_generation_answerer :
    ∃ d, Runs.run (fun _ _ => True) (DirectPeer.step answerer) {} answererEvents = some d ∧
      d.pushed.map IceWorkMsg.type = [.offer, .newCandidate] ∧ d.errors = [.invalidSignal] ∧
      Admitted answerer d.pushed := by
  have ran : (Runs.run (fun _ _ => True) (DirectPeer.step answerer) {} answererEvents).any
      (fun d => d.pushed.map IceWorkMsg.type = [.offer, .newCandidate] ∧
        d.errors = [.invalidSignal]) = true := by
    unfold answererEvents answerer offerMessage candidateMessage octets
    rw [String.toList_append]
    repeat rw [String.toList_ofList]
    decide +kernel
  obtain ⟨d, run, checked⟩ := (Option.any_eq_true _ _).mp ran
  obtain ⟨types, errors⟩ := of_decide_eq_true checked
  refine ⟨d, run, types, errors, ?_⟩
  exact (admits_one_generation (Runs.Reachable.run _ _ answererEvents (.start rfl) run)).1

end MiniRtc.Pc
