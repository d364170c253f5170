import MiniRtc.Fec.TrackerLog

/-! The snapshots of the tracker of feedback (fec_adaptation_controller.cpp): each field is a value of
the log, whatever the order of its commits and reports. -/
namespace MiniRtc.Fec

namespace FecFeedbackTracker

/-! ### One stream -/

/-- What a snapshot keeps of one stream. -/
structure Cell where
  snapshot : Option FecFeedbackSnapshot := none
  run : Nat := 0
  payload : Nat := 0
  mediaBytes : Nat := 0

def Cell.values (c : Cell) : FecFeedbackSnapshot := c.snapshot.getD {}

def Tally.at (t : Tally) (ssrc : BitVec 32) : Cell :=
  { snapshot := t.result ssrc, run := t.runs ssrc, payload := t.payloads ssrc, mediaBytes := t.mediaBytes ssrc }

def Packet.media (p : Packet) : Bool := p.kind = .media

def Packet.recent (nowMs : Int) (p : Packet) : Bool := nowMs - p.sentMs < 1000 ∧ p.sentMs ≤ nowMs

def Packet.sampled (nowMs rttMs : Int) (p : Packet) : Bool :=
  nowMs - grace rttMs - 1000 ≤ p.firstFeedbackMs ∧ p.firstFeedbackMs ≤ nowMs - grace rttMs ∧ 0 ≤ p.firstFeedbackMs

def Packet.lost (nowMs rttMs : Int) (p : Packet) : Bool := p.sampled nowMs rttMs && !p.received

/-- One more packet of the stream, field by field. -/
def Cell.visit (nowMs rttMs : Int) (c : Cell) (p : Packet) : Cell :=
  { snapshot := some
      { c.values with
        samples := if p.media && p.sampled nowMs rttMs then c.values.samples + 1 else c.values.samples
        lost := if p.media && p.lost nowMs rttMs then c.values.lost + 1 else c.values.lost
        maxLossRun := if p.media && p.lost nowMs rttMs then max c.values.maxLossRun (c.run + 1) else c.values.maxLossRun
        lastFeedbackMs := if p.media then max c.values.lastFeedbackMs p.firstFeedbackMs else c.values.lastFeedbackMs
        feedbackGeneration :=
          if p.media then max c.values.feedbackGeneration p.generation else c.values.feedbackGeneration
        sentBps := if p.recent nowMs then
            Function.update c.values.sentBps p.kind (c.values.sentBps p.kind + p.bytes * 8)
          else c.values.sentBps }
    run := if p.media then (if p.lost nowMs rttMs then c.run + 1 else 0) else c.run
    payload := if p.recent nowMs && p.media then c.payload + p.payload else c.payload
    mediaBytes := if p.recent nowMs && p.media then c.mediaBytes + p.bytes else c.mediaBytes }

theorem visit_at_other {t : Tally} {p : Packet} {ssrc : BitVec 32} (other : ¬(p.committed = true ∧ p.ssrc = ssrc))
    (nowMs rttMs : Int) : (visit nowMs rttMs t p).at ssrc = t.at ssrc := by
  unfold visit
  split
  · rfl
  rename_i committed
  have apart : ssrc ≠ p.ssrc := fun same => other ⟨by simpa using committed, same.symm⟩
  simp only
  split_ifs <;> simp only [Tally.at, Function.update_of_ne apart]

theorem visit_at {t : Tally} {p : Packet} (committed : p.committed = true) (nowMs rttMs : Int) :
    (visit nowMs rttMs t p).at p.ssrc = (t.at p.ssrc).visit nowMs rttMs p := by
  unfold visit
  rw [if_neg (by rw [committed]; decide)]
  have recent : (p.recent nowMs = true) = (nowMs - p.sentMs < 1000 ∧ p.sentMs ≤ nowMs) := by
    simp [Packet.recent]
  have media : (p.media = true) = (p.kind = .media) := by simp [Packet.media]
  have outside : (p.sampled nowMs rttMs = true) = ¬(p.firstFeedbackMs < nowMs - grace rttMs - 1000 ∨
      nowMs - grace rttMs < p.firstFeedbackMs ∨ p.firstFeedbackMs < 0) := by
    simp only [Packet.sampled, decide_eq_true_eq, eq_iff_iff]
    omega
  simp only [Tally.at, Cell.visit, Cell.values, Packet.lost, Bool.and_eq_true, recent, media, outside, Bool.not_eq_true']
  by_cases h₁ : nowMs - p.sentMs < 1000 ∧ p.sentMs ≤ nowMs
  · by_cases h₂ : p.kind = .media
    · by_cases h₃ : p.firstFeedbackMs < nowMs - grace rttMs - 1000 ∨ nowMs - grace rttMs < p.firstFeedbackMs ∨
        p.firstFeedbackMs < 0
      · simp [h₁, h₂, h₃]
      · by_cases h₄ : p.received = false
        · simp [h₁, h₂, h₃, h₄]
        · simp [h₁, h₂, h₃, h₄]
    · simp [h₁, h₂]
  · by_cases h₂ : p.kind = .media
    · by_cases h₃ : p.firstFeedbackMs < nowMs - grace rttMs - 1000 ∨ nowMs - grace rttMs < p.firstFeedbackMs ∨
        p.firstFeedbackMs < 0
      · simp [h₁, h₂, h₃]
      · by_cases h₄ : p.received = false
        · simp [h₁, h₂, h₃, h₄]
        · simp [h₁, h₂, h₃, h₄]
    · simp [h₁, h₂]

/-- The packets of a stream that a snapshot visits. -/
def onStream (ssrc : BitVec 32) (p : Packet) : Bool := p.ssrc = ssrc && p.committed

/-- Every stream is visited on its own. -/
theorem foldl_at (nowMs rttMs : Int) (ssrc : BitVec 32) (packets : List Packet) (t : Tally) :
    (packets.foldl (visit nowMs rttMs) t).at ssrc =
      (packets.filter (onStream ssrc)).foldl (Cell.visit nowMs rttMs) (t.at ssrc) := by
  induction packets generalizing t with
  | nil => rfl
  | cons p packets ih =>
    rw [List.foldl_cons, ih]
    by_cases here : onStream ssrc p = true
    · rw [List.filter_cons_of_pos here, List.foldl_cons]
      simp only [onStream, Bool.and_eq_true, decide_eq_true_eq] at here
      obtain ⟨rfl, committed⟩ := here
      rw [visit_at committed]
    · rw [List.filter_cons_of_neg here]
      simp only [onStream, Bool.and_eq_true, decide_eq_true_eq] at here
      rw [visit_at_other fun both => here ⟨both.2, both.1⟩]

/-- A stream after its packets. -/
def measure (nowMs rttMs : Int) (packets : List Packet) : Cell := packets.foldl (Cell.visit nowMs rttMs) {}

/-- The fields as values of the packets. -/
structure Measured (nowMs rttMs : Int) (packets : List Packet) (c : Cell) : Prop where
  some : c.snapshot = if packets = [] then none else some c.values
  samples : c.values.samples = (packets.filter Packet.media).countP (Packet.sampled nowMs rttMs)
  lost : c.values.lost = (packets.filter Packet.media).countP (Packet.lost nowMs rttMs)
  runs : (c.run, c.values.maxLossRun) = Lib.scanRuns (Packet.lost nowMs rttMs) (packets.filter Packet.media)
  last : c.values.lastFeedbackMs = ((packets.filter Packet.media).map Packet.firstFeedbackMs).foldl max (-1)
  generation : c.values.feedbackGeneration = ((packets.filter Packet.media).map Packet.generation).foldl max 0
  sent : ∀ kind, c.values.sentBps kind =
    ((packets.filter fun p => p.recent nowMs && p.kind = kind).map fun p => (p.bytes * 8 : Int)).sum
  payload : c.payload = ((packets.filter fun p => p.recent nowMs && p.media).map Packet.payload).sum
  mediaBytes : c.mediaBytes = ((packets.filter fun p => p.recent nowMs && p.media).map Packet.bytes).sum
  fraction : c.values.payloadFraction = 47 / 50

theorem filter_concat {α : Type} (p : α → Bool) (l : List α) (x : α) :
    (l ++ [x]).filter p = if p x then l.filter p ++ [x] else l.filter p := by
  rw [List.filter_append]
  cases here : p x with
  | true => simp [here]
  | false => simp [here]

theorem measure_measured (nowMs rttMs : Int) (packets : List Packet) :
    Measured nowMs rttMs packets (measure nowMs rttMs packets) := by
  induction packets using List.reverseRecOn with
  | nil => exact ⟨rfl, rfl, rfl, rfl, rfl, rfl, fun _ => rfl, rfl, rfl, rfl⟩
  | append_singleton packets p ih =>
    have step : measure nowMs rttMs (packets ++ [p]) = (measure nowMs rttMs packets).visit nowMs rttMs p := by
      rw [measure, List.foldl_append]
      rfl
    rw [step]
    obtain ⟨-, samples, lost, runs, last, generation, sent, payload, mediaBytes, fraction⟩ := ih
    generalize measure nowMs rttMs packets = c at *
    obtain ⟨run, longest⟩ := Prod.mk.inj runs
    refine ⟨?_, ?_, ?_, ?_, ?_, ?_, fun kind => ?_, ?_, ?_, fraction⟩
    · rw [if_neg (List.append_ne_nil_of_right_ne_nil _ (List.cons_ne_nil _ _))]
      rfl
    · change (if p.media && p.sampled nowMs rttMs then c.values.samples + 1 else c.values.samples) = _
      rw [samples, filter_concat]
      cases p.media with
      | true => simp [List.countP_append, List.countP_cons, apply_ite]
      | false => rfl
    · change (if p.media && p.lost nowMs rttMs then c.values.lost + 1 else c.values.lost) = _
      rw [lost, filter_concat]
      cases p.media with
      | true => simp [List.countP_append, List.countP_cons, apply_ite]
      | false => rfl
    · change (if p.media then (if p.lost nowMs rttMs then c.run + 1 else 0) else c.run,
        if p.media && p.lost nowMs rttMs then max c.values.maxLossRun (c.run + 1) else c.values.maxLossRun) = _
      rw [filter_concat]
      cases p.media with
      | true =>
        rw [if_pos rfl, if_pos rfl, Lib.scanRuns_concat, ← runs]
        cases p.lost nowMs rttMs with
        | true => rfl
        | false => rfl
      | false => exact runs
    · change (if p.media then max c.values.lastFeedbackMs p.firstFeedbackMs else c.values.lastFeedbackMs) = _
      rw [last, filter_concat]
      cases p.media with
      | true => simp
      | false => rfl
    · change (if p.media then max c.values.feedbackGeneration p.generation else c.values.feedbackGeneration) = _
      rw [generation, filter_concat]
      cases p.media with
      | true => simp
      | false => rfl
    · change (if p.recent nowMs then Function.update c.values.sentBps p.kind (c.values.sentBps p.kind + p.bytes * 8)
        else c.values.sentBps) kind = _
      rw [filter_concat]
      cases p.recent nowMs with
      | true =>
        by_cases same : p.kind = kind
        · subst same
          simp [sent]
        · simp [Function.update_of_ne (Ne.symm same), sent, same]
      | false => simp [sent]
    · change (if p.recent nowMs && p.media then c.payload + p.payload else c.payload) = _
      rw [payload, filter_concat]
      cases (p.recent nowMs && p.media) with
      | true => simp
      | false => rfl
    · change (if p.recent nowMs && p.media then c.mediaBytes + p.bytes else c.mediaBytes) = _
      rw [mediaBytes, filter_concat]
      cases (p.recent nowMs && p.media) with
      | true => simp
      | false => rfl

/-! ### The snapshot of a log -/

/-- The fields of a stream as values of the log. -/
structure FromLog (log : List Call) (nowMs rttMs : Int) (ssrc : BitVec 32) (f : FecFeedbackSnapshot) : Prop where
  samples : f.samples = (mediaOn ssrc log).countP (sampled log nowMs rttMs)
  lost : f.lost = (mediaOn ssrc log).countP (lostSample log nowMs rttMs)
  maxLossRun : IsGreatest (Lib.runLengths (lostSample log nowMs rttMs) (mediaOn ssrc log)) f.maxLossRun
  last : f.lastFeedbackMs = ((mediaOn ssrc log).filterMap fun r => firstReport r.id log).foldl max (-1)
  generation : f.feedbackGeneration = ((mediaOn ssrc log).map fun r => lastTelling r.id log).foldl max 0
  sent : ∀ kind, f.sentBps kind =
    (((sentOn ssrc log).filter fun r => recently nowMs r && r.kind = kind).map fun r => (r.bytes * 8 : Int)).sum
  fraction : f.payloadFraction =
    if (((mediaOn ssrc log).filter (recently nowMs)).map Registration.bytes).sum = 0 then (47 / 50 : ℚ)
    else ((((mediaOn ssrc log).filter (recently nowMs)).map fun r => min r.bytes r.payloadBytes).sum : Nat) /
      ((((mediaOn ssrc log).filter (recently nowMs)).map Registration.bytes).sum : Nat)

theorem packet_sampled (log : List Call) (nowMs rttMs : Int) (r : Registration) :
    (packetOf log r).sampled nowMs rttMs = sampled log nowMs rttMs r := by
  have known := firstFeedbackMs_nonneg log r
  unfold Packet.sampled sampled
  cases first : firstReport r.id log with
  | none =>
    rw [first] at known
    have unknown := mt known.mp (not_not.mpr rfl)
    simp only [Option.any_none, decide_eq_false_iff_not, not_and]
    exact fun _ _ => unknown
  | some time =>
    have same : (packetOf log r).firstFeedbackMs = time := by simp [packetOf, first]
    have positive := firstReport_nonneg first
    simp only [same, Option.any_some, positive, and_true]

theorem packet_lost (log : List Call) (nowMs rttMs : Int) (r : Registration) :
    (packetOf log r).lost nowMs rttMs = lostSample log nowMs rttMs r := by
  rw [Packet.lost, lostSample, packet_sampled]
  rfl

/-- A mark for none does not move the latest time. -/
theorem foldl_firstFeedbackMs (log : List Call) (held : List Registration) {last : Int} (low : -1 ≤ last) :
    (held.map fun r => (packetOf log r).firstFeedbackMs).foldl max last =
      (held.filterMap fun r => firstReport r.id log).foldl max last := by
  induction held generalizing last with
  | nil => rfl
  | cons r held ih =>
    have known := firstFeedbackMs_nonneg log r
    rw [List.map_cons, List.foldl_cons]
    cases first : firstReport r.id log with
    | none =>
      have unknown := mt known.mp (not_not.mpr first)
      have skipped : (r :: held).filterMap (fun r => firstReport r.id log) =
          held.filterMap fun r => firstReport r.id log := by simp [first]
      rw [skipped, max_eq_left (by omega)]
      exact ih low
    | some time =>
      have same : (packetOf log r).firstFeedbackMs = time := by simp [packetOf, first]
      have taken : (r :: held).filterMap (fun r => firstReport r.id log) =
          time :: held.filterMap fun r => firstReport r.id log := by simp [first]
      rw [taken, List.foldl_cons, same]
      exact ih (le_max_of_le_left low)

theorem filter_onStream (ssrc : BitVec 32) (log : List Call) :
    ((live log).map (packetOf log)).filter (onStream ssrc) = (sentOn ssrc log).map (packetOf log) := by
  rw [List.filter_map]
  rfl

theorem filter_media (ssrc : BitVec 32) (log : List Call) :
    ((sentOn ssrc log).map (packetOf log)).filter Packet.media = (mediaOn ssrc log).map (packetOf log) := by
  rw [List.filter_map]
  rfl

/-- The stream as a snapshot measures it. -/
theorem measured_fromLog (log : List Call) (nowMs rttMs : Int) (ssrc : BitVec 32) {c : Cell}
    (measured : Measured nowMs rttMs ((sentOn ssrc log).map (packetOf log)) c) :
    FromLog log nowMs rttMs ssrc
      (if c.mediaBytes ≠ 0 then { c.values with payloadFraction := c.payload / c.mediaBytes } else c.values) := by
  obtain ⟨-, samples, lost, runs, last, generation, sent, payload, mediaBytes, fraction⟩ := measured
  rw [filter_media] at samples lost runs last generation
  have sampled' : (mediaOn ssrc log).countP (Packet.sampled nowMs rttMs ∘ packetOf log) =
      (mediaOn ssrc log).countP (sampled log nowMs rttMs) :=
    List.countP_congr fun r _ => by rw [Function.comp, packet_sampled]
  have lost' : (fun r => (packetOf log r).lost nowMs rttMs) = lostSample log nowMs rttMs :=
    funext (packet_lost log nowMs rttMs)
  rw [List.countP_map] at samples lost
  rw [Lib.scanRuns_map, lost'] at runs
  rw [List.map_map] at last generation
  have greatest := Lib.scanRuns_greatest (lostSample log nowMs rttMs) (mediaOn ssrc log)
  rw [← runs] at greatest
  have recent : (((sentOn ssrc log).map (packetOf log)).filter fun p => p.recent nowMs && p.media) =
      ((mediaOn ssrc log).filter (recently nowMs)).map (packetOf log) := by
    rw [List.filter_map, mediaOn, List.filter_filter]
    rfl
  rw [recent, List.map_map] at payload mediaBytes
  have sent' : ∀ kind, c.values.sentBps kind =
      (((sentOn ssrc log).filter fun r => recently nowMs r && r.kind = kind).map fun r => (r.bytes * 8 : Int)).sum := by
    intro kind
    rw [sent kind, List.filter_map, List.map_map]
    rfl
  have all : ∀ f : FecFeedbackSnapshot, f.samples = c.values.samples → f.lost = c.values.lost →
      f.maxLossRun = c.values.maxLossRun → f.lastFeedbackMs = c.values.lastFeedbackMs →
      f.feedbackGeneration = c.values.feedbackGeneration → f.sentBps = c.values.sentBps →
      (f.payloadFraction = if c.mediaBytes = 0 then 47 / 50 else (c.payload / c.mediaBytes : ℚ)) →
      FromLog log nowMs rttMs ssrc f := by
    intro f h₁ h₂ h₃ h₄ h₅ h₆ h₇
    refine ⟨h₁.trans (samples.trans sampled'), h₂.trans (lost.trans ?_), h₃ ▸ greatest, h₄.trans (last.trans ?_),
      h₅.trans generation, fun kind => (congrFun h₆ kind).trans (sent' kind), ?_⟩
    · rw [← lost']
      rfl
    · exact foldl_firstFeedbackMs log _ le_rfl
    · rw [h₇, payload, mediaBytes]
      rfl
  split
  · rename_i some'
    exact all _ rfl rfl rfl rfl rfl rfl (if_neg some').symm
  · rename_i none'
    refine all _ rfl rfl rfl rfl rfl rfl ?_
    rw [if_pos (not_not.mp none')]
    exact fraction

theorem entries_snd (log : List Call) : (entries log).map Prod.snd = (live log).map (packetOf log) := by
  rw [entries, List.map_map]
  rfl

/-- The maps of a snapshot, and what is read from them. -/
theorem snapshot_result (s : FecFeedbackTracker) (nowMs rttMs : Int) (ssrc : BitVec 32) :
    (s.snapshot nowMs rttMs).1 ssrc =
      let c := (((prune nowMs s.packets).map Prod.snd).foldl (visit nowMs rttMs) {}).at ssrc
      c.snapshot.map fun f => if c.mediaBytes ≠ 0 then { f with payloadFraction := c.payload / c.mediaBytes } else f :=
  rfl

theorem snapshot_packets (s : FecFeedbackTracker) (nowMs rttMs : Int) :
    (s.snapshot nowMs rttMs).2.packets = prune nowMs s.packets := rfl

/-- A snapshot is the value of the log. -/
theorem snapshot_fromLog {log : List Call} (lawful : Lawful log) (nowMs rttMs : Int) (ssrc : BitVec 32) :
    (((after log).snapshot nowMs rttMs).1 ssrc = none ↔ sentOn ssrc (.snapshot nowMs rttMs :: log) = []) ∧
      ∀ f ∈ ((after log).snapshot nowMs rttMs).1 ssrc, FromLog (.snapshot nowMs rttMs :: log) nowMs rttMs ssrc f := by
  have held := (snapshot_holds (after_holds lawful) nowMs rttMs).packets
  rw [snapshot_packets] at held
  generalize Call.snapshot nowMs rttMs :: log = log' at *
  rw [snapshot_result, held, entries_snd, foldl_at, filter_onStream]
  have measured := measure_measured nowMs rttMs ((sentOn ssrc log').map (packetOf log'))
  have fields := measured_fromLog log' nowMs rttMs ssrc measured
  change (Option.map _ (measure nowMs rttMs ((sentOn ssrc log').map (packetOf log'))).snapshot = none ↔ _) ∧
    ∀ f ∈ Option.map _ (measure nowMs rttMs ((sentOn ssrc log').map (packetOf log'))).snapshot, _
  have some' := measured.some
  by_cases nobody : sentOn ssrc log' = []
  · rw [if_pos (List.map_eq_nil_iff.mpr nobody)] at some'
    rw [some']
    exact ⟨⟨fun _ => nobody, fun _ => rfl⟩, fun f member => absurd member (by simp)⟩
  · rw [if_neg (fun h => nobody (List.map_eq_nil_iff.mp h))] at some'
    rw [some']
    refine ⟨⟨fun h => absurd h (by simp), fun h => absurd h nobody⟩, fun f member => ?_⟩
    rw [Option.map_some, Option.mem_some_iff] at member
    rw [← member]
    exact fields

/-! ### The order of commits and reports -/

def commitPacket (p : Packet) : Packet := { p with committed := true }

theorem modify_cons (id : Int) (f : Packet → Packet) (entry : Int × Packet) (packets : List (Int × Packet)) :
    modify id f (entry :: packets) = (if entry.1 = id then (entry.1, f entry.2) else entry) :: modify id f packets :=
  rfl

theorem modified_fst (id : Int) (f : Packet → Packet) (entry : Int × Packet) :
    (if entry.1 = id then (entry.1, f entry.2) else entry).1 = entry.1 := by
  split <;> rfl

theorem prune_commit (id nowMs : Int) (packets : List (Int × Packet)) :
    prune nowMs (modify id commitPacket packets) = modify id commitPacket (prune nowMs packets) := by
  induction packets with
  | nil => rfl
  | cons entry packets ih =>
    have sent : (if entry.1 = id then (entry.1, commitPacket entry.2) else entry).2.sentMs = entry.2.sentMs := by
      split <;> rfl
    have length : (modify id commitPacket packets).length = packets.length := List.length_map _
    rw [modify_cons, prune, prune, sent, length]
    split
    · exact ih
    · rfl

theorem insertOrAssign_commit {id id' : Int} (other : id' ≠ id) (p : Packet) (packets : List (Int × Packet)) :
    insertOrAssign id' p (modify id commitPacket packets) = modify id commitPacket (insertOrAssign id' p packets) := by
  induction packets with
  | nil =>
    simp only [insertOrAssign, modify_cons, if_neg other]
    rfl
  | cons entry packets ih =>
    rw [modify_cons, insertOrAssign, insertOrAssign, modified_fst]
    split
    · rw [modify_cons, if_neg other, modify_cons]
    · split
      · rw [modify_cons, if_neg other]
      · rw [modify_cons, ih]

theorem lookup_commit (id id' : Int) (packets : List (Int × Packet)) :
    (modify id commitPacket packets).lookup id' =
      (packets.lookup id').map fun p => if id' = id then commitPacket p else p := by
  induction packets with
  | nil => rfl
  | cons entry packets ih =>
    obtain ⟨key, p⟩ := entry
    rw [modify_cons]
    have split' : (if key = id then (key, commitPacket p) else (key, p)) =
        (key, if key = id then commitPacket p else p) := by split <;> rfl
    simp only [split', List.lookup_cons]
    by_cases same : id' = key
    · subst same
      simp
    · rw [beq_false_of_ne same]
      exact ih

theorem modify_modify (id id' : Int) {f f' : Packet → Packet} (commutes : ∀ p, f (f' p) = f' (f p))
    (packets : List (Int × Packet)) : modify id f (modify id' f' packets) = modify id' f' (modify id f packets) := by
  rw [modify, modify, modify, modify, List.map_map, List.map_map]
  refine List.map_congr_left fun entry _ => ?_
  obtain ⟨key, p⟩ := entry
  simp only [Function.comp]
  by_cases here : key = id
  · by_cases here' : key = id'
    · simp only [if_pos here, if_pos here', commutes]
    · simp only [if_pos here, if_neg here']
  · by_cases here' : key = id'
    · simp only [if_neg here, if_pos here']
    · simp only [if_neg here, if_neg here']

theorem commit_eq (s : FecFeedbackTracker) (id : Int) :
    s.commit id = { s with packets := modify id commitPacket s.packets } := rfl

theorem commit_step (s : FecFeedbackTracker) {id : Int} {c : Call} (other : ∀ r ∈ c.registers, r.id ≠ id) :
    (s.step c).commit id = (s.commit id).step c := by
  cases c with
  | register r =>
    have apart := other r rfl
    simp only [step, commit_eq, register]
    rw [insertOrAssign_commit apart, prune_commit]
  | commit id' =>
    simp only [step, commit_eq]
    rw [modify_modify id id' fun _ => rfl]
  | remove id' =>
    simp only [step, commit_eq, remove]
    rw [modify, modify, List.filter_map]
    have alike : (fun entry : Int × Packet => decide (entry.1 ≠ id')) ∘
        (fun entry => if entry.1 = id then (entry.1, commitPacket entry.2) else entry) =
        fun entry => decide (entry.1 ≠ id') := by
      funext entry
      simp only [Function.comp, modified_fst]
    rw [alike]
  | feedback id' received nowMs =>
    simp only [step]
    unfold feedback
    have found := lookup_commit id id' s.packets
    change (s.commit id).packets.lookup id' = _ at found
    rw [found]
    cases here : s.packets.lookup id' with
    | none => rfl
    | some p =>
      have first : (if id' = id then commitPacket p else p).firstFeedbackMs = p.firstFeedbackMs := by split <;> rfl
      have old : (if id' = id then commitPacket p else p).received = p.received := by split <;> rfl
      simp only [Option.map_some, first, old]
      split
      · rfl
      · simp only [commit_eq]
        congr 1
        refine modify_modify id id' ?_ s.packets
        exact fun _ => rfl
  | snapshot nowMs rttMs =>
    simp only [step, commit_eq, snapshot]
    rw [prune_commit]
  | reset => rfl

/-- A commit can come before the calls that do not register its packet. -/
theorem commit_reordered (id : Int) (later before : List Call) {between : List Call}
    (other : ∀ c ∈ between, ∀ r ∈ c.registers, r.id ≠ id) :
    after (later ++ .commit id :: (between ++ before)) = after (later ++ (between ++ .commit id :: before)) := by
  have moved : after (.commit id :: (between ++ before)) = after (between ++ .commit id :: before) := by
    induction between with
    | nil => rfl
    | cons c between ih =>
      obtain ⟨first, rest⟩ := List.forall_mem_cons.mp other
      change ((after (between ++ before)).step c).commit id = (after (between ++ .commit id :: before)).step c
      rw [commit_step _ first, ← ih rest]
      rfl
  rw [after, List.foldr_append, after, List.foldr_append]
  exact congrArg (fun s => List.foldr (fun c s => step s c) s later) moved

/-! ### Repeated and late reports -/

/-- A loss that is reported again changes nothing. -/
theorem feedback_repeated {log : List Call} (lawful : Lawful log) {id : Int} (known : firstReport id log ≠ none)
    (nowMs : Int) : after (.feedback id false nowMs :: log) = after log := by
  have holds := after_holds lawful
  have distinct : (live log).Pairwise fun r r' => r.id ≠ r'.id := lawful.live.imp fun both => both.1.ne
  change (after log).feedback id false nowMs = after log
  unfold feedback
  rw [holds.packets]
  by_cases held : ∃ r ∈ live log, r.id = id
  · obtain ⟨r, member, rfl⟩ := held
    have found : (entries log).lookup r.id = some (packetOf log r) := lookup_entries (packetOf log) distinct member
    rw [found]
    exact if_pos ⟨(firstFeedbackMs_nonneg log r).mpr known, Or.inl rfl⟩
  · have absent : ∀ r ∈ live log, r.id ≠ id := fun r member same => held ⟨r, member, same⟩
    have nothing : (entries log).lookup id = none := lookup_none (packetOf log) absent
    rw [nothing]

theorem firstReport_late {log : List Call} {id : Int} (known : firstReport id log ≠ none) (received : Bool)
    (lateMs : Int) (id' : Int) : firstReport id' (.feedback id received lateMs :: log) = firstReport id' log := by
  by_cases same : id' = id
  · subst same
    obtain ⟨first, here⟩ := Option.ne_none_iff_exists'.mp known
    rw [firstReport_feedback, here, Option.some_or]
  · simp only [firstReport, reports, if_neg (Ne.symm same)]

theorem reportedReceived_late (log : List Call) (id : Int) (lateMs : Int) (id' : Int) :
    reportedReceived id' (.feedback id true lateMs :: log) = (reportedReceived id' log || decide (id' = id)) := by
  by_cases same : id' = id
  · subst same
    rw [reportedReceived_feedback]
    simp
  · simp [reportedReceived, reports, Ne.symm same, same]

theorem countP_unique {held : List Registration} (distinct : held.Pairwise fun r r' => r.id ≠ r'.id)
    (p : Registration → Bool) (id : Int) :
    held.countP (fun r => p r && r.id ≠ id) + (if ∃ r ∈ held, r.id = id ∧ p r = true then 1 else 0) = held.countP p := by
  induction held with
  | nil => simp
  | cons r held ih =>
    obtain ⟨others, distinct⟩ := List.pairwise_cons.mp distinct
    have rest := ih distinct
    rw [List.countP_cons, List.countP_cons, ← rest]
    by_cases same : r.id = id
    · have absent : ¬∃ r' ∈ held, r'.id = id ∧ p r' = true := by
        rintro ⟨r', inside, here, -⟩
        exact others r' inside (same.trans here.symm)
      cases here : p r with
      | true =>
        have present : ∃ r' ∈ r :: held, r'.id = id ∧ p r' = true := ⟨r, List.mem_cons_self, same, here⟩
        rw [if_pos present, if_neg absent]
        simp [same]
      | false =>
        have present : ¬∃ r' ∈ r :: held, r'.id = id ∧ p r' = true := by
          rintro ⟨r', inside, here', yes⟩
          rcases List.mem_cons.mp inside with rfl | inside
          · rw [here] at yes
            exact Bool.false_ne_true yes
          · exact absent ⟨r', inside, here', yes⟩
        rw [if_neg present, if_neg absent]
        simp
    · have alike : (∃ r' ∈ r :: held, r'.id = id ∧ p r' = true) ↔ ∃ r' ∈ held, r'.id = id ∧ p r' = true := by
        simp [same]
      rw [if_congr alike rfl rfl]
      simp only [ne_eq, same, not_false_eq_true, decide_true, Bool.and_true]
      omega

/-- What a late positive report changes in a snapshot. -/
structure Late (log : List Call) (id nowMs rttMs : Int) (ssrc : BitVec 32) (f f' : FecFeedbackSnapshot) : Prop where
  samples : f'.samples = f.samples
  last : f'.lastFeedbackMs = f.lastFeedbackMs
  lost : f'.lost + (if ∃ r ∈ mediaOn ssrc log, r.id = id ∧ lostSample log nowMs rttMs r = true then 1 else 0) = f.lost
  maxLossRun : f'.maxLossRun ≤ f.maxLossRun
  sent : f'.sentBps = f.sentBps
  fraction : f'.payloadFraction = f.payloadFraction

theorem feedback_late {log : List Call} (lawful : Lawful log) {id : Int} (known : firstReport id log ≠ none)
    (lateMs nowMs rttMs : Int) (ssrc : BitVec 32) :
    (((after (.feedback id true lateMs :: log)).snapshot nowMs rttMs).1 ssrc = none ↔
      ((after log).snapshot nowMs rttMs).1 ssrc = none) ∧
    ∀ f ∈ ((after log).snapshot nowMs rttMs).1 ssrc,
      ∀ f' ∈ ((after (.feedback id true lateMs :: log)).snapshot nowMs rttMs).1 ssrc,
        Late (.snapshot nowMs rttMs :: log) id nowMs rttMs ssrc f f' := by
  have lawful' : Lawful (.feedback id true lateMs :: log) := lawful
  obtain ⟨absent, fields⟩ := snapshot_fromLog lawful nowMs rttMs ssrc
  obtain ⟨absent', fields'⟩ := snapshot_fromLog lawful' nowMs rttMs ssrc
  -- The report changes only what is known to be received.
  have same : sentOn ssrc (.snapshot nowMs rttMs :: .feedback id true lateMs :: log) =
      sentOn ssrc (.snapshot nowMs rttMs :: log) := rfl
  have media : mediaOn ssrc (.snapshot nowMs rttMs :: .feedback id true lateMs :: log) =
      mediaOn ssrc (.snapshot nowMs rttMs :: log) := rfl
  have first : ∀ id', firstReport id' (.snapshot nowMs rttMs :: .feedback id true lateMs :: log) =
      firstReport id' (.snapshot nowMs rttMs :: log) := firstReport_late known true lateMs
  have windows : sampled (.snapshot nowMs rttMs :: .feedback id true lateMs :: log) nowMs rttMs =
      sampled (.snapshot nowMs rttMs :: log) nowMs rttMs := by
    funext r
    rw [sampled, sampled, first]
  have losses : lostSample (.snapshot nowMs rttMs :: .feedback id true lateMs :: log) nowMs rttMs =
      fun r => lostSample (.snapshot nowMs rttMs :: log) nowMs rttMs r && r.id ≠ id := by
    funext r
    have received : reportedReceived r.id (.snapshot nowMs rttMs :: .feedback id true lateMs :: log) =
        (reportedReceived r.id (.snapshot nowMs rttMs :: log) || decide (r.id = id)) :=
      reportedReceived_late log id lateMs r.id
    rw [lostSample, lostSample, windows, received, Bool.not_or, Bool.and_assoc, decide_not]
  refine ⟨by rw [absent', absent, same], fun f member f' member' => ?_⟩
  have value := fields f member
  have value' := fields' f' member'
  have distinct : (mediaOn ssrc (.snapshot nowMs rttMs :: log)).Pairwise fun r r' => r.id ≠ r'.id := by
    have all : Lawful (.snapshot nowMs rttMs :: log) := lawful
    exact (all.live.imp fun both => both.1.ne).sublist (List.filter_sublist.trans List.filter_sublist)
  refine ⟨?_, ?_, ?_, ?_, ?_, ?_⟩
  · rw [value'.samples, value.samples, media, windows]
  · rw [value'.last, value.last, media]
    simp only [first]
  · rw [value'.lost, value.lost, media, losses]
    exact countP_unique distinct _ id
  · obtain ⟨run, infix', all, length⟩ := value'.maxLossRun.1
    refine value.maxLossRun.2 ⟨run, infix', fun r inside => ?_, length⟩
    have lost := all r inside
    rw [losses, Bool.and_eq_true] at lost
    exact lost.1
  · funext kind
    rw [value'.sent, value.sent, same]
  · rw [value'.fraction, value.fraction, media]

/-! ### The refinement -/

/-- The tracker after a log is what the log says. -/
structure Refines (log : List Call) : Prop where
  few : (after log).packets.length ≤ kMaxPackets
  value : ∀ nowMs rttMs ssrc,
    (((after log).snapshot nowMs rttMs).1 ssrc = none ↔ sentOn ssrc (.snapshot nowMs rttMs :: log) = []) ∧
      ∀ f ∈ ((after log).snapshot nowMs rttMs).1 ssrc, FromLog (.snapshot nowMs rttMs :: log) nowMs rttMs ssrc f
  recent : ∀ nowMs rttMs, ∀ r ∈ live (.snapshot nowMs rttMs :: log), nowMs - r.nowMs ≤ 5000
  /-- A commit may come before or after other calls, the reports of its packet among them. -/
  reordered : ∀ id later between before, log = later ++ .commit id :: (between ++ before) →
    (∀ c ∈ between, ∀ r ∈ c.registers, r.id ≠ id) → after log = after (later ++ (between ++ .commit id :: before))
  repeated : ∀ id nowMs, firstReport id log ≠ none → after (.feedback id false nowMs :: log) = after log
  late : ∀ id lateMs nowMs rttMs ssrc, firstReport id log ≠ none →
    (((after (.feedback id true lateMs :: log)).snapshot nowMs rttMs).1 ssrc = none ↔
      ((after log).snapshot nowMs rttMs).1 ssrc = none) ∧
    ∀ f ∈ ((after log).snapshot nowMs rttMs).1 ssrc,
      ∀ f' ∈ ((after (.feedback id true lateMs :: log)).snapshot nowMs rttMs).1 ssrc,
        Late (.snapshot nowMs rttMs :: log) id nowMs rttMs ssrc f f'

theorem tracker_refines {log : List Call} (lawful : Lawful log) : Refines log where
  few := by
    rw [(after_holds lawful).packets, entries, List.length_map]
    exact length_live log
  value := snapshot_fromLog lawful
  recent nowMs rttMs := expire_recent (lawful.live.imp And.right)
  reordered id later between before whole other := by
    rw [whole]
    exact commit_reordered id later before other
  repeated id nowMs known := feedback_repeated lawful known nowMs
  late id lateMs nowMs rttMs ssrc known := feedback_late lawful known lateMs nowMs rttMs ssrc

/-- A packet that is reported lost before it is committed, and a packet after it. -/
theorem tracker_refines_pair : Refines
    [.register ⟨2, 7#32, .media, 1200, 1100, 40⟩, .commit 1, .feedback 1 false 30,
      .register ⟨1, 7#32, .media, 1000, 900, 0⟩] :=
  tracker_refines (by unfold Lawful; decide)

end FecFeedbackTracker

end MiniRtc.Fec
