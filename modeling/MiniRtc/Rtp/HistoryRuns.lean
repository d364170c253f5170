import MiniRtc.Lib.Runs
import MiniRtc.Rtp.PacketHistory

/-! Runs of a packet history beside a log of what was put into it.
The log says of each packet whether it was young whenever old packets were removed; a packet that
was is found among the last ones. -/
namespace MiniRtc.Rtp
open RtpPacketHistory

/-- A packet of the log. -/
structure Put where
  packet : RtpPacket
  sendTime : Int
  -- younger than the duration of the time at every removal since
  young : Bool := true
deriving DecidableEq, Repr

inductive HistoryCall where
  | putRtpPacket (rtpPacket : RtpPacket) (sendTime now later : Int)
  | setRtt (rtt : TimeDelta) (now : Int)
  | getPacketAndMarkAsPending (sequenceNumber : BitVec 16) (encapsulate : RtpPacket → Option RtpPacket)
      (now : Int)
  | markPacketAsSent (sequenceNumber : BitVec 16) (now : Int)
  | markPacketAsAborted (sequenceNumber : BitVec 16) (now : Int)
  | clear (now : Int)

/-- A history, the time of its last call, and what was put into it since the last `Clear`. -/
structure HistorySession where
  history : RtpPacketHistory := {}
  now : Int
  puts : List Put := []
deriving DecidableEq, Repr

/-- The log after a removal. -/
def age (duration now : Int) (puts : List Put) : List Put :=
  puts.map fun q => { q with young := q.young && now < q.sendTime + duration }

namespace HistorySession

def Start (s : HistorySession) : Prop := ∃ now, s = { now }

def apply (s : HistorySession) : HistoryCall → HistorySession
  | .putRtpPacket rtpPacket sendTime now later =>
    let duration := packetDuration s.history.rtt
    { history := s.history.putRtpPacket rtpPacket sendTime now later
      now := later
      puts := age duration later (age duration now s.puts ++ [{ packet := rtpPacket, sendTime }]) }
  | .setRtt rtt now =>
    { history := s.history.setRtt rtt now
      now
      puts := age (packetDuration rtt) now s.puts }
  | .getPacketAndMarkAsPending sequenceNumber encapsulate now =>
    { s with history := (s.history.getPacketAndMarkAsPending sequenceNumber encapsulate now).1, now }
  | .markPacketAsSent sequenceNumber now =>
    { s with history := s.history.markPacketAsSent sequenceNumber now, now }
  | .markPacketAsAborted sequenceNumber now =>
    { s with history := s.history.markPacketAsAborted sequenceNumber, now }
  | .clear now => { history := s.history.clear, now }

/-- Time does not go back, and a packet is put after it was sent. -/
def Admits (s : HistorySession) : HistoryCall → Prop
  | .putRtpPacket _ sendTime now later => s.now ≤ now ∧ sendTime ≤ now ∧ now ≤ later
  | .setRtt _ now => s.now ≤ now
  | .getPacketAndMarkAsPending _ _ now => s.now ≤ now
  | .markPacketAsSent _ now => s.now ≤ now
  | .markPacketAsAborted _ now => s.now ≤ now
  | .clear now => s.now ≤ now

def Step (s : HistorySession) (c : HistoryCall) (t : HistorySession) : Prop :=
  s.Admits c ∧ s.apply c = t

end HistorySession

/-- A packet is the last one with its number. -/
def Latest (packets : List RtpPacket) (p : RtpPacket) : Prop :=
  ∃ a b, packets = a ++ p :: b ∧ ∀ r ∈ b, r.sequenceNumber ≠ p.sequenceNumber

/-- Each number follows the one before. -/
def Consecutive (packets : List RtpPacket) : Prop :=
  packets.IsChain fun p q => q.sequenceNumber = p.sequenceNumber + 1

/-- What holds of a history after any calls. -/
structure HistoryRight (s : HistorySession) : Prop where
  front : ∀ t ∈ s.history.packetHistory.head?, t.packet ≠ none
  numbers : ∀ first ∈ s.history.packetHistory.head?.bind StoredPacket.packet, ∀ i t p,
    s.history.packetHistory[i]? = some t → t.packet = some p →
      p.sequenceNumber = first.sequenceNumber + BitVec.ofNat 16 i
  capacity : s.history.packetHistory.length ≤ kMaxCapacity
  lookups : ∀ n encapsulate now, ∀ found ∈
    (s.history.getPacketAndMarkAsPending n encapsulate now).2, ∃ p, encapsulate p = some found ∧
      p.sequenceNumber = n ∧ Latest (s.puts.map Put.packet) p
  stored : ∀ n, ∀ found ∈ getStoredPacket s.history.packetHistory n, ∃ p, found.packet = some p ∧
    p.sequenceNumber = n ∧ Latest (s.puts.map Put.packet) p
  recent : Consecutive (s.puts.map Put.packet) → ∀ a q b, s.puts = a ++ q :: b →
    b.length < kMaxCapacity → q.young = true →
    ∃ found ∈ getStoredPacket s.history.packetHistory q.packet.sequenceNumber,
      found.packet = some q.packet

/-! ### Slots and log -/

/-- The slot of a packet of the log. -/
def Holds (t : StoredPacket) (q : Put) : Prop := t.packet = some q.packet ∧ q.sendTime ≤ t.sendTime

/-- The slots hold the last packets of the log. Those before were too many or too old. -/
def Tracks (slots : List StoredPacket) (puts : List Put) : Prop :=
  ∃ dropped held, puts = dropped ++ held ∧ List.Forall₂ Holds slots held ∧
    ∀ a q b, dropped = a ++ q :: b → kMaxCapacity ≤ b.length + held.length ∨ q.young = false

@[simp] theorem age_packets (duration now : Int) (puts : List Put) :
    (age duration now puts).map Put.packet = puts.map Put.packet := by
  rw [age, List.map_map]
  rfl

theorem mem_age {duration now : Int} {puts : List Put} {q : Put} (member : q ∈ age duration now puts) :
    (q.young = true → now < q.sendTime + duration) ∧ ∃ r ∈ puts, r.sendTime = q.sendTime := by
  obtain ⟨r, inside, rfl⟩ := List.mem_map.mp member
  refine ⟨fun young => ?_, r, inside, rfl⟩
  exact of_decide_eq_true (Bool.and_eq_true_iff.mp young).2

theorem Tracks.age {slots : List StoredPacket} {puts : List Put} (tracks : Tracks slots puts)
    (duration now : Int) : Tracks slots (Rtp.age duration now puts) := by
  obtain ⟨dropped, held, rfl, slotted, gone⟩ := tracks
  refine ⟨Rtp.age duration now dropped, Rtp.age duration now held, List.map_append, ?_, ?_⟩
  · exact List.forall₂_map_right_iff.mpr slotted
  · intro a q b split
    obtain ⟨a', l, rfl, rfl, rest⟩ := List.map_eq_append_iff.mp split
    obtain ⟨r, b', rfl, rfl, rfl⟩ := List.map_eq_cons_iff.mp rest
    rw [List.length_map, Rtp.age, List.length_map]
    refine (gone a' r b' rfl).imp_right fun old => ?_
    simp only [old, Bool.false_and]

/-- A removal takes the front of the slots from what is held. -/
theorem Tracks.removeDead {slots : List StoredPacket} {puts : List Put} (tracks : Tracks slots puts)
    (duration now : Int) (turns : Nat) :
    Tracks (RtpPacketHistory.removeDead duration now turns slots) (Rtp.age duration now puts) := by
  refine @removeDead_induction (fun left => Tracks left (Rtp.age duration now puts)) duration now ?_ turns
    slots (tracks.age duration now)
  intro front rest before reason
  obtain ⟨dropped, held, split, slotted, gone⟩ := before
  obtain ⟨q, held, first, later, rfl⟩ := List.forall₂_cons_left_iff.mp slotted
  have same := later.length_eq
  have kept : removePacket (front :: rest) 0 = rest := by
    rw [removePacket_zero]
    cases later with
    | nil => rfl
    | cons filled _ => exact List.dropWhile_cons_of_neg (by rw [filled.1]; exact Bool.false_ne_true)
  rw [kept]
  refine ⟨dropped ++ [q], held, by rw [split, List.append_assoc]; rfl, later, ?_⟩
  intro a r b place
  rcases List.eq_nil_or_concat b with rfl | ⟨b, last, rfl⟩
  · obtain ⟨rfl, same'⟩ := List.append_inj' place rfl
    cases same'
    refine reason.imp (fun many => ?_) fun old => ?_
    · rw [List.length_cons, same] at many
      rw [List.length_nil]
      omega
    · have member : q ∈ Rtp.age duration now puts := by
        rw [split]
        exact List.mem_append_right _ List.mem_cons_self
      refine Bool.eq_false_iff.mpr fun young => ?_
      have fresh := (mem_age member).1 young
      have sent := first.2
      omega
  · have ends : dropped ++ [q] = (a ++ r :: b) ++ [last] := by
      rw [place]
      simp
    obtain ⟨rfl, same'⟩ := List.append_inj' ends rfl
    refine (gone a r b rfl).imp_left fun many => ?_
    rw [List.length_cons] at many
    rw [List.length_concat]
    omega

/-- The slot of a packet in the middle of what is held. -/
theorem slot_of_held {slots : List StoredPacket} {a b : List Put} {q : Put}
    (slotted : List.Forall₂ Holds slots (a ++ q :: b)) : ∃ t, slots[a.length]? = some t ∧ Holds t q := by
  obtain ⟨t, rest, here, _, tail⟩ :=
    List.forall₂_cons_right_iff.mp (List.forall₂_drop_append slots a (q :: b) slotted)
  refine ⟨t, ?_, here⟩
  have first : (slots.drop a.length)[0]? = some t := by
    rw [tail]
    rfl
  rw [List.getElem?_drop] at first
  exact first

/-- The number after those of the slots. -/
theorem next_sequenceNumber {front : StoredPacket} {rest : List StoredPacket} {first p : RtpPacket}
    (numbered : Numbered first.sequenceNumber (front :: rest))
    {puts dropped held : List Put} (split : puts = dropped ++ held)
    (slotted : List.Forall₂ Holds (front :: rest) held)
    (consecutive : Consecutive (puts.map Put.packet ++ [p])) :
    p.sequenceNumber = first.sequenceNumber + BitVec.ofNat 16 (front :: rest).length := by
  have length := slotted.length_eq
  rcases List.eq_nil_or_concat' held with rfl | ⟨before, q, rfl⟩
  · cases slotted
  obtain ⟨t, place, here⟩ := slot_of_held slotted
  have number := numbered.get place here.1
  have follows : p.sequenceNumber = q.packet.sequenceNumber + 1 := by
    have chain : (((dropped ++ before).map Put.packet) ++ q.packet :: p :: []).IsChain
        fun p q => q.sequenceNumber = p.sequenceNumber + 1 := by
      have same : puts.map Put.packet ++ [p] = (dropped ++ before).map Put.packet ++ q.packet :: p :: [] := by
        rw [split]
        simp
      rw [← same]
      exact consecutive
    exact (List.isChain_append_cons_cons.mp chain).2.1
  rw [follows, number, length, List.length_append, BitVec.ofNat_add, BitVec.add_assoc]
  rfl

/-- A packet with the next number goes behind the others. -/
theorem Tracks.put {slots : List StoredPacket} {puts : List Put} (tracks : Tracks slots puts)
    (layout : Layout slots) (few : slots.length ≤ kMaxCapacity) (p : RtpPacket) (sendTime : Int)
    (consecutive : Consecutive (puts.map Put.packet ++ [p])) :
    Tracks (insertPacket (removeDuplicate slots p.sequenceNumber).1 (removeDuplicate slots p.sequenceNumber).2
      { packet := some p, sendTime }) (puts ++ [{ packet := p, sendTime }]) := by
  obtain ⟨dropped, held, split, slotted, gone⟩ := tracks
  have grown : insertPacket (removeDuplicate slots p.sequenceNumber).1
      (removeDuplicate slots p.sequenceNumber).2 { packet := some p, sendTime } =
      slots ++ [{ packet := some p, sendTime }] := by
    cases slots with
    | nil => rfl
    | cons front rest =>
      obtain ⟨first, filled, numbered⟩ := layout.front
      have next := next_sequenceNumber numbered split slotted consecutive
      have near : (front :: rest).length < 32768 := lt_of_le_of_lt few (by decide)
      have alone : removeDuplicate (front :: rest) p.sequenceNumber =
          (front :: rest, ((front :: rest).length : Int)) := by
        rw [removeDuplicate, next, storedIndex_beyond filled le_rfl near, getPacketIndex_slot filled rest near]
      have before : (-((front :: rest).length : Int)).toNat = 0 := by omega
      have one : (front :: rest).length + 1 - (emptySlots 0 ++ front :: rest).length = 1 := by
        rw [List.length_append, emptySlots_length]
        omega
      rw [alone, insertPacket, before, Int.toNat_natCast, one]
      simp [emptySlots]
  rw [grown]
  refine ⟨dropped, held ++ [{ packet := p, sendTime }], by rw [split, List.append_assoc], ?_, ?_⟩
  · exact List.rel_append slotted (.cons ⟨rfl, le_rfl⟩ .nil)
  · intro a q b place
    refine (gone a q b place).imp_left fun many => ?_
    rw [List.length_append]
    omega

/-- A change of a slot that leaves its packet and does not move its time back. -/
theorem Tracks.modify {slots : List StoredPacket} {puts : List Put} (tracks : Tracks slots puts)
    (i : Nat) {f : StoredPacket → StoredPacket} (same : ∀ s, (f s).packet = s.packet)
    (later : ∀ s, ∀ q ∈ puts, q.sendTime ≤ s.sendTime → q.sendTime ≤ (f s).sendTime) :
    Tracks (slots.modify i f) puts := by
  obtain ⟨dropped, held, split, slotted, gone⟩ := tracks
  refine ⟨dropped, held, split, ?_, gone⟩
  replace later : ∀ s, ∀ q ∈ held, q.sendTime ≤ s.sendTime → q.sendTime ≤ (f s).sendTime :=
    fun s q member => later s q (by rw [split]; exact List.mem_append_right _ member)
  clear gone split
  induction slotted generalizing i with
  | nil =>
    rw [List.modify_nil]
    exact .nil
  | @cons t q slots held here rest ih =>
    cases i with
    | zero =>
      refine .cons ⟨?_, later t q List.mem_cons_self here.2⟩ rest
      rw [same]
      exact here.1
    | succ i =>
      exact .cons here (ih i fun s r member => later s r (List.mem_cons_of_mem _ member))

/-- A packet of the log that is among the last ones, and young, has a slot. -/
theorem Tracks.recent {slots : List StoredPacket} {puts : List Put} (tracks : Tracks slots puts)
    {a b : List Put} {q : Put} (place : puts = a ++ q :: b) (last : b.length < kMaxCapacity)
    (young : q.young = true) : ∃ (i : Nat) (t : StoredPacket), slots[i]? = some t ∧
      t.packet = some q.packet := by
  obtain ⟨dropped, held, split, slotted, gone⟩ := tracks
  rw [place] at split
  rcases List.append_eq_append_iff.mp split with ⟨front, rfl, rest⟩ | ⟨middle, rfl, rfl⟩
  · cases front with
    | nil =>
      rw [List.nil_append] at rest
      rw [← rest, ← List.nil_append (q :: b)] at slotted
      obtain ⟨t, here, holds⟩ := slot_of_held slotted
      exact ⟨_, t, here, holds.1⟩
    | cons r front =>
      rw [List.cons_append] at rest
      cases rest
      rcases gone a q front rfl with many | old
      · rw [List.length_append] at last
        omega
      · rw [old] at young
        cases young
  · obtain ⟨t, here, holds⟩ := slot_of_held slotted
    exact ⟨_, t, here, holds.1⟩

/-! ### What the operations keep -/

theorem latest_new (packets : List RtpPacket) (p : RtpPacket) : Latest (packets ++ [p]) p :=
  ⟨packets, [], rfl, fun _ member => absurd member List.not_mem_nil⟩

theorem Latest.append {packets : List RtpPacket} {p q : RtpPacket} (latest : Latest packets p)
    (other : q.sequenceNumber ≠ p.sequenceNumber) : Latest (packets ++ [q]) p := by
  obtain ⟨a, b, rfl, later⟩ := latest
  refine ⟨a, b ++ [q], by rw [List.append_assoc]; rfl, ?_⟩
  intro r member
  rcases List.mem_append.mp member with inside | new
  · exact later r inside
  · rw [List.mem_singleton.mp new]
    exact other

/-- The slots are laid out, their packets are the last ones with their numbers, and they hold the last
packets of a log of consecutive numbers. -/
structure SlotsKept (slots : List StoredPacket) (puts : List Put) : Prop where
  layout : Layout slots
  latest : ∀ t ∈ slots, ∀ p ∈ t.packet, Latest (puts.map Put.packet) p
  tracks : Consecutive (puts.map Put.packet) → Tracks slots puts

theorem slotsKept_nil : SlotsKept [] [] := by
  refine ⟨⟨⟨0, trivial⟩, ?_⟩, ?_, fun _ => ⟨[], [], rfl, .nil, ?_⟩⟩
  · exact fun t head => nomatch head
  · exact fun t member => absurd member List.not_mem_nil
  · exact fun a q b place =>
      absurd place.symm (List.append_ne_nil_of_right_ne_nil _ (List.cons_ne_nil _ _))

section Operations

variable {slots : List StoredPacket} {puts : List Put} (kept : SlotsKept slots puts)
include kept

theorem SlotsKept.removeDead (duration now : Int) (turns : Nat) :
    SlotsKept (RtpPacketHistory.removeDead duration now turns slots) (Rtp.age duration now puts) := by
  refine ⟨removeDead_layout turns kept.layout, ?_, ?_⟩
  · rw [age_packets]
    intro t member
    exact kept.latest t ((removeDead_suffix duration now turns slots).subset member)
  · rw [age_packets]
    intro consecutive
    exact (kept.tracks consecutive).removeDead duration now turns

theorem SlotsKept.put (few : slots.length ≤ kMaxCapacity) (p : RtpPacket) (sendTime : Int) :
    SlotsKept (insertPacket (removeDuplicate slots p.sequenceNumber).1
      (removeDuplicate slots p.sequenceNumber).2 { packet := some p, sendTime })
      (puts ++ [{ packet := p, sendTime }]) := by
  obtain ⟨layout, fewer, index, before⟩ := removeDuplicate_layout kept.layout p.sequenceNumber
  obtain ⟨inserted, others⟩ := insertPacket_layout layout (fewer.trans few)
    (show ({ packet := some p, sendTime } : StoredPacket).packet = some p from rfl) index
  refine ⟨inserted, ?_, ?_⟩
  · rw [List.map_append]
    intro t member q filled
    rcases others t member with rfl | empty | ⟨old, other⟩
    · cases filled
      exact latest_new _ p
    · rw [empty] at filled
      cases filled
    · rcases before t old with empty | stood
      · rw [empty] at filled
        cases filled
      · exact (kept.latest t stood q filled).append (other q filled).symm
  · rw [List.map_append]
    intro consecutive
    exact (kept.tracks (List.IsChain.left_of_append consecutive)).put kept.layout few p sendTime consecutive

theorem SlotsKept.modify (i : Nat) {f : StoredPacket → StoredPacket}
    (same : ∀ s, (f s).packet = s.packet)
    (later : ∀ s, ∀ q ∈ puts, q.sendTime ≤ s.sendTime → q.sendTime ≤ (f s).sendTime) :
    SlotsKept (slots.modify i f) puts := by
  refine ⟨modify_layout kept.layout i same, ?_, fun consecutive => (kept.tracks consecutive).modify i same later⟩
  intro t member p filled
  obtain ⟨j, here⟩ := List.mem_iff_getElem?.mp member
  rw [List.getElem?_modify] at here
  obtain ⟨s, before, rfl⟩ := Option.map_eq_some_iff.mp here
  refine kept.latest s (List.mem_of_getElem? before) p ?_
  split at filled
  · rw [same] at filled
    exact filled
  · exact filled

end Operations

/-- What every state of a run has. -/
structure HistoryKept (s : HistorySession) : Prop where
  slots : SlotsKept s.history.packetHistory s.puts
  few : s.history.packetHistory.length ≤ kMaxCapacity
  sent : ∀ q ∈ s.puts, q.sendTime ≤ s.now

section Calls

variable {s : HistorySession} (kept : HistoryKept s)
include kept

theorem HistoryKept.putRtpPacket {p : RtpPacket} {sendTime now later : Int} (first : s.now ≤ now)
    (sent : sendTime ≤ now) (second : now ≤ later) :
    HistoryKept (s.apply (.putRtpPacket p sendTime now later)) := by
  have few := removeDead_length (packetDuration s.history.rtt) now (le_refl s.history.packetHistory.length)
  refine ⟨?_, ?_, ?_⟩
  · exact ((kept.slots.removeDead _ now _).put few p sendTime).removeDead _ later _
  · exact removeDead_length _ later le_rfl
  · intro q member
    obtain ⟨_, r, inside, same⟩ := mem_age member
    rw [← same]
    rcases List.mem_append.mp inside with old | new
    · obtain ⟨_, u, stood, equal⟩ := mem_age old
      rw [← equal]
      exact (kept.sent u stood).trans (first.trans second)
    · rw [List.mem_singleton.mp new]
      exact sent.trans second

theorem HistoryKept.setRtt {rtt : TimeDelta} {now : Int} (first : s.now ≤ now) :
    HistoryKept (s.apply (.setRtt rtt now)) := by
  refine ⟨kept.slots.removeDead _ now _, removeDead_length _ now le_rfl, ?_⟩
  intro q member
  obtain ⟨_, r, inside, same⟩ := mem_age member
  rw [← same]
  exact (kept.sent r inside).trans first

/-- A call that changes the flags of a slot. -/
theorem HistoryKept.modify {now : Int} (first : s.now ≤ now) (i : Nat)
    {f : StoredPacket → StoredPacket} (same : ∀ s, (f s).packet = s.packet)
    (later : ∀ s, ∀ q : Put, q.sendTime ≤ now → q.sendTime ≤ s.sendTime → q.sendTime ≤ (f s).sendTime) :
    HistoryKept { s with
      history := { s.history with packetHistory := s.history.packetHistory.modify i f }
      now } := by
  refine ⟨kept.slots.modify i same fun t q member => later t q ((kept.sent q member).trans first), ?_, ?_⟩
  · rw [show (s.history.packetHistory.modify i f).length = _ from List.length_modify ..]
    exact kept.few
  · exact fun q member => (kept.sent q member).trans first

theorem HistoryKept.update {now : Int} (first : s.now ≤ now) (n : BitVec 16)
    {f : StoredPacket → StoredPacket} (same : ∀ s, (f s).packet = s.packet)
    (later : ∀ s, ∀ q : Put, q.sendTime ≤ now → q.sendTime ≤ s.sendTime → q.sendTime ≤ (f s).sendTime) :
    HistoryKept { s with history := s.history.update n f, now } := by
  rw [RtpPacketHistory.update]
  cases storedIndex s.history.packetHistory n with
  | none => exact ⟨kept.slots, kept.few, fun q member => (kept.sent q member).trans first⟩
  | some i => exact kept.modify first i same later

theorem HistoryKept.getPacketAndMarkAsPending {n : BitVec 16} {encapsulate : RtpPacket → Option RtpPacket}
    {now : Int} (first : s.now ≤ now) :
    HistoryKept (s.apply (.getPacketAndMarkAsPending n encapsulate now)) := by
  have same : HistoryKept { s with now } :=
    ⟨kept.slots, kept.few, fun q member => (kept.sent q member).trans first⟩
  rw [HistorySession.apply, RtpPacketHistory.getPacketAndMarkAsPending]
  split
  · exact same
  split
  · exact same
  split
  · exact same
  split
  · exact same
  split
  · exact same
  · exact kept.modify first _ (fun _ => rfl) fun _ _ _ old => old

theorem HistoryKept.apply {c : HistoryCall} (admits : s.Admits c) : HistoryKept (s.apply c) := by
  cases c with
  | putRtpPacket p sendTime now later => exact kept.putRtpPacket admits.1 admits.2.1 admits.2.2
  | setRtt rtt now => exact kept.setRtt admits
  | getPacketAndMarkAsPending n encapsulate now => exact kept.getPacketAndMarkAsPending admits
  | markPacketAsSent n now => exact kept.update admits n (fun _ => rfl) fun _ _ sent _ => sent
  | markPacketAsAborted n now => exact kept.update admits n (fun _ => rfl) fun _ _ _ old => old
  | clear now =>
    exact ⟨slotsKept_nil, Nat.zero_le _, fun q member => absurd member List.not_mem_nil⟩

end Calls

/-! ### Any calls -/

theorem getStoredPacket_slot {slots : List StoredPacket} {n : BitVec 16} {i : Nat}
    (stored : storedIndex slots n = some i) : getStoredPacket slots n = slots[i]? := by
  rw [getStoredPacket, stored]
  rfl

theorem HistoryKept.right {s : HistorySession} (kept : HistoryKept s) : HistoryRight s := by
  obtain ⟨slots, few, _⟩ := kept
  refine ⟨slots.layout.2, ?_, few, ?_, ?_, ?_⟩
  · intro first head i t p here filled
    obtain ⟨front, top, named⟩ := Option.bind_eq_some_iff.mp head
    obtain ⟨rest, same⟩ := List.head?_eq_some_iff.mp top
    have layout := slots.layout
    rw [same] at layout here
    obtain ⟨q, same, numbered⟩ := layout.front
    rw [named] at same
    cases same
    exact numbered.get here filled
  · intro n encapsulate now found given
    rw [RtpPacketHistory.getPacketAndMarkAsPending] at given
    cases stored : storedIndex s.history.packetHistory n with
    | none =>
      rw [stored] at given
      cases given
    | some i =>
      obtain ⟨t, p, here, filled, number⟩ := storedIndex_some slots.layout stored
      rw [stored] at given
      simp only [here] at given
      split at given
      · cases given
      split at given
      · cases given
      rw [filled, Option.bind_some] at given
      refine ⟨p, ?_, number, slots.latest t (List.mem_of_getElem? here) p filled⟩
      cases made : encapsulate p with
      | none =>
        rw [made] at given
        cases given
      | some out =>
        rw [made] at given
        exact given
  · intro n found given
    obtain ⟨i, stored, _⟩ := Option.bind_eq_some_iff.mp given
    obtain ⟨t, p, here, filled, number⟩ := storedIndex_some slots.layout stored
    have stands : getStoredPacket s.history.packetHistory n = some found := given
    rw [getStoredPacket_slot stored, here] at stands
    cases stands
    exact ⟨p, filled, number, slots.latest found (List.mem_of_getElem? here) p filled⟩
  · intro consecutive a q b place last young
    obtain ⟨i, t, here, filled⟩ := (slots.tracks consecutive).recent place last young
    have stored := storedIndex_slot slots.layout few here filled
    refine ⟨t, ?_, filled⟩
    rw [getStoredPacket_slot stored]
    exact here

/-- The history of any calls is laid out, bounded, finds nothing but the last packet of a number, and
finds the last packets of consecutive numbers as long as they are young. -/
theorem history_right (s : HistorySession)
    (reachable : Runs.Reachable HistorySession.Start (Runs.Steps HistorySession.Step) s) :
    HistoryRight s := by
  have kept : HistoryKept s := by
    refine reachable.invariant ?_ ?_
    · rintro _ ⟨now, rfl⟩
      exact ⟨slotsKept_nil, Nat.zero_le _, fun q member => absurd member List.not_mem_nil⟩
    · rintro s _ kept ⟨c, _, admits, rfl⟩
      exact kept.apply admits
  exact kept.right

theorem history_right_one : HistoryRight
    (HistorySession.apply { now := 0 } (.putRtpPacket { sequenceNumber := 7 } 0 0 0)) :=
  history_right _ <| (Runs.Reachable.start ⟨0, rfl⟩).then
    (.putRtpPacket { sequenceNumber := 7 } 0 0 0) ⟨⟨le_rfl, le_rfl, le_rfl⟩, rfl⟩

/-- A packet of three seconds is removed at an RTT of 100 ms. Then the RTT is two seconds. -/
def slowed : HistorySession :=
  let s := HistorySession.apply { now := 0 } (.putRtpPacket { sequenceNumber := 7 } 0 0 0)
  let s := s.apply (.setRtt (.micros 100000) 3000000)
  s.apply (.setRtt (.micros 2000000) 3000000)

/-- A packet that is young now is not always found. -/
theorem young_packet_removed : ¬ ∀ s, Runs.Reachable HistorySession.Start (Runs.Steps HistorySession.Step) s →
    Consecutive (s.puts.map Put.packet) → ∀ a q b, s.puts = a ++ q :: b → b.length < kMaxCapacity →
      s.now < q.sendTime + packetDuration s.history.rtt →
      ∃ found ∈ getStoredPacket s.history.packetHistory q.packet.sequenceNumber,
        found.packet = some q.packet := by
  intro all
  have filled : Runs.Reachable HistorySession.Start (Runs.Steps HistorySession.Step) _ :=
    (Runs.Reachable.start ⟨0, rfl⟩).then (.putRtpPacket { sequenceNumber := 7 } 0 0 0)
      ⟨⟨le_rfl, le_rfl, le_rfl⟩, rfl⟩
  have culled := filled.then (HistoryCall.setRtt (.micros 100000) 3000000)
    ⟨show (0 : Int) ≤ 3000000 by decide, rfl⟩
  have reached : Runs.Reachable HistorySession.Start (Runs.Steps HistorySession.Step) slowed :=
    culled.then (HistoryCall.setRtt (.micros 2000000) 3000000) ⟨show (3000000 : Int) ≤ 3000000 by decide, rfl⟩
  obtain ⟨found, given, _⟩ := all slowed reached (List.isChain_singleton _) []
    { packet := { sequenceNumber := 7 }, sendTime := 0, young := false } [] rfl (by decide) (by decide)
  have none : getStoredPacket slowed.history.packetHistory 7 = none := by decide
  rw [none] at given
  cases given

end MiniRtc.Rtp
