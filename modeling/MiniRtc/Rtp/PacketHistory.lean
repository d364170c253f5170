import MiniRtc.Lib.Wrapping
import MiniRtc.Rtp.Packet

/-! The sent packets that a NACK may ask for (rtp_packet_history.cpp).
A deque of slots, one for each sequence number from that of the first packet on. Times are in
microseconds, and what a call reads of the clock is an argument. -/
namespace MiniRtc.Rtp

/-- A duration of the units library. -/
inductive TimeDelta where
  | minusInfinity
  | micros (us : Int)
  | plusInfinity
deriving DecidableEq, Repr

structure StoredPacket where
  packet : Option RtpPacket := none
  pendingTransmission : Bool := false
  sendTime : Int := 0
  timesRetransmitted : Nat := 0
deriving DecidableEq, Repr

structure RtpPacketHistory where
  packetHistory : List StoredPacket := []
  rtt : TimeDelta := .micros 100000
deriving DecidableEq, Repr

namespace RtpPacketHistory

def kMaxCapacity : Nat := 10001
def kMinPacketDuration : Int := 1000000
def kMinPacketDurationRtt : Int := 3
def kPacketCullingDelayFactor : Int := 3
def kSeqNumSpan : Int := 65536

/-- `number_to_store_`. -/
def numberToStore : Nat := kMaxCapacity

/-! ### Slots -/

/-- `RemovePacket`: the slot stays, unless it is the first one. -/
def removePacket (slots : List StoredPacket) (packetIndex : Nat) : List StoredPacket :=
  let slots := slots.modify packetIndex fun s => { s with packet := none }
  if packetIndex = 0 then slots.dropWhile fun s => s.packet.isNone else slots

/-- The way to a sequence number from that of the first packet. The first slot is never empty. -/
def getPacketIndex (slots : List StoredPacket) (sequenceNumber : BitVec 16) : Int :=
  match slots with
  | [] => 0
  | front :: _ =>
    let firstSeq := (front.packet.map RtpPacket.sequenceNumber).getD 0
    let packetIndex := (sequenceNumber.toNat : Int) - firstSeq.toNat
    if firstSeq = sequenceNumber then 0
    else if Wrapping.aheadOf sequenceNumber firstSeq then
      if sequenceNumber < firstSeq then packetIndex + kSeqNumSpan else packetIndex
    else if firstSeq < sequenceNumber then packetIndex - kSeqNumSpan
    else packetIndex

/-- The slot of a number, if there is a packet in it. -/
def storedIndex (slots : List StoredPacket) (sequenceNumber : BitVec 16) : Option Nat :=
  let index := getPacketIndex slots sequenceNumber
  if index < 0 then none
  else (slots[index.toNat]?).bind fun s => if s.packet.isSome then some index.toNat else none

def getStoredPacket (slots : List StoredPacket) (sequenceNumber : BitVec 16) : Option StoredPacket :=
  (storedIndex slots sequenceNumber).bind fun i => slots[i]?

/-- The slots of the loop of `RemoveDeadPackets`. Every turn removes one, so their number bounds the
number of turns. -/
def removeDead (packetDuration now : Int) : Nat → List StoredPacket → List StoredPacket
  | 0, slots => slots
  | _ + 1, [] => []
  | turns + 1, front :: rest =>
    let slots := front :: rest
    if kMaxCapacity < slots.length then
      removeDead packetDuration now turns (removePacket slots 0)
    else if front.pendingTransmission then slots
    else if now < front.sendTime + packetDuration then slots
    else if numberToStore ≤ slots.length ∨
        front.sendTime + packetDuration * kPacketCullingDelayFactor ≤ now then
      removeDead packetDuration now turns (removePacket slots 0)
    else slots

/-- Slots without a packet. -/
def emptySlots (count : Nat) : List StoredPacket := List.replicate count {}

/-- The slots with a new packet at an index, and with those that are missing before it. -/
def insertPacket (slots : List StoredPacket) (packetIndex : Int) (s : StoredPacket) :
    List StoredPacket :=
  let slots := emptySlots (-packetIndex).toNat ++ slots
  let slots := slots ++ emptySlots (packetIndex.toNat + 1 - slots.length)
  slots.set packetIndex.toNat s

/-! ### Calls -/

/-- The age up to which a packet is kept. An RTT that is not finite counts as none. -/
def packetDuration (rtt : TimeDelta) : Int :=
  match rtt with
  | .micros us => max (kMinPacketDurationRtt * us) kMinPacketDuration
  | _ => kMinPacketDuration

def removeDeadPackets (h : RtpPacketHistory) (now : Int) : RtpPacketHistory :=
  { h with packetHistory :=
      removeDead (packetDuration h.rtt) now h.packetHistory.length h.packetHistory }

def setRtt (h : RtpPacketHistory) (rtt : TimeDelta) (now : Int) : RtpPacketHistory :=
  { h with rtt }.removeDeadPackets now

def clear (h : RtpPacketHistory) : RtpPacketHistory := { h with packetHistory := [] }

/-- The slots and the index after the removal of a packet with the same number. -/
def removeDuplicate (slots : List StoredPacket) (sequenceNumber : BitVec 16) :
    List StoredPacket × Int :=
  match storedIndex slots sequenceNumber with
  | some i =>
    let slots := removePacket slots i
    (slots, getPacketIndex slots sequenceNumber)
  | none => (slots, getPacketIndex slots sequenceNumber)

def putRtpPacket (h : RtpPacketHistory) (rtpPacket : RtpPacket) (sendTime now later : Int) :
    RtpPacketHistory :=
  let h := h.removeDeadPackets now
  let (slots, packetIndex) := removeDuplicate h.packetHistory rtpPacket.sequenceNumber
  { h with packetHistory := insertPacket slots packetIndex { packet := some rtpPacket, sendTime } }
    |>.removeDeadPackets later

/-- Whether a packet was not resent within the last RTT. -/
def verifyRtt (h : RtpPacketHistory) (packet : StoredPacket) (now : Int) : Bool :=
  !(0 < packet.timesRetransmitted &&
    match h.rtt with
    | .minusInfinity => false
    | .micros us => now - packet.sendTime < us
    | .plusInfinity => true)

def getPacketAndMarkAsPending (h : RtpPacketHistory) (sequenceNumber : BitVec 16)
    (encapsulate : RtpPacket → Option RtpPacket) (now : Int) : RtpPacketHistory × Option RtpPacket :=
  match storedIndex h.packetHistory sequenceNumber with
  | none => (h, none)
  | some i =>
    match h.packetHistory[i]? with
    | none => (h, none)
    | some packet =>
      if packet.pendingTransmission then (h, none)
      else if !h.verifyRtt packet now then (h, none)
      else
        match packet.packet.bind encapsulate with
        | none => (h, none)
        | some encapsulated =>
          ({ h with packetHistory := h.packetHistory.modify i fun s =>
              { s with pendingTransmission := true } }, some encapsulated)

/-- A change of the slot of a number, if there is a packet in it. -/
def update (h : RtpPacketHistory) (sequenceNumber : BitVec 16) (f : StoredPacket → StoredPacket) :
    RtpPacketHistory :=
  match storedIndex h.packetHistory sequenceNumber with
  | none => h
  | some i => { h with packetHistory := h.packetHistory.modify i f }

def markPacketAsSent (h : RtpPacketHistory) (sequenceNumber : BitVec 16) (now : Int) :
    RtpPacketHistory :=
  h.update sequenceNumber fun s =>
    { s with
      sendTime := now
      pendingTransmission := false
      timesRetransmitted := s.timesRetransmitted + 1 }

def markPacketAsAborted (h : RtpPacketHistory) (sequenceNumber : BitVec 16) : RtpPacketHistory :=
  h.update sequenceNumber fun s => { s with pendingTransmission := false }

/-! ### Numbers of slots -/

/-- The packets have the numbers of their slots, from that of the first slot on. -/
def Numbered : BitVec 16 → List StoredPacket → Prop
  | _, [] => True
  | n, s :: rest => (∀ p ∈ s.packet, p.sequenceNumber = n) ∧ Numbered (n + 1) rest

theorem first_number (n : BitVec 16) : n + BitVec.ofNat 16 0 = n := BitVec.add_zero n

theorem next_number (n : BitVec 16) (i : Nat) :
    n + 1 + BitVec.ofNat 16 i = n + BitVec.ofNat 16 (i + 1) := by
  rw [BitVec.ofNat_add, BitVec.add_assoc, BitVec.add_comm 1]
  rfl

theorem numbered_append {n : BitVec 16} {a b : List StoredPacket} :
    Numbered n (a ++ b) ↔ Numbered n a ∧ Numbered (n + BitVec.ofNat 16 a.length) b := by
  induction a generalizing n with
  | nil =>
    rw [List.nil_append, List.length_nil, first_number]
    exact ⟨fun numbered => ⟨trivial, numbered⟩, fun numbered => numbered.2⟩
  | cons s rest ih =>
    rw [List.cons_append, Numbered, Numbered, ih, next_number, List.length_cons, and_assoc]

@[simp] theorem emptySlots_length (count : Nat) : (emptySlots count).length = count :=
  List.length_replicate

theorem mem_emptySlots {t : StoredPacket} {count : Nat} (member : t ∈ emptySlots count) :
    t.packet = none := by
  rw [List.eq_of_mem_replicate member]

theorem numbered_emptySlots (n : BitVec 16) (count : Nat) : Numbered n (emptySlots count) := by
  induction count generalizing n with
  | zero => trivial
  | succ count ih =>
    refine ⟨?_, ih (n + 1)⟩
    intro p named
    cases named

theorem Numbered.get {n : BitVec 16} {slots : List StoredPacket} (numbered : Numbered n slots) {i : Nat}
    {s : StoredPacket} (found : slots[i]? = some s) {p : RtpPacket} (filled : s.packet = some p) :
    p.sequenceNumber = n + BitVec.ofNat 16 i := by
  induction slots generalizing n i with
  | nil => cases found
  | cons t rest ih =>
    cases i with
    | zero =>
      cases found
      rw [numbered.1 p filled, first_number]
    | succ i => rw [ih numbered.2 found, next_number]

/-- A change of one slot that leaves no packet there but one of its number. -/
theorem Numbered.modify {n : BitVec 16} {slots : List StoredPacket} (numbered : Numbered n slots)
    {i : Nat} {f : StoredPacket → StoredPacket}
    (right : ∀ s, slots[i]? = some s → ∀ p ∈ (f s).packet, p.sequenceNumber = n + BitVec.ofNat 16 i) :
    Numbered n (slots.modify i f) := by
  induction slots generalizing n i with
  | nil =>
    rw [List.modify_nil]
    trivial
  | cons t rest ih =>
    cases i with
    | zero =>
      refine ⟨fun p filled => ?_, numbered.2⟩
      rw [right t rfl p filled, first_number]
    | succ i =>
      refine ⟨numbered.1, ih numbered.2 fun s found p filled => ?_⟩
      rw [right s found p filled, next_number]

/-- What is left in front of a numbered list is numbered too. -/
theorem Numbered.dropWhile {n : BitVec 16} {slots : List StoredPacket} (numbered : Numbered n slots)
    (empty : StoredPacket → Bool) : ∃ m, Numbered m (slots.dropWhile empty) := by
  induction slots generalizing n with
  | nil => exact ⟨n, trivial⟩
  | cons s rest ih =>
    rw [List.dropWhile_cons]
    split
    · exact ih numbered.2
    · exact ⟨n, numbered⟩

/-! ### The index of a number -/

theorem aheadOf_iff {n first : BitVec 16} (apart : n ≠ first) :
    Wrapping.aheadOf n first = true ↔
      (n - first).toNat < 32768 ∨ (n - first).toNat = 32768 ∧ first.toNat < n.toNat := by
  have way : (Wrapping.forwardDiff first n).toNat = (n - first).toNat := rfl
  rw [Wrapping.aheadOf, Wrapping.aheadOrAt, decide_eq_true apart, Bool.true_and]
  by_cases half : (n - first).toNat = 2 ^ (16 - 1)
  · rw [if_pos half, half, decide_eq_true_eq]
    simp
  · rw [if_neg half, decide_eq_true_eq, way]
    exact ⟨Or.inl, fun near => near.resolve_right fun both => half both.1⟩

/-- The index is the difference of the numbers, by the shorter way. -/
theorem getPacketIndex_near {front : StoredPacket} {p : RtpPacket} (filled : front.packet = some p)
    (rest : List StoredPacket) (n : BitVec 16) :
    -32768 ≤ getPacketIndex (front :: rest) n ∧ getPacketIndex (front :: rest) n ≤ 32768 ∧
      ∃ turns : Int, getPacketIndex (front :: rest) n =
        (n.toNat : Int) - p.sequenceNumber.toNat + turns * 65536 := by
  have below : n.toNat < 65536 := n.isLt
  have bound : p.sequenceNumber.toNat < 65536 := p.sequenceNumber.isLt
  have difference : (n - p.sequenceNumber).toNat = (65536 - p.sequenceNumber.toNat + n.toNat) % 65536 :=
    BitVec.toNat_sub n p.sequenceNumber
  simp only [getPacketIndex, filled, Option.map_some, Option.getD_some]
  generalize p.sequenceNumber = first at *
  by_cases same : first = n
  · rw [if_pos same, same]
    exact ⟨by omega, by omega, 0, by omega⟩
  have apart : n ≠ first := fun equal => same equal.symm
  have unequal : n.toNat ≠ first.toNat := fun equal => apart (BitVec.eq_of_toNat_eq equal)
  rw [if_neg same]
  simp only [aheadOf_iff apart, BitVec.lt_def, kSeqNumSpan]
  split
  · split
    · exact ⟨by omega, by omega, 1, by omega⟩
    · exact ⟨by omega, by omega, 0, by omega⟩
  · split
    · exact ⟨by omega, by omega, -1, by omega⟩
    · exact ⟨by omega, by omega, 0, by omega⟩

/-- The index of the number of a slot. -/
theorem getPacketIndex_slot {front : StoredPacket} {p : RtpPacket} (filled : front.packet = some p)
    (rest : List StoredPacket) {i : Nat} (inside : i < 32768) :
    getPacketIndex (front :: rest) (p.sequenceNumber + BitVec.ofNat 16 i) = i := by
  obtain ⟨least, most, turns, value⟩ := getPacketIndex_near filled rest
    (p.sequenceNumber + BitVec.ofNat 16 i)
  have sum : (p.sequenceNumber + BitVec.ofNat 16 i).toNat = (p.sequenceNumber.toNat + i) % 65536 := by
    rw [BitVec.toNat_add, BitVec.toNat_ofNat]
    omega
  rw [sum] at value
  omega

/-- A number stands at its index. -/
theorem number_of_index {front : StoredPacket} {p : RtpPacket} (filled : front.packet = some p)
    (rest : List StoredPacket) (n : BitVec 16) :
    n = p.sequenceNumber + BitVec.ofInt 16 (getPacketIndex (front :: rest) n) := by
  obtain ⟨_, _, turns, value⟩ := getPacketIndex_near filled rest n
  rw [value]
  apply BitVec.eq_of_toNat_eq
  have below : n.toNat < 65536 := n.isLt
  rw [BitVec.toNat_add, BitVec.toNat_ofInt]
  omega

/-! ### The layout of the deque -/

/-- There is a packet in the first slot, and the packets have the numbers of their slots. -/
def Layout (slots : List StoredPacket) : Prop :=
  (∃ n, Numbered n slots) ∧ ∀ s ∈ slots.head?, s.packet ≠ none

theorem Layout.front {front : StoredPacket} {rest : List StoredPacket} (layout : Layout (front :: rest)) :
    ∃ p, front.packet = some p ∧ Numbered p.sequenceNumber (front :: rest) := by
  obtain ⟨⟨n, numbered⟩, filled⟩ := layout
  obtain ⟨p, named⟩ := Option.ne_none_iff_exists'.mp (filled front rfl)
  refine ⟨p, named, ?_⟩
  rw [numbered.1 p named]
  exact numbered

theorem layout_dropWhile {n : BitVec 16} {slots : List StoredPacket} (numbered : Numbered n slots) :
    Layout (slots.dropWhile fun s => s.packet.isNone) := by
  refine ⟨numbered.dropWhile _, ?_⟩
  intro s head empty
  have filled := List.head?_dropWhile_not (fun s : StoredPacket => s.packet.isNone) slots
  rw [head] at filled
  simp [empty] at filled

theorem removePacket_zero (front : StoredPacket) (rest : List StoredPacket) :
    removePacket (front :: rest) 0 = rest.dropWhile fun s => s.packet.isNone := by
  simp [removePacket]

theorem removePacket_layout {slots : List StoredPacket} (layout : Layout slots) (i : Nat) :
    Layout (removePacket slots i) := by
  obtain ⟨⟨n, numbered⟩, filled⟩ := layout
  have kept : Numbered n (slots.modify i fun s => { s with packet := none }) :=
    numbered.modify fun s _ p named => nomatch named
  unfold removePacket
  simp only
  split
  · exact layout_dropWhile kept
  · rename_i later
    refine ⟨⟨n, kept⟩, ?_⟩
    cases slots with
    | nil => simp
    | cons front rest =>
      obtain ⟨i, rfl⟩ := Nat.exists_eq_succ_of_ne_zero later
      exact filled

/-- What holds of the slots, and goes on to hold when the first packet is removed for one of the two
reasons, holds after the loop. -/
theorem removeDead_induction {holds : List StoredPacket → Prop} {duration now : Int}
    (removed : ∀ front rest, holds (front :: rest) →
      (kMaxCapacity < (front :: rest).length ∨ front.sendTime + duration ≤ now) →
      holds (removePacket (front :: rest) 0))
    (turns : Nat) {slots : List StoredPacket} (before : holds slots) :
    holds (removeDead duration now turns slots) := by
  induction turns generalizing slots with
  | zero => exact before
  | succ turns ih =>
    cases slots with
    | nil => exact before
    | cons front rest =>
      rw [removeDead]
      split
      · rename_i many
        exact ih (removed front rest before (Or.inl many))
      · split
        · exact before
        · split
          · exact before
          · rename_i young
            split
            · exact ih (removed front rest before (Or.inr (not_lt.mp young)))
            · exact before

theorem removePacket_zero_length (front : StoredPacket) (rest : List StoredPacket) :
    (removePacket (front :: rest) 0).length ≤ rest.length := by
  rw [removePacket_zero]
  exact (List.dropWhile_suffix _).length_le

/-- With as many turns as slots, no more than the capacity is left. -/
theorem removeDead_length (duration now : Int) {turns : Nat} {slots : List StoredPacket}
    (enough : slots.length ≤ turns) :
    (removeDead duration now turns slots).length ≤ kMaxCapacity := by
  induction turns generalizing slots with
  | zero =>
    rw [List.eq_nil_of_length_eq_zero (Nat.le_zero.mp enough)]
    exact Nat.zero_le _
  | succ turns ih =>
    cases slots with
    | nil => exact Nat.zero_le _
    | cons front rest =>
      have fewer : (removePacket (front :: rest) 0).length ≤ turns :=
        (removePacket_zero_length front rest).trans (Nat.le_of_succ_le_succ enough)
      rw [removeDead]
      split
      · exact ih fewer
      · rename_i fits
        split
        · exact not_lt.mp fits
        · split
          · exact not_lt.mp fits
          · split
            · exact ih fewer
            · exact not_lt.mp fits

/-- The slots that are left stood there before. -/
theorem removeDead_suffix (duration now : Int) (turns : Nat) (slots : List StoredPacket) :
    removeDead duration now turns slots <:+ slots := by
  refine @removeDead_induction (fun left => left <:+ slots) duration now ?_ turns slots List.suffix_rfl
  intro front rest left _
  rw [removePacket_zero]
  exact ((List.dropWhile_suffix _).trans (List.suffix_cons front rest)).trans left

theorem removeDead_layout {duration now : Int} {slots : List StoredPacket} (turns : Nat)
    (layout : Layout slots) : Layout (removeDead duration now turns slots) :=
  removeDead_induction (fun _ _ layout _ => removePacket_layout layout 0) turns layout

/-! ### A new packet -/

/-- The slots before the new packet is put into one. -/
structure Widened (slots all : List StoredPacket) (n : BitVec 16) (i : Nat) : Prop where
  numbered : Numbered n all
  inside : i < all.length
  small : all.length ≤ 65536
  front : i ≠ 0 → ∀ t ∈ all.head?, t.packet ≠ none
  old : ∀ t ∈ all, t.packet = none ∨ t ∈ slots

/-- The slots with new ones before them or behind. -/
theorem insertPacket_widened {slots : List StoredPacket} (layout : Layout slots)
    (few : slots.length ≤ kMaxCapacity) (s : StoredPacket) (number : BitVec 16) {k : Int}
    (index : getPacketIndex slots number = k) :
    ∃ all n, insertPacket slots k s = all.set k.toNat s ∧ Widened slots all n k.toNat ∧
      number = n + BitVec.ofNat 16 k.toNat := by
  unfold kMaxCapacity at few
  cases slots with
  | nil =>
    cases index
    refine ⟨emptySlots 1, number, rfl, ⟨numbered_emptySlots number 1, Nat.one_pos, ?_, ?_, ?_⟩,
      (first_number number).symm⟩
    · rw [emptySlots_length]
      omega
    · exact fun nonzero => absurd rfl nonzero
    · exact fun t member => Or.inl (mem_emptySlots member)
  | cons front rest =>
    obtain ⟨q, filled, numbered⟩ := layout.front
    obtain ⟨least, most, _⟩ := getPacketIndex_near filled rest number
    have place := number_of_index filled rest number
    rw [index] at least most place
    have counted : (front :: rest).length = rest.length + 1 := rfl
    by_cases before : k < 0
    · have zero : k.toNat = 0 := by omega
      have none : 0 + 1 - (emptySlots (-k).toNat ++ front :: rest).length = 0 := by
        rw [List.length_append, counted]
        omega
      refine ⟨emptySlots (-k).toNat ++ front :: rest, number, ?_, ?_, ?_⟩
      · rw [insertPacket, zero, none]
        exact congrArg (fun slots => slots.set 0 s) (List.append_nil _)
      · rw [zero]
        refine ⟨?_, ?_, ?_, fun nonzero => absurd rfl nonzero, ?_⟩
        · refine numbered_append.mpr ⟨numbered_emptySlots _ _, ?_⟩
          have shift : number + BitVec.ofNat 16 (-k).toNat = q.sequenceNumber := by
            rw [place]
            apply BitVec.eq_of_toNat_eq
            rw [BitVec.toNat_add, BitVec.toNat_add, BitVec.toNat_ofInt, BitVec.toNat_ofNat]
            have below : q.sequenceNumber.toNat < 65536 := q.sequenceNumber.isLt
            omega
          rw [emptySlots_length, shift]
          exact numbered
        · rw [List.length_append, counted]
          omega
        · rw [List.length_append, emptySlots_length]
          omega
        · intro t member
          rcases List.mem_append.mp member with new | inside
          · exact Or.inl (mem_emptySlots new)
          · exact Or.inr inside
      · rw [zero, first_number]
    · have natural : BitVec.ofInt 16 k = BitVec.ofNat 16 k.toNat := by
        apply BitVec.eq_of_toNat_eq
        rw [BitVec.toNat_ofInt, BitVec.toNat_ofNat]
        omega
      have none : (-k).toNat = 0 := by omega
      refine ⟨front :: rest ++ emptySlots (k.toNat + 1 - (front :: rest).length), q.sequenceNumber, ?_,
        ⟨?_, ?_, ?_, ?_, ?_⟩, ?_⟩
      · rw [insertPacket, none]
        rfl
      · exact numbered_append.mpr ⟨numbered, numbered_emptySlots _ _⟩
      · rw [List.length_append, emptySlots_length]
        omega
      · rw [List.length_append, emptySlots_length]
        omega
      · intro _ t head
        cases head
        rw [filled]
        exact Option.some_ne_none q
      · intro t member
        rcases List.mem_append.mp member with inside | new
        · exact Or.inr inside
        · exact Or.inl (mem_emptySlots new)
      · rw [← natural]
        exact place

/-- The deque with a new packet, in which no other slot has a packet of its number. -/
theorem insertPacket_layout {slots : List StoredPacket} (layout : Layout slots)
    (few : slots.length ≤ kMaxCapacity) {s : StoredPacket} {p : RtpPacket} (named : s.packet = some p)
    {k : Int} (index : getPacketIndex slots p.sequenceNumber = k) :
    Layout (insertPacket slots k s) ∧ ∀ t ∈ insertPacket slots k s, t = s ∨ t.packet = none ∨
      t ∈ slots ∧ ∀ q ∈ t.packet, q.sequenceNumber ≠ p.sequenceNumber := by
  obtain ⟨all, n, made, widened, number⟩ := insertPacket_widened layout few s p.sequenceNumber index
  rw [made]
  have own : ∀ q ∈ s.packet, q.sequenceNumber = n + BitVec.ofNat 16 k.toNat := by
    intro q filled
    rw [named] at filled
    cases filled
    exact number
  have numbered : Numbered n (all.set k.toNat s) := by
    rw [List.set_eq_modify]
    exact widened.numbered.modify fun _ _ => own
  refine ⟨⟨⟨n, numbered⟩, ?_⟩, ?_⟩
  · intro t head
    cases all with
    | nil => cases head
    | cons first rest =>
      by_cases zero : k.toNat = 0
      · rw [zero] at head
        cases head
        rw [named]
        exact Option.some_ne_none p
      · refine widened.front zero t ?_
        obtain ⟨i, succ⟩ := Nat.exists_eq_succ_of_ne_zero zero
        rw [succ] at head
        exact head
  · intro t member
    obtain ⟨j, inside, place⟩ := List.getElem_of_mem member
    have found : (all.set k.toNat s)[j]? = some t := List.getElem?_eq_some_iff.mpr ⟨inside, place⟩
    by_cases same : k.toNat = j
    · rw [← same, List.getElem?_set_self widened.inside] at found
      exact Or.inl (Option.some.inj found).symm
    · have kept := found
      rw [List.getElem?_set_ne same] at kept
      refine Or.inr ((widened.old t (List.mem_of_getElem? kept)).imp_right fun old => ⟨old, ?_⟩)
      intro q filled equal
      have standing := numbered.get found filled
      rw [equal, number] at standing
      have small := widened.small
      have within := widened.inside
      rw [List.length_set] at inside
      have residues := congrArg BitVec.toNat (add_left_cancel standing)
      rw [BitVec.toNat_ofNat, BitVec.toNat_ofNat] at residues
      omega

/-! ### The slot of a number -/

theorem storedIndex_some {slots : List StoredPacket} (layout : Layout slots) {n : BitVec 16} {i : Nat}
    (found : storedIndex slots n = some i) :
    ∃ s p, slots[i]? = some s ∧ s.packet = some p ∧ p.sequenceNumber = n := by
  unfold storedIndex at found
  simp only at found
  split at found
  · cases found
  rename_i natural
  obtain ⟨s, here, filled⟩ := Option.bind_eq_some_iff.mp found
  split at filled
  · rename_i some
    cases filled
    obtain ⟨p, named⟩ := Option.isSome_iff_exists.mp some
    refine ⟨s, p, here, named, ?_⟩
    cases slots with
    | nil => cases here
    | cons front rest =>
      obtain ⟨q, first, numbered⟩ := layout.front
      have index : BitVec.ofInt 16 (getPacketIndex (front :: rest) n) =
          BitVec.ofNat 16 (getPacketIndex (front :: rest) n).toNat := by
        rw [← BitVec.ofInt_natCast, Int.toNat_of_nonneg (not_lt.mp natural)]
      rw [numbered.get here named, ← index]
      exact (number_of_index first rest n).symm
  · cases filled

theorem storedIndex_slot {slots : List StoredPacket} (layout : Layout slots)
    (few : slots.length ≤ kMaxCapacity) {i : Nat} {s : StoredPacket} {p : RtpPacket}
    (here : slots[i]? = some s) (filled : s.packet = some p) :
    storedIndex slots p.sequenceNumber = some i := by
  unfold kMaxCapacity at few
  have inside := (List.getElem?_eq_some_iff.mp here).1
  cases slots with
  | nil => cases here
  | cons front rest =>
    obtain ⟨q, first, numbered⟩ := layout.front
    have index := getPacketIndex_slot first rest (show i < 32768 by omega)
    rw [storedIndex, numbered.get here filled, index, if_neg (by omega), Int.toNat_natCast, here,
      Option.bind_some, filled]
    rfl

theorem storedIndex_beyond {front : StoredPacket} {rest : List StoredPacket} {q : RtpPacket}
    (filled : front.packet = some q) {i : Nat} (beyond : (front :: rest).length ≤ i) (near : i < 32768) :
    storedIndex (front :: rest) (q.sequenceNumber + BitVec.ofNat 16 i) = none := by
  rw [storedIndex, getPacketIndex_slot filled rest near, if_neg (by omega), Int.toNat_natCast,
    List.getElem?_eq_none beyond]
  rfl

/-- What is left after a removal stood there before, or has lost its packet. -/
theorem removePacket_mem {slots : List StoredPacket} {i : Nat} {t : StoredPacket}
    (member : t ∈ removePacket slots i) : t.packet = none ∨ t ∈ slots := by
  have among : t ∈ slots.modify i fun s => { s with packet := none } := by
    unfold removePacket at member
    simp only at member
    split at member
    · exact (List.dropWhile_suffix _).subset member
    · exact member
  obtain ⟨j, here⟩ := List.mem_iff_getElem?.mp among
  rw [List.getElem?_modify] at here
  obtain ⟨s, before, rfl⟩ := Option.map_eq_some_iff.mp here
  split
  · exact Or.inl rfl
  · exact Or.inr (List.mem_of_getElem? before)

theorem removePacket_length (slots : List StoredPacket) (i : Nat) :
    (removePacket slots i).length ≤ slots.length := by
  unfold removePacket
  simp only
  split
  · exact (List.dropWhile_suffix _).length_le.trans (List.length_modify ..).le
  · exact (List.length_modify ..).le

theorem removeDuplicate_layout {slots : List StoredPacket} (layout : Layout slots) (n : BitVec 16) :
    Layout (removeDuplicate slots n).1 ∧ (removeDuplicate slots n).1.length ≤ slots.length ∧
      getPacketIndex (removeDuplicate slots n).1 n = (removeDuplicate slots n).2 ∧
      ∀ t ∈ (removeDuplicate slots n).1, t.packet = none ∨ t ∈ slots := by
  unfold removeDuplicate
  cases storedIndex slots n with
  | none => exact ⟨layout, le_rfl, rfl, fun t member => Or.inr member⟩
  | some i =>
    exact ⟨removePacket_layout layout i, removePacket_length slots i, rfl,
      fun t member => removePacket_mem member⟩

/-- A change of a slot that leaves its packet. -/
theorem modify_layout {slots : List StoredPacket} (layout : Layout slots) (i : Nat)
    {f : StoredPacket → StoredPacket} (same : ∀ s, (f s).packet = s.packet) :
    Layout (slots.modify i f) := by
  obtain ⟨⟨n, numbered⟩, filled⟩ := layout
  refine ⟨⟨n, numbered.modify fun s found p named => ?_⟩, ?_⟩
  · rw [same] at named
    exact numbered.get found named
  · intro t head
    cases slots with
    | nil =>
      rw [List.modify_nil] at head
      cases head
    | cons front rest =>
      cases i with
      | zero =>
        cases head
        rw [same]
        exact filled front rfl
      | succ i => exact filled t head

end RtpPacketHistory

end MiniRtc.Rtp
