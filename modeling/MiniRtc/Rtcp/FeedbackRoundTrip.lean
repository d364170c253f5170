import MiniRtc.Rtcp.Feedback

/-! What `Create` writes, `Parse` reads.
The octets of a fragment are described as a whole first; the writer puts exactly these into
the buffer, and the reader takes them apart again. -/
namespace MiniRtc.Rtcp
open Wire

/-- Neighbours of one SSRC are consecutive. -/
def Follows (p q : PacketInfo) : Prop :=
  q.ssrc = p.ssrc → q.sequenceNumber = p.sequenceNumber + 1

instance (p q : PacketInfo) : Decidable (Follows p q) := inferInstanceAs (Decidable (_ → _))

/-- What the reader makes of a packet: an offset is known by its code, and of a packet
without a finite offset nothing is reported. -/
def delivered (ticks : Nat → Nat) (p : PacketInfo) : PacketInfo :=
  match p.arrivalTimeOffset with
  | .finite us => { p with arrivalTimeOffset := atoToTimeDelta (to13bitAto ticks us) }
  | _ => { p with arrivalTimeOffset := .minusInfinity, ecn := .kNotEct }

section Word

theorem to13bitAto_lt (ticks : Nat → Nat) (us : Int) : (to13bitAto ticks us).toNat < 2 ^ 13 := by
  unfold to13bitAto
  split
  · decide
  · rw [BitVec.toNat_ofNat]
    omega

/-- The top three bits of a report say that the packet came in, and its mark. -/
def mark (ecn : EcnMarking) : Nat :=
  4 + match ecn with
    | .kNotEct => 0
    | .kEct1 => 1
    | .kEct0 => 2
    | .kCe => 3

theorem word_toNat (ecn : EcnMarking) {ato : BitVec 16} (small : ato.toNat < 2 ^ 13) :
    (0x8000 ||| to2BitEcn ecn ||| ato).toNat = 2 ^ 13 * mark ecn + ato.toNat := by
  have high : (0x8000 ||| to2BitEcn ecn).toNat = 2 ^ 13 * mark ecn := by cases ecn <;> decide
  rw [BitVec.toNat_or, high, Nat.two_pow_add_eq_or_of_lt small]

theorem code_self {ato : BitVec 16} (small : ato.toNat < 2 ^ 13) : ato &&& 0x1FFF = ato := by
  apply BitVec.eq_of_toNat_eq
  rw [BitVec.toNat_and, show (0x1FFF : BitVec 16).toNat = 2 ^ 13 - 1 by rfl,
    Nat.and_two_pow_sub_one_eq_mod, Nat.mod_eq_of_lt small]

theorem word_code (ecn : EcnMarking) {ato : BitVec 16} (small : ato.toNat < 2 ^ 13) :
    (0x8000 ||| to2BitEcn ecn ||| ato) &&& 0x1FFF = ato := by
  apply BitVec.eq_of_toNat_eq
  rw [BitVec.toNat_and, word_toNat ecn small, show (0x1FFF : BitVec 16).toNat = 2 ^ 13 - 1 by rfl,
    Nat.and_two_pow_sub_one_eq_mod, Nat.mul_add_mod, Nat.mod_eq_of_lt small]

theorem word_ecn (ecn : EcnMarking) {ato : BitVec 16} (small : ato.toNat < 2 ^ 13) :
    toEcnMarking (0x8000 ||| to2BitEcn ecn ||| ato) = ecn := by
  have mask : (3 : BitVec 16).toNat = 2 ^ 2 - 1 := rfl
  have top : ((0x8000 ||| to2BitEcn ecn ||| ato) >>> 13 &&& 3) = BitVec.ofNat 16 (mark ecn % 4) := by
    apply BitVec.eq_of_toNat_eq
    rw [BitVec.toNat_and, BitVec.toNat_ushiftRight, word_toNat ecn small, mask,
      Nat.and_two_pow_sub_one_eq_mod, Nat.shiftRight_eq_div_pow, Nat.mul_add_div (by decide),
      Nat.div_eq_of_lt small, BitVec.toNat_ofNat]
    omega
  unfold toEcnMarking
  rw [top]
  cases ecn <;> rfl

theorem word_received (ecn : EcnMarking) (ato : BitVec 16) :
    (0x8000 ||| to2BitEcn ecn ||| ato) &&& 0x8000 ≠ 0 := by
  intro none
  have bit := congrArg (fun w => w.getLsbD 15) none
  simp at bit

theorem readReport_word (ticks : Nat → Nat) (payload : Bytes) (position : Nat) (p : PacketInfo)
    (ssrc : BitVec 32) (base : BitVec 16) (i : Nat) (same : p.ssrc = ssrc)
    (number : p.sequenceNumber = base + BitVec.ofNat 16 i)
    (word : get16 payload (position + 2 * i) = packetInfoWord ticks p) :
    CongestionControlFeedback.readReport payload position ssrc base i = delivered ticks p := by
  obtain ⟨_, _, offset, ecn⟩ := p
  subst same number
  cases offset with
  | finite us =>
    have small := to13bitAto_lt ticks us
    simp only [packetInfoWord] at word
    have known : atoToTimeDelta (0x8000 ||| to2BitEcn ecn ||| to13bitAto ticks us) =
        atoToTimeDelta (to13bitAto ticks us) := by
      rw [atoToTimeDelta, word_code ecn small, atoToTimeDelta, code_self small]
    simp only [CongestionControlFeedback.readReport, word, delivered, word_ecn ecn small, known,
      if_pos (word_received ecn _)]
  | minusInfinity | plusInfinity =>
    simp only [packetInfoWord] at word
    simp only [CongestionControlFeedback.readReport, word, delivered]
    rfl

end Word

/-! ### The octets of a packet -/

def reportBytes (ticks : Nat → Nat) (reports : List PacketInfo) : Bytes :=
  reports.flatMap fun p => put16 (packetInfoWord ticks p)

def padding (n : Nat) : Bytes := if n % 2 ≠ 0 then put16 0 else []

def blockBytes (ticks : Nat → Nat) (ssrc : BitVec 32) (base : BitVec 16) (reports : List PacketInfo) :
    Bytes :=
  put32 ssrc ++ (put16 base ++ (put16 (BitVec.ofNat 16 reports.length) ++
    (reportBytes ticks reports ++ padding reports.length)))

/-- A block that the writer makes: reports of one SSRC with consecutive numbers, and a count
that fits. -/
structure Block (g : List PacketInfo) (ssrc : BitVec 32) (base : BitVec 16) : Prop where
  some : 0 < g.length
  count : g.length ≤ kMaxReportsPerSsrc
  ssrc : ∀ p ∈ g, p.ssrc = ssrc
  number : ∀ i (h : i < g.length), g[i].sequenceNumber = base + BitVec.ofNat 16 i

/-- The blocks of a packet, with their headers. -/
structure Header where
  ssrc : BitVec 32
  base : BitVec 16
  reports : List PacketInfo

def Header.Ok (h : Header) : Prop := Block h.reports h.ssrc h.base

def Header.bytes (ticks : Nat → Nat) (h : Header) : Bytes := blockBytes ticks h.ssrc h.base h.reports

def fragmentBytes (ticks : Nat → Nat) (f : CongestionControlFeedback) (blocks : List Header) : Bytes :=
  let body := blocks.flatMap (Header.bytes ticks)
  createHeader kFeedbackMessageType kPacketType ((12 + body.length) / 4 - 1) ++
    (put32 f.senderSsrc ++ (body ++ put32 f.reportTimestampCompactNtp))

section Sizes

variable (ticks : Nat → Nat)

@[simp] theorem reportBytes_length (reports : List PacketInfo) :
    (reportBytes ticks reports).length = 2 * reports.length := by
  induction reports with
  | nil => rfl
  | cons p rest ih =>
    rw [reportBytes, List.flatMap_cons, List.length_append, ← reportBytes, ih, put16_length,
      List.length_cons]
    omega

@[simp] theorem padding_length (n : Nat) : (padding n).length = n % 2 * 2 := by
  unfold padding
  split
  · rw [put16_length]
    omega
  · rw [List.length_nil]
    omega

theorem blockBytes_length (ssrc : BitVec 32) (base : BitVec 16) (reports : List PacketInfo) :
    (blockBytes ticks ssrc base reports).length = 8 + (reports.length + 1) / 2 * 4 := by
  simp only [blockBytes, List.length_append, put32_length, put16_length, reportBytes_length,
    padding_length]
  omega

theorem Header.bytes_length (h : Header) :
    (h.bytes ticks).length = 8 + (h.reports.length + 1) / 2 * 4 :=
  blockBytes_length ticks h.ssrc h.base h.reports

theorem body_length (blocks : List Header) :
    (blocks.flatMap (Header.bytes ticks)).length % 4 = 0 := by
  induction blocks with
  | nil => rfl
  | cons h rest ih =>
    rw [List.flatMap_cons, List.length_append, h.bytes_length]
    omega

theorem fragmentBytes_length (f : CongestionControlFeedback) (blocks : List Header) :
    (fragmentBytes ticks f blocks).length = 12 + (blocks.flatMap (Header.bytes ticks)).length := by
  simp only [fragmentBytes, createHeader, List.length_append, put32_length, put16_length,
    List.length_cons, List.length_nil]
  omega

end Sizes

/-! ### The writer -/

section Writer

variable (ticks : Nat → Nat)

theorem put_eq {buffer v : Bytes} {position : Nat} (fits : position + v.length ≤ buffer.length) :
    put buffer position v = some (overwrite buffer position v) := if_pos fits

/-- A second write directly behind a first one. -/
theorem put_behind (buffer v w : Bytes) (position : Nat)
    (fits : position + v.length + w.length ≤ buffer.length) :
    put (overwrite buffer position v) (position + v.length) w =
      some (overwrite buffer position (v ++ w)) := by
  rw [put_eq (by rw [overwrite_length (by omega)]; exact fits), overwrite_overwrite fits]

namespace CongestionControlFeedback

theorem writeReports_eq (buffer done : Bytes) (position : Nat) (reports : List PacketInfo)
    (fits : position + done.length + 2 * reports.length ≤ buffer.length) :
    writeReports ticks (overwrite buffer position done) (position + done.length) reports =
      some (overwrite buffer position (done ++ reportBytes ticks reports),
        position + done.length + 2 * reports.length) := by
  induction reports generalizing done with
  | nil => simp [writeReports, reportBytes]
  | cons p rest ih =>
    rw [List.length_cons] at fits
    rw [writeReports, put_behind _ _ _ _ (by rw [put16_length]; omega)]
    have next := ih (done ++ put16 (packetInfoWord ticks p)) (by
      rw [List.length_append, put16_length]
      omega)
    rw [List.length_append, put16_length, ← Nat.add_assoc] at next
    simp only [Option.bind_eq_bind, Option.bind_some, next, reportBytes, List.flatMap_cons,
      List.append_assoc, List.length_cons]
    congr 2
    omega

theorem writeBlock_eq (buffer done : Bytes) (position : Nat) (ssrc : BitVec 32) (base : BitVec 16)
    (reports : List PacketInfo)
    (fits : position + done.length + (blockBytes ticks ssrc base reports).length ≤ buffer.length) :
    writeBlock ticks (overwrite buffer position done) (position + done.length) ssrc base reports =
      some (overwrite buffer position (done ++ blockBytes ticks ssrc base reports),
        position + done.length + (blockBytes ticks ssrc base reports).length) := by
  rw [blockBytes_length] at fits ⊢
  have head := put_behind buffer done (put32 ssrc) position
    (by rw [put32_length]; omega)
  have number := put_behind buffer (done ++ put32 ssrc) (put16 base) position
    (by simp; omega)
  have count := put_behind buffer (done ++ put32 ssrc ++ put16 base)
    (put16 (BitVec.ofNat 16 reports.length)) position (by simp; omega)
  have words := writeReports_eq ticks buffer
    (done ++ put32 ssrc ++ put16 base ++ put16 (BitVec.ofNat 16 reports.length)) position reports
    (by simp; omega)
  simp only [List.length_append, put32_length, put16_length, ← Nat.add_assoc] at number count words
  simp only [writeBlock, head, number, count, kHeaderPerMediaSssrcLength, Option.bind_eq_bind,
    Option.bind_some]
  rw [show position + done.length + 8 = position + done.length + 4 + 2 + 2 by omega, words,
    Option.bind_some]
  split
  · rename_i odd
    have pad := put_behind buffer
      (done ++ put32 ssrc ++ put16 base ++ put16 (BitVec.ofNat 16 reports.length) ++
        reportBytes ticks reports) (put16 0) position (by simp; omega)
    simp only [List.length_append, put32_length, put16_length, reportBytes_length,
      ← Nat.add_assoc] at pad
    rw [pad, Option.bind_some]
    simp only [blockBytes, padding, if_pos odd, List.append_assoc, pure]
    congr 2
    omega
  · rename_i even
    simp only [blockBytes, padding, if_neg even, List.append_assoc, List.append_nil, pure]
    congr 2
    omega

/-- Neighbours of one SSRC count up. -/
theorem number_of_chain {g : List PacketInfo} {ssrc : BitVec 32} {base : BitVec 16}
    (chain : g.IsChain Follows) (one : ∀ p ∈ g, p.ssrc = ssrc)
    (first : ∀ p ∈ g.head?, p.sequenceNumber = base) (i : Nat) (inside : i < g.length) :
    g[i].sequenceNumber = base + BitVec.ofNat 16 i := by
  induction i with
  | zero =>
    have head : g.head? = some g[0] := by rw [List.head?_eq_getElem?, List.getElem?_eq_getElem]
    rw [first _ head]
    exact (BitVec.add_zero base).symm
  | succ i ih =>
    have step := List.isChain_iff_getElem.mp chain i inside
    have same : g[i + 1].ssrc = g[i].ssrc := by
      rw [one _ (List.getElem_mem _), one _ (List.getElem_mem _)]
    rw [step same, ih (by omega), BitVec.ofNat_add, BitVec.add_assoc]
    rfl

/-- A block takes packets from the front, all of one SSRC, and at least one if it has room. -/
theorem reportsFor_spec {fragmentEnd position : Nat} {first : PacketInfo} {rest reports : List PacketInfo}
    (chain : (first :: rest).IsChain Follows)
    (room : kMinReportBlockLength + kTimestampLength ≤ fragmentEnd - position)
    (taken : reportsFor fragmentEnd position first.ssrc (first :: rest) = reports) :
    Header.Ok ⟨first.ssrc, first.sequenceNumber, reports⟩ ∧
      reports ++ (first :: rest).drop reports.length = first :: rest ∧ 0 < reports.length ∧
        position + (8 + (reports.length + 1) / 2 * 4) + kTimestampLength ≤ fragmentEnd := by
  simp only [kMinReportBlockLength, kHeaderPerMediaSssrcLength, kTimestampLength] at room ⊢
  obtain ⟨m, limit⟩ : ∃ m, m = min ((fragmentEnd - position - 4 - 8) / 4 * 2) 16384 := ⟨_, rfl⟩
  have taken : ((first :: rest).take m).takeWhile (fun p => p.ssrc = first.ssrc) = reports := by
    rw [limit]
    exact taken
  obtain ⟨n, size⟩ : ∃ n, m = n + 1 := ⟨m - 1, by omega⟩
  have front : reports <+: first :: rest := by
    rw [← taken]
    exact (List.takeWhile_prefix _).trans (List.take_prefix _ _)
  have short : reports.length ≤ m := by
    rw [← taken]
    exact (List.takeWhile_prefix _).length_le.trans (List.length_take_le _ _)
  have head : reports.head? = some first := by
    rw [← taken, size, List.take_succ_cons, List.takeWhile_cons_of_pos (by simp)]
    rfl
  have one : ∀ p ∈ reports, p.ssrc = first.ssrc := by
    intro p member
    rw [← taken] at member
    simpa using List.mem_takeWhile_imp member
  obtain ⟨later, whole⟩ := front
  have some : 0 < reports.length := by
    cases reports with
    | nil => cases head
    | cons _ _ => exact Nat.succ_pos _
  refine ⟨⟨some, by show reports.length ≤ 16384; omega, one, ?_⟩, ?_, some, by omega⟩
  · apply number_of_chain _ one
    · intro p there
      rw [head] at there
      cases there
      rfl
    · rw [← whole] at chain
      exact chain.left_of_append
  · rw [← whole, List.drop_left]

/-- The loop over the blocks writes blocks for the packets that it takes, stays clear of the
place of the timestamp, and takes some if it can. -/
theorem writeBlocks_spec {fragmentEnd turns position : Nat} {packets : List PacketInfo}
    {buffer done : Bytes} (chain : packets.IsChain Follows) (enough : packets.length < turns)
    (inside : fragmentEnd ≤ buffer.length)
    (room : position + done.length + kTimestampLength ≤ fragmentEnd) :
    ∃ (blocks : List Header) (later : List PacketInfo),
      packets = blocks.flatMap Header.reports ++ later ∧ (∀ h ∈ blocks, h.Ok) ∧
      position + (done ++ blocks.flatMap (Header.bytes ticks)).length + kTimestampLength ≤ fragmentEnd ∧
      (packets ≠ [] → kMinReportBlockLength + kTimestampLength ≤ fragmentEnd - (position + done.length) →
        later.length < packets.length) ∧
      writeBlocks ticks fragmentEnd turns packets (overwrite buffer position done)
          (position + done.length) =
        some (later, overwrite buffer position (done ++ blocks.flatMap (Header.bytes ticks)),
          position + (done ++ blocks.flatMap (Header.bytes ticks)).length) := by
  induction turns generalizing packets done with
  | zero => omega
  | succ turns ih =>
    cases packets with
    | nil => exact ⟨[], [], by simp, by simp, by simpa using room, by simp, by simp [writeBlocks]⟩
    | cons first rest =>
      unfold writeBlocks
      split
      · rename_i full
        exact ⟨[], first :: rest, by simp, by simp, by simpa using room, fun _ wide => by omega,
          by simp⟩
      · rename_i wide
        generalize taken : reportsFor fragmentEnd (position + done.length) first.ssrc (first :: rest) =
          reports
        obtain ⟨ok, whole, some, fits⟩ := reportsFor_spec chain (by omega) taken
        obtain ⟨h, same⟩ : ∃ h : Header, h = ⟨first.ssrc, first.sequenceNumber, reports⟩ := ⟨_, rfl⟩
        have bytes : h.bytes ticks = blockBytes ticks first.ssrc first.sequenceNumber reports := by
          rw [same]
          rfl
        have size := blockBytes_length ticks first.ssrc first.sequenceNumber reports
        have block := writeBlock_eq ticks buffer done position first.ssrc first.sequenceNumber reports
          (by simp only [kTimestampLength] at fits; omega)
        have shorter : ((first :: rest).drop reports.length).length < (first :: rest).length := by
          rw [List.length_drop, List.length_cons]
          omega
        have position' : position + done.length +
            (blockBytes ticks first.ssrc first.sequenceNumber reports).length =
              position + (done ++ h.bytes ticks).length := by
          rw [bytes, List.length_append]
          omega
        simp only [Option.bind_eq_bind, block, Option.bind_some, position']
        rw [← bytes] at size ⊢
        have fits' : position + (done ++ h.bytes ticks).length + kTimestampLength ≤ fragmentEnd := by
          rw [List.length_append]
          omega
        split
        · refine ⟨[h], (first :: rest).drop reports.length, ?_, ?_, ?_, fun _ _ => shorter, ?_⟩
          · rw [List.flatMap_singleton, same, whole]
          · intro x member
            rw [List.mem_singleton.mp member, same]
            exact ok
          · simpa using fits'
          · simp
        · obtain ⟨blocks, later, split, oks, room', _, result⟩ := ih
            (List.IsChain.right_of_append (whole ▸ chain)) (by omega) fits'
          refine ⟨h :: blocks, later, ?_, ?_, ?_, ?_, ?_⟩
          · rw [List.flatMap_cons, List.append_assoc, ← split, same, whole]
          · intro x member
            rcases List.mem_cons.mp member with rfl | member
            · rw [same]
              exact ok
            · exact oks x member
          · rw [List.flatMap_cons, ← List.append_assoc]
            exact room'
          · intro _ _
            have := congrArg List.length split
            rw [List.length_append] at this
            omega
          · rw [result, List.flatMap_cons, List.append_assoc]

/-- One turn of the outer loop puts one whole packet where the position was. -/
theorem writeFragment_eq (f : CongestionControlFeedback) {turns maxLength : Nat}
    {packets : List PacketInfo} {o : Output} (chain : packets.IsChain Follows)
    (enough : packets.length < turns) (inside : maxLength ≤ o.buffer.length)
    (room : kFeedbackHeaderLength + (if packets = [] then 0 else kMinReportBlockLength) ≤
      maxLength - o.position) :
    ∃ (blocks : List Header) (later : List PacketInfo),
      packets = blocks.flatMap Header.reports ++ later ∧ (∀ h ∈ blocks, h.Ok) ∧
      (packets ≠ [] → later.length < packets.length) ∧
      (fragmentBytes ticks f blocks).length ≤ kMaxRtcpPacketLength ∧
      o.position + (fragmentBytes ticks f blocks).length ≤ maxLength ∧
      f.writeFragment ticks turns maxLength packets o =
        some (later, { o with
          buffer := overwrite o.buffer o.position (fragmentBytes ticks f blocks)
          position := o.position + (fragmentBytes ticks f blocks).length }) := by
  simp only [kFeedbackHeaderLength, kHeaderLength, kSenderSsrcLength, kTimestampLength] at room
  generalize ends : o.position + min ((maxLength - o.position) / 4 * 4) kMaxRtcpPacketLength =
    fragmentEnd
  have limit : kMaxRtcpPacketLength = 262140 := rfl
  have room' : o.position + 8 + ([] : Bytes).length + kTimestampLength ≤ fragmentEnd := by
    simp only [List.length_nil, kTimestampLength]
    omega
  obtain ⟨blocks, later, split, oks, fits, progress, result⟩ :=
    writeBlocks_spec ticks chain enough
      (show fragmentEnd ≤ o.buffer.length by omega) room'
  rw [overwrite_nil, List.nil_append, List.length_nil, Nat.add_zero] at result
  rw [List.nil_append] at fits
  generalize inner : blocks.flatMap (Header.bytes ticks) = body at result fits
  have size : (fragmentBytes ticks f blocks).length = 12 + body.length := by
    rw [fragmentBytes_length, inner]
  simp only [kTimestampLength] at fits
  have stamp := put_behind o.buffer body (put32 f.reportTimestampCompactNtp)
    (o.position + 8) (by rw [put32_length]; omega)
  refine ⟨blocks, later, split, oks, ?_, by omega, by omega, ?_⟩
  · intro some
    rw [if_neg some] at room
    simp only [kMinReportBlockLength, kHeaderPerMediaSssrcLength, kTimestampLength] at room progress
    exact progress some (by rw [List.length_nil]; omega)
  · have place : (o.position + 8 + body.length + 4 - o.position) / 4 - 1 = (12 + body.length) / 4 - 1 := by
      omega
    generalize content : body ++ put32 f.reportTimestampCompactNtp = rest at stamp
    have restSize : rest.length = body.length + 4 := by
      rw [← content, List.length_append, put32_length]
    generalize header : createHeader kFeedbackMessageType kPacketType ((12 + body.length) / 4 - 1) = head
    have headSize : head.length = 4 := by
      rw [← header]
      rfl
    have whole : head ++ put32 f.senderSsrc ++ rest = fragmentBytes ticks f blocks := by
      rw [fragmentBytes, inner, header, content, List.append_assoc]
    have first : put (overwrite o.buffer (o.position + 8) rest) o.position head =
        some (overwrite (overwrite o.buffer (o.position + 8) rest) o.position head) :=
      put_eq (by rw [overwrite_length (by omega)]; omega)
    have second := put_behind (overwrite o.buffer (o.position + 8) rest) head
      (put32 f.senderSsrc) o.position
      (by rw [overwrite_length (by omega), put32_length]; omega)
    have before := @overwrite_before o.buffer (head ++ put32 f.senderSsrc) rest
      o.position (by rw [List.length_append, put32_length]; omega)
    rw [List.length_append, put32_length, headSize, whole] at before
    rw [headSize, before] at second
    unfold writeFragment
    simp only [kHeaderLength, kSenderSsrcLength, kTimestampLength, Option.bind_eq_bind, ends]
    rw [show o.position + 4 + 4 = o.position + 8 by omega, result, Option.bind_some]
    simp only [stamp, Option.bind_some, place, header, first, second, size, pure]
    congr 3
    omega

end CongestionControlFeedback

end Writer

/-! ### The reader -/

section Reader

variable (ticks : Nat → Nat)

theorem get16_reportBytes (a b : Bytes) (reports : List PacketInfo) (i : Nat)
    (inside : i < reports.length) :
    get16 (a ++ (reportBytes ticks reports ++ b)) (a.length + 2 * i) =
      packetInfoWord ticks reports[i] := by
  induction reports generalizing a i with
  | nil => cases inside
  | cons p rest ih =>
    rw [reportBytes, List.flatMap_cons, ← reportBytes, List.append_assoc]
    cases i with
    | zero => exact get16_put16 a _ _ _ rfl
    | succ i =>
      have next := ih (a ++ put16 (packetInfoWord ticks p)) i (by simpa using inside)
      rw [List.length_append, put16_length, List.append_assoc] at next
      rw [show a.length + 2 * (i + 1) = a.length + 2 + 2 * i by omega, next, List.getElem_cons_succ]

namespace CongestionControlFeedback

/-- The reports of one block are read back. -/
theorem readReports_eq (front back : Bytes) {h : Header} (ok : h.Ok) :
    (List.range h.reports.length).map
        (readReport (front ++ (h.bytes ticks ++ back)) (front.length + 8) h.ssrc h.base) =
      h.reports.map (delivered ticks) := by
  apply List.ext_getElem
  · simp
  · intro i inside _
    have inside : i < h.reports.length := by simpa using inside
    simp only [List.getElem_map, List.getElem_range]
    apply readReport_word ticks _ _ _ _ _ _ (ok.ssrc _ (List.getElem_mem inside)) (ok.number i inside)
    have word := get16_reportBytes ticks
      (front ++ put32 h.ssrc ++ put16 h.base ++ put16 (BitVec.ofNat 16 h.reports.length))
      (padding h.reports.length ++ back) h.reports i inside
    simpa [Header.bytes, blockBytes, Nat.add_assoc] using word

theorem readBlocks_spec (turns : Nat) (front back : Bytes) {blocks : List Header}
    (oks : ∀ h ∈ blocks, h.Ok) (enough : blocks.length < turns) :
    readBlocks (front ++ (blocks.flatMap (Header.bytes ticks) ++ back))
        (front.length + (blocks.flatMap (Header.bytes ticks)).length) turns front.length =
      some ((blocks.flatMap Header.reports).map (delivered ticks)) := by
  induction blocks generalizing turns front with
  | nil =>
    obtain ⟨turns, rfl⟩ : ∃ t, turns = t + 1 := ⟨turns - 1, by simp only [List.length_nil] at enough; omega⟩
    simp [readBlocks]
  | cons h rest ih =>
    rw [List.length_cons] at enough
    obtain ⟨turns, rfl⟩ : ∃ t, turns = t + 1 := ⟨turns - 1, by omega⟩
    have ok := oks h List.mem_cons_self
    have size := h.bytes_length ticks
    have some := ok.some
    have count := ok.count
    simp only [kMaxReportsPerSsrc] at count
    rw [List.flatMap_cons, List.append_assoc]
    generalize tail : rest.flatMap (Header.bytes ticks) ++ back = later
    have ssrc : get32 (front ++ (h.bytes ticks ++ later)) front.length = h.ssrc := by
      simpa [Header.bytes, blockBytes] using get32_put32 front _ h.ssrc _ rfl
    have base : get16 (front ++ (h.bytes ticks ++ later)) (front.length + 4) = h.base := by
      simpa [Header.bytes, blockBytes] using
        get16_put16 (front ++ put32 h.ssrc) _ h.base (front.length + 4) (by simp)
    have number : (get16 (front ++ (h.bytes ticks ++ later)) (front.length + 6)).toNat =
        h.reports.length := by
      have read := get16_put16 (front ++ put32 h.ssrc ++ put16 h.base)
        (reportBytes ticks h.reports ++ padding h.reports.length ++ later)
        (BitVec.ofNat 16 h.reports.length) (front.length + 6) (by simp)
      have same : get16 (front ++ (h.bytes ticks ++ later)) (front.length + 6) =
          BitVec.ofNat 16 h.reports.length := by simpa [Header.bytes, blockBytes] using read
      rw [same, BitVec.toNat_ofNat, Nat.mod_eq_of_lt (by omega)]
    have next : front.length + 8 + 2 * h.reports.length +
        (if h.reports.length % 2 ≠ 0 then 2 else 0) = (front ++ h.bytes ticks).length := by
      rw [List.length_append, size]
      split <;> omega
    have recursive := ih turns (front ++ h.bytes ticks)
      (fun x member => oks x (List.mem_cons_of_mem _ member)) (by omega)
    rw [tail, List.append_assoc] at recursive
    rw [readBlocks, List.length_append]
    simp only [kHeaderPerMediaSssrcLength, ssrc, base, number]
    rw [if_pos (by omega), if_neg (by omega), next, readReports_eq ticks front later ok,
      ← Nat.add_assoc, ← List.length_append, recursive]
    simp

end CongestionControlFeedback

end Reader

/-! ### The round trip -/

/-- A packet that both parsers accept, whose length is the declared one. -/
structure Conveys (f : CongestionControlFeedback) (packet : Bytes) (entries : List PacketInfo) :
    Prop where
  aligned : packet.length % 4 = 0
  accepted : ∃ header, RtcpCommonHeader.parse packet = some header ∧
    header.packetSize = packet.length ∧ header.packetType = kPacketType ∧
    header.countOrFormat = kFeedbackMessageType ∧
    CongestionControlFeedback.parse header =
      some ⟨f.senderSsrc, entries, f.reportTimestampCompactNtp⟩

/-- The datagrams so far; the last one is still in the buffer. -/
def Output.datagrams (o : Output) : List Bytes := o.ready ++ [o.buffer.take o.position]

section RoundTrip

variable (ticks : Nat → Nat)

theorem parse_header {f : CongestionControlFeedback} {blocks : List Header}
    (short : (fragmentBytes ticks f blocks).length ≤ kMaxRtcpPacketLength) :
    RtcpCommonHeader.parse (fragmentBytes ticks f blocks) =
      some { packetType := kPacketType
             countOrFormat := kFeedbackMessageType
             payloadSize := 8 + (blocks.flatMap (Header.bytes ticks)).length
             payload := put32 f.senderSsrc ++
               (blocks.flatMap (Header.bytes ticks) ++ put32 f.reportTimestampCompactNtp) } := by
  have aligned := body_length ticks blocks
  have size := fragmentBytes_length ticks f blocks
  have limit : kMaxRtcpPacketLength = 262140 := rfl
  generalize whole : fragmentBytes ticks f blocks = packet at short size
  simp only [fragmentBytes] at whole
  generalize blocks.flatMap (Header.bytes ticks) = body at aligned size whole
  generalize put32 f.senderSsrc ++ (body ++ put32 f.reportTimestampCompactNtp) = rest at whole
  have shape : packet = [0x8b, 205] ++ (put16 (BitVec.ofNat 16 ((12 + body.length) / 4 - 1)) ++ rest) := by
    rw [← whole]
    simp [createHeader, kFeedbackMessageType, kPacketType]
  have first : byteAt packet 0 = 0x8b := by rw [shape]; rfl
  have second : byteAt packet 1 = 205 := by rw [shape]; rfl
  have payload : packet.drop 4 = rest := by rw [shape]; rfl
  have words : get16 packet 2 = BitVec.ofNat 16 ((12 + body.length) / 4 - 1) := by
    rw [shape]
    exact get16_put16 _ _ _ _ rfl
  have bytes : (get16 packet 2).toNat * 4 = 8 + body.length := by
    rw [words, BitVec.toNat_ofNat, Nat.mod_eq_of_lt (by omega)]
    omega
  simp only [RtcpCommonHeader.parse, first, second, payload, bytes, size]
  rw [if_neg (by omega), if_neg (by decide), if_neg (by omega), if_neg (by decide)]
  rfl

theorem fragment_conveys {f : CongestionControlFeedback} {blocks : List Header}
    (oks : ∀ h ∈ blocks, h.Ok)
    (short : (fragmentBytes ticks f blocks).length ≤ kMaxRtcpPacketLength) :
    Conveys f (fragmentBytes ticks f blocks)
      ((blocks.flatMap Header.reports).map (delivered ticks)) := by
  have aligned := body_length ticks blocks
  have count : blocks.length ≤ (blocks.flatMap (Header.bytes ticks)).length := by
    have sum := List.length_le_sum_of_one_le (blocks.map fun h => (h.bytes ticks).length) (by
      intro n member
      obtain ⟨h, _, rfl⟩ := List.mem_map.mp member
      rw [h.bytes_length]
      omega)
    rwa [List.length_map, ← List.length_flatMap] at sum
  refine ⟨by rw [fragmentBytes_length]; omega, _, parse_header ticks short, ?_, rfl, rfl, ?_⟩
  · simp only [RtcpCommonHeader.packetSize, fragmentBytes_length]
    omega
  · generalize inner : blocks.flatMap (Header.bytes ticks) = body at aligned count
    have reports := CongestionControlFeedback.readBlocks_spec ticks (8 + body.length)
      (put32 f.senderSsrc) (put32 f.reportTimestampCompactNtp) oks (by omega)
    rw [inner, put32_length] at reports
    have sender : get32 (put32 f.senderSsrc ++ (body ++ put32 f.reportTimestampCompactNtp)) 0 =
        f.senderSsrc := get32_put32 [] _ _ _ rfl
    have stamp : get32 (put32 f.senderSsrc ++ (body ++ put32 f.reportTimestampCompactNtp))
        (4 + body.length) = f.reportTimestampCompactNtp := by
      have read := get32_put32 (put32 f.senderSsrc ++ body) [] f.reportTimestampCompactNtp
        (4 + body.length) (by simp)
      simpa using read
    have whole : ¬ ((8 + body.length) % 4 ≠ 0 ∨ 8 + body.length < 4 + 4) := by omega
    have ends : 8 + body.length - 4 = 4 + body.length := by omega
    refine (if_neg whole).trans ?_
    simp only [ends, reports, sender, stamp, Option.map_some]

namespace CongestionControlFeedback

/-- From a place with room on, the loop ends and conveys all packets that are left: the first
fragment behind what the buffer holds, every other one in a datagram of its own. -/
theorem createFrom_spec (f : CongestionControlFeedback) {maxLength : Nat} (turns : Nat)
    (packets : List PacketInfo) (o : Output) (chain : packets.IsChain Follows)
    (enough : packets.length < turns) (inside : maxLength ≤ o.buffer.length)
    (known : f.packets = [] → packets = []) (wide : f.minPacketLength ≤ maxLength)
    (room : f.minPacketLength ≤ maxLength - o.position) :
    ∃ out first rest entries, f.createFrom ticks maxLength turns packets o = some (true, out) ∧
      out.buffer.length = o.buffer.length ∧ out.buffer.drop maxLength = o.buffer.drop maxLength ∧
      out.datagrams = o.ready ++ (o.buffer.take o.position ++ first) :: rest ∧
      List.Forall₂ (Conveys f) (first :: rest) entries ∧
      entries.flatten = packets.map (delivered ticks) := by
  induction turns generalizing packets o with
  | zero => omega
  | succ turns ih =>
    have minimal : kFeedbackHeaderLength + (if packets = [] then 0 else kMinReportBlockLength) ≤
        maxLength - o.position := by
      refine Nat.le_trans ?_ room
      unfold minPacketLength
      by_cases none : f.packets = []
      · simp [none, known none]
      · simp only [List.isEmpty_iff, if_neg none]
        split <;> omega
    obtain ⟨blocks, later, split, oks, progress, short, fits, written⟩ :=
      writeFragment_eq ticks f chain enough inside minimal
    have conveys := fragment_conveys ticks oks short
    have size := fragmentBytes_length ticks f blocks
    generalize fragmentBytes ticks f blocks = packet at short fits written conveys size
    have ready : makeRoom f.minPacketLength maxLength (turns + 1) o = some (some o) := by
      rw [makeRoom, if_neg (by omega)]
    have content : (overwrite o.buffer o.position packet).take (o.position + packet.length) =
        o.buffer.take o.position ++ packet := take_overwrite (by omega)
    have length := @overwrite_length o.buffer o.position packet (by omega)
    have outside := @drop_overwrite o.buffer packet o.position maxLength
      (by omega) (by omega)
    unfold createFrom
    simp only [ready, Option.bind_eq_bind, Option.bind_some, written]
    cases later with
    | nil =>
      rw [List.append_nil] at split
      refine ⟨_, packet, [], [_], rfl, length, outside, ?_, .cons conveys .nil, ?_⟩
      · simp only [Output.datagrams, content]
      · rw [List.flatten_singleton, split]
    | cons p later =>
      have some : packets ≠ [] := by
        rw [split]
        simp
      have nonempty : o.position + packet.length ≠ 0 := by omega
      obtain ⟨out, next, rest, entries, result, length', outside', datagrams, conveyed, all⟩ :=
        ih (p :: later) ⟨overwrite o.buffer o.position packet, 0,
            o.ready ++ [o.buffer.take o.position ++ packet]⟩
          (List.IsChain.right_of_append (split ▸ chain))
          (by have := progress some; omega) (by rw [length]; exact inside)
          (fun none => absurd (known none) some) (by omega)
      refine ⟨out, packet, next :: rest, _ :: entries, ?_, length'.trans length,
        outside'.trans outside, ?_, .cons conveys conveyed, ?_⟩
      · simp only [List.isEmpty_cons, Bool.false_eq_true, if_false, onBufferFull, if_neg nonempty,
          content, result]
      · rw [datagrams]
        simp
      · rw [List.flatten_cons, all, split, List.map_append]

end CongestionControlFeedback

/-- Every feedback whose packets come in runs of consecutive numbers is written, in whole
packets, none of them beyond the limit, and what is read from these packets is the list
itself: a packet with a finite offset with its mark and what the code of its offset stands
for, any other one as not received. -/
theorem feedback_round_trip (f : CongestionControlFeedback) (runs : f.packets.IsChain Follows)
    (o : Output) (maxLength : Nat) (position : o.position ≤ maxLength)
    (inside : maxLength ≤ o.buffer.length)
    (room : kFeedbackHeaderLength + kMinReportBlockLength ≤ maxLength) (turns : Nat)
    (enough : f.packets.length + 2 ≤ turns) :
    ∃ out first rest entries, f.create ticks turns maxLength o = some (true, out) ∧
      out.buffer.length = o.buffer.length ∧ out.buffer.drop maxLength = o.buffer.drop maxLength ∧
      (out.datagrams = o.ready ++ (o.buffer.take o.position ++ first) :: rest ∨
        out.datagrams = o.ready ++ o.buffer.take o.position :: first :: rest) ∧
      List.Forall₂ (Conveys f) (first :: rest) entries ∧
      entries.flatten = f.packets.map (delivered ticks) := by
  have wide : f.minPacketLength ≤ maxLength := by
    unfold CongestionControlFeedback.minPacketLength
    split <;> omega
  obtain ⟨turns, rfl⟩ : ∃ t, turns = t + 2 := ⟨turns - 2, by omega⟩
  rw [CongestionControlFeedback.create, if_neg (by omega)]
  by_cases fits : f.minPacketLength ≤ maxLength - o.position
  · obtain ⟨out, first, rest, entries, result, length, outside, datagrams, conveys, all⟩ :=
      f.createFrom_spec ticks (turns + 2) f.packets o runs (by omega) inside id wide fits
    exact ⟨out, first, rest, entries, result, length, outside, .inl datagrams, conveys, all⟩
  · have nonzero : o.position ≠ 0 := by
      intro zero
      rw [zero] at fits
      omega
    obtain ⟨out, first, rest, entries, result, length, outside, datagrams, conveys, all⟩ :=
      f.createFrom_spec ticks (turns + 2) f.packets
        ⟨o.buffer, 0, o.ready ++ [o.buffer.take o.position]⟩ runs (by omega) inside id wide wide
    refine ⟨out, first, rest, entries, ?_, length, outside, .inr (by simpa using datagrams), conveys, all⟩
    have ready : ¬ maxLength - 0 < f.minPacketLength := by omega
    have fresh : CongestionControlFeedback.makeRoom f.minPacketLength maxLength (turns + 2)
        ⟨o.buffer, 0, o.ready ++ [o.buffer.take o.position]⟩ =
          some (some ⟨o.buffer, 0, o.ready ++ [o.buffer.take o.position]⟩) := by
      simp only [CongestionControlFeedback.makeRoom, if_neg ready]
    have flushed : CongestionControlFeedback.makeRoom f.minPacketLength maxLength (turns + 2) o =
        some (some ⟨o.buffer, 0, o.ready ++ [o.buffer.take o.position]⟩) := by
      rw [CongestionControlFeedback.makeRoom, if_pos (by omega), onBufferFull, if_neg nonzero]
      simp only [CongestionControlFeedback.makeRoom, if_neg ready]
    rw [CongestionControlFeedback.createFrom, fresh] at result
    rw [CongestionControlFeedback.createFrom, flushed]
    exact result

/-! ### Packets that look alike -/

/-- What the other side reads of a feedback that fits into one datagram. -/
def sentAndRead (f : CongestionControlFeedback) : Option (List PacketInfo) := do
  let (_, out) ← f.create ticks (f.packets.length + 2) 64 ⟨List.replicate 64 0, 0, []⟩
  let header ← RtcpCommonHeader.parse (out.buffer.take out.position)
  let read ← CongestionControlFeedback.parse header
  return read.packets

/-- The fields of a report: SSRC, number, received bit, mark and code of the offset. -/
def fields (p : PacketInfo) : BitVec 32 × BitVec 16 × Bool × EcnMarking × BitVec 16 :=
  (p.ssrc, p.sequenceNumber, p.arrivalTimeOffset.isFinite, p.ecn,
    packetInfoWord ticks p &&& 0x1FFF)

end RoundTrip

def lost : CongestionControlFeedback := ⟨1, [⟨2, 3, .minusInfinity, .kNotEct⟩], 4⟩

/-- Received one microsecond after the report was made. -/
def late : CongestionControlFeedback := ⟨1, [⟨2, 3, .finite (-1), .kNotEct⟩], 4⟩

/-- The entries that are read from a packet that came in late are those of one that was lost,
so no view of them gives back the received bit. -/
theorem late_reads_as_lost :
    ¬ ∃ view, ∀ f entries, sentAndRead id f = some entries →
      entries.map view = f.packets.map (fields id) := by
  rintro ⟨view, faithful⟩
  have one : sentAndRead id lost = some [⟨2, 3, .minusInfinity, .kNotEct⟩] := by decide +kernel
  have other : sentAndRead id late = some [⟨2, 3, .minusInfinity, .kNotEct⟩] := by decide +kernel
  have same := (faithful lost _ one).symm.trans (faithful late _ other)
  revert same
  decide

def aroundWrap : CongestionControlFeedback :=
  ⟨1, [⟨2, 65534, .finite 7, .kCe⟩, ⟨2, 65535, .minusInfinity, .kNotEct⟩, ⟨2, 0, .finite 9, .kEct1⟩,
    ⟨5, 8, .plusInfinity, .kNotEct⟩], 4⟩

/-- Three packets around the wrap and one of another stream, in a buffer that holds four
octets already and has room for two reports in a packet. -/
theorem feedback_round_trip_wrap : ∃ (out : Output) (first : Bytes) (rest : List Bytes)
    (entries : List (List PacketInfo)),
    aroundWrap.create (fun us => us * 1024 / 1000000) 6 26 ⟨List.replicate 26 0, 4, []⟩ =
      some (true, out) ∧
    List.Forall₂ (Conveys aroundWrap) (first :: rest) entries ∧
    entries.flatten = [⟨2, 65534, .finite 0, .kCe⟩, ⟨2, 65535, .minusInfinity, .kNotEct⟩,
      ⟨2, 0, .finite 0, .kEct1⟩, ⟨5, 8, .minusInfinity, .kNotEct⟩] := by
  obtain ⟨out, first, rest, entries, result, _, _, _, conveys, all⟩ :=
    feedback_round_trip (fun us => us * 1024 / 1000000) aroundWrap (by decide)
      ⟨List.replicate 26 0, 4, []⟩ 26 (by decide) (by decide) (by decide) 6 (by decide)
  refine ⟨out, first, rest, entries, result, conveys, ?_⟩
  rw [all]
  rfl

end MiniRtc.Rtcp
