import MiniRtc.Video.ReceiverStats

/-! What a receiver report says, against an account of the packets in numbers that do not wrap.
`ReceiverStats` has no such numbers: its highest number is the one of the last packet. -/
namespace MiniRtc.Video
open Rtcp

/-- The packets of a stream. `advance` is how far the last one is from the first. -/
structure Accounts where
  first : Option (BitVec 16) := none
  latest : BitVec 16 := 0
  advance : Int := 0
  furthest : Int := 0
  received : Int := 0
  -- at the report before
  expectedBefore : Int := 0
  lostBefore : Int := 0
  -- the most packets that an earlier report found beyond the expected ones
  surplus : Int := 0
deriving DecidableEq, Repr

namespace Accounts

def expected (a : Accounts) : Int := if a.first.isSome then a.furthest + 1 else 0

def lost (a : Accounts) : Int := a.expected - a.received

/-- The fraction lost since the report before. -/
def fraction (a : Accounts) : Int :=
  if 0 < a.expected - a.expectedBefore ∧ 0 < a.lost - a.lostBefore then
    255 * (a.lost - a.lostBefore) / (a.expected - a.expectedBefore)
  else 0

def arrive (a : Accounts) (sequenceNumber : BitVec 16) : Accounts :=
  if a.first.isNone then
    { a with first := some sequenceNumber, latest := sequenceNumber, received := a.received + 1 }
  else
    let advance := a.advance + (sequenceNumber - a.latest).toInt
    { a with
      latest := sequenceNumber
      advance
      furthest := max a.furthest advance
      received := a.received + 1 }

def report (a : Accounts) : Accounts :=
  { a with expectedBefore := a.expected, lostBefore := a.lost, surplus := max a.surplus (-a.lost) }

/-- A block says what the accounts say. -/
def Right (a : Accounts) (block : RtcpReportBlock) : Prop :=
  ∀ first ∈ a.first,
    block.extendedHighSeqNum = BitVec.ofInt 32 (first.toNat + a.furthest) ∧
    block.cumulativeLost.toInt = min (max a.lost 0) (2 ^ 23 - 1) ∧
    block.fractionLost.toNat = a.fraction

end Accounts

/-- The receiver, the accounts of what it received, and its reports so far, each with the
accounts of its time. -/
structure Session where
  ssrc : BitVec 32
  remoteSsrc : BitVec 32
  stats : ReceiverStats := {}
  accounts : Accounts := {}
  reports : List (Accounts × RtcpReportBlock) := []
deriving DecidableEq, Repr

namespace Session

def apply (s : Session) : ReceiverEvent → Session
  | .mediaPacket p =>
    { s with
      stats := s.stats.handle s.ssrc s.remoteSsrc (.mediaPacket p)
      accounts := s.accounts.arrive p.sequenceNumber }
  | .senderReport report now =>
    { s with stats := s.stats.handle s.ssrc s.remoteSsrc (.senderReport report now) }
  | .sendRR now =>
    { s with
      stats := s.stats.handle s.ssrc s.remoteSsrc (.sendRR now)
      accounts := s.accounts.report
      reports := s.reports ++
        (s.stats.sendRR s.ssrc s.remoteSsrc now).1.reports.map fun block => (s.accounts, block) }

def Start (s : Session) : Prop := ∃ ssrc remoteSsrc, s = { ssrc, remoteSsrc }

/-- Successive jumps stay below half of the number space. -/
def Admits (s : Session) : ReceiverEvent → Prop
  | .mediaPacket p =>
    s.accounts.first.isSome → (p.sequenceNumber - s.accounts.latest).toInt.natAbs < 2 ^ 15
  | _ => True

instance (s : Session) (e : ReceiverEvent) : Decidable (s.Admits e) :=
  match e with
  | .mediaPacket _ => inferInstanceAs (Decidable (_ → _))
  | .senderReport .. => inferInstanceAs (Decidable True)
  | .sendRR _ => inferInstanceAs (Decidable True)

/-- At a report the last packet is the one that is furthest ahead, no wrap came between it and the
first one, and earlier reports did not find more packets beyond the expected ones than there are
now. After a first packet of number zero the next report finds no loss. -/
def Reportable (a : Accounts) : Prop :=
  ∀ first ∈ a.first, a.latest.toNat = first.toNat + a.furthest ∧
    (a.surplus = 0 ∨ a.expected + a.surplus ≤ a.received) ∧
    (first = 0 → a.expectedBefore = 0 → a.expected ≤ a.received)

instance (a : Accounts) : Decidable (Reportable a) := Option.decidableForallMem a.first

/-- No packet is lost to an obsolete frame, and the accounts can be reported. -/
def Meets (s : Session) : ReceiverEvent → Prop
  | .mediaPacket p => p.obsolete = false
  | .senderReport .. => True
  | .sendRR _ => Reportable s.accounts

instance (s : Session) (e : ReceiverEvent) : Decidable (s.Meets e) :=
  match e with
  | .mediaPacket _ => inferInstanceAs (Decidable (_ = _))
  | .senderReport .. => inferInstanceAs (Decidable True)
  | .sendRR _ => inferInstanceAs (Decidable (Reportable _))

/-- All reports are right, and the highest number does not move back. -/
def Right (s : Session) : Prop :=
  (∀ r ∈ s.reports, r.1.Right r.2) ∧
    s.reports.Pairwise fun earlier later =>
      earlier.2.extendedHighSeqNum.toNat ≤ later.2.extendedHighSeqNum.toNat

/-! ### What the statistics are in terms of the accounts -/

/-- What the difference to the number before a first number of zero adds. -/
def base (first : BitVec 16) : Int := if first = 0 then 65536 else 0

theorem toNat_before (first : BitVec 16) :
    ((first - 1).toNat : Int) = first.toNat - 1 + base first := by
  unfold base
  have less := first.isLt
  by_cases zero : first = 0
  · rw [if_pos zero, zero]
    decide
  · rw [if_neg zero]
    have positive : first.toNat ≠ 0 := fun h => zero (BitVec.eq_of_toNat_eq h)
    have one : (1 : BitVec 16).toNat = 1 := rfl
    rw [BitVec.toNat_sub, one]
    omega

/-- Before the first packet. -/
structure Idle (s : Session) : Prop where
  accounts : s.accounts = {}
  unheard : s.stats.lastReceiveTime = none
  loss : s.stats.cumulativeLoss = 0
  reportLoss : s.stats.lastReportCumulativeLoss = 0
  offset : s.stats.cumulativeLossRtcpOffset = 0
  highest : s.stats.extendedHighSeqNum = 0
  reports : ∀ r ∈ s.reports, r.1 = {} ∧ r.2.extendedHighSeqNum = 0

/-- Since a packet, and before a report. -/
structure Unreported (s : Session) (first : BitVec 16) : Prop where
  expected : s.accounts.expectedBefore = 0
  lost : s.accounts.lostBefore = 0
  surplus : s.accounts.surplus = 0
  offset : s.stats.cumulativeLossRtcpOffset = 0
  reportLoss : s.stats.lastReportCumulativeLoss = 0
  highest : s.stats.lastExtendedHighSeqNum = first - 1
  reports : ∀ r ∈ s.reports, r.2.extendedHighSeqNum = 0

/-- Since a report. -/
structure Reported (s : Session) (first : BitVec 16) : Prop where
  expected : 0 < s.accounts.expectedBefore
  surplus : 0 ≤ s.accounts.surplus
  offset : s.stats.cumulativeLossRtcpOffset = base first + s.accounts.surplus
  reportLoss : s.stats.lastReportCumulativeLoss = s.accounts.lostBefore - base first
  highest : (s.stats.lastExtendedHighSeqNum.toNat : Int) = first.toNat + s.accounts.expectedBefore - 1
  reports : ∀ r ∈ s.reports,
    r.2.extendedHighSeqNum.toNat ≤ s.stats.lastExtendedHighSeqNum.toNat

structure Counting (s : Session) (first : BitVec 16) : Prop where
  started : s.accounts.first = some first
  heard : s.stats.lastReceiveTime.isNone = false
  latest : s.stats.extendedHighSeqNum = s.accounts.latest
  loss : s.stats.cumulativeLoss =
    s.accounts.latest.toNat - first.toNat + 1 - s.accounts.received - base first
  reached : 0 ≤ s.accounts.furthest ∧ s.accounts.expectedBefore ≤ s.accounts.furthest + 1
  took : s.accounts.expectedBefore - s.accounts.lostBefore ≤ s.accounts.received
  before : Unreported s first ∨ Reported s first
  right : s.Right

def Kept (s : Session) : Prop := Idle s ∨ ∃ first, Counting s first

/-! ### A packet -/

theorem Idle.right {s : Session} (idle : Idle s) : s.Right := by
  constructor
  · intro r member first started
    rw [(idle.reports r member).1] at started
    cases started
  · refine List.pairwise_of_forall_mem_list ?_
    intro r member r' member'
    rw [(idle.reports r member).2, (idle.reports r' member').2]

/-- The first packet. -/
theorem Idle.arrive {s : Session} (idle : Idle s) {p : MediaArrival} (counted : p.obsolete = false) :
    Counting (s.apply (.mediaPacket p)) p.sequenceNumber := by
  obtain ⟨jitter, jitterQ4, frequency, after⟩ := s.stats.onMediaPacket_counted counted
  simp only [idle.unheard, Option.isNone_none, if_true] at after
  simp only [apply, ReceiverStats.handle, after, idle.accounts]
  have before := toNat_before p.sequenceNumber
  constructor
  · rfl
  · rfl
  · rfl
  · show s.stats.cumulativeLoss - 1 + (p.sequenceNumber.toNat - (p.sequenceNumber - 1).toNat : Int) =
      p.sequenceNumber.toNat - p.sequenceNumber.toNat + 1 - 1 - base p.sequenceNumber
    rw [idle.loss]
    omega
  · show (0 : Int) ≤ 0 ∧ (0 : Int) ≤ 0 + 1
    decide
  · show (0 : Int) - 0 ≤ 0 + 1
    decide
  · refine Or.inl ⟨rfl, rfl, rfl, idle.offset, idle.reportLoss, rfl, ?_⟩
    exact fun r member => (idle.reports r member).2
  · exact idle.right

/-- A later packet. -/
theorem Counting.arrive {s : Session} {first : BitVec 16} (counting : Counting s first) {p : MediaArrival}
    (counted : p.obsolete = false) : Counting (s.apply (.mediaPacket p)) first := by
  obtain ⟨jitter, jitterQ4, frequency, after⟩ := s.stats.onMediaPacket_counted counted
  simp only [counting.heard, if_false, Bool.false_eq_true] at after
  have more : s.accounts.first.isNone = false := by
    rw [counting.started]
    rfl
  have ⟨reached, covered⟩ := counting.reached
  have took := counting.took
  simp only [apply, ReceiverStats.handle, after, Accounts.arrive, more, if_false, Bool.false_eq_true]
  constructor
  · exact counting.started
  · rfl
  · rfl
  · show s.stats.cumulativeLoss - 1 + (p.sequenceNumber.toNat - s.stats.extendedHighSeqNum.toNat : Int) =
      p.sequenceNumber.toNat - first.toNat + 1 - (s.accounts.received + 1) - base first
    rw [counting.loss, counting.latest]
    omega
  · simp only
    omega
  · simp only
    omega
  · rcases counting.before with fresh | told
    · exact Or.inl ⟨fresh.expected, fresh.lost, fresh.surplus, fresh.offset, fresh.reportLoss,
        fresh.highest, fresh.reports⟩
    · exact Or.inr ⟨told.expected, told.surplus, told.offset, told.reportLoss, told.highest,
        told.reports⟩
  · exact counting.right

/-! ### A report -/

theorem Counting.expected_eq {s : Session} {first : BitVec 16} (counting : Counting s first) :
    s.accounts.expected = s.accounts.furthest + 1 := by
  rw [Accounts.expected, counting.started]
  rfl

/-- With the packet that is furthest ahead as the last one, the loss is the one of the accounts. -/
theorem Counting.loss_eq {s : Session} {first : BitVec 16} (counting : Counting s first)
    (ahead : (s.accounts.latest.toNat : Int) = first.toNat + s.accounts.furthest) :
    s.stats.cumulativeLoss = s.accounts.lost - base first := by
  rw [counting.loss, Accounts.lost, counting.expected_eq]
  omega

theorem Counting.clampedLoss_eq {s : Session} {first : BitVec 16} (counting : Counting s first)
    (reportable : Reportable s.accounts) :
    s.stats.clampedLoss = (min (max s.accounts.lost 0) (2 ^ 23 - 1),
      base first + max s.accounts.surplus (-s.accounts.lost)) := by
  obtain ⟨ahead, few, zero⟩ := reportable first counting.started
  have loss := counting.loss_eq ahead
  have lost : s.accounts.lost = s.accounts.expected - s.accounts.received := rfl
  have based : base first = 0 ∨ base first = 65536 ∧ first = 0 := by
    unfold base
    split
    · exact Or.inr ⟨rfl, by assumption⟩
    · exact Or.inl rfl
  have told : s.stats.cumulativeLossRtcpOffset = base first + s.accounts.surplus ∧ 0 ≤ s.accounts.surplus ∨
      s.stats.cumulativeLossRtcpOffset = 0 ∧ s.accounts.surplus = 0 ∧ base first = 65536 ∧
        s.accounts.lost ≤ 0 := by
    rcases counting.before with fresh | told
    · have offset := fresh.offset
      have surplus := fresh.surplus
      rcases based with free | ⟨wrapped, first0⟩
      · exact Or.inl (by omega)
      · have nothing := zero first0 fresh.expected
        exact Or.inr (by omega)
    · exact Or.inl ⟨told.offset, told.surplus⟩
  by_cases below : s.stats.cumulativeLoss + s.stats.cumulativeLossRtcpOffset < 0
  · rw [ReceiverStats.clampedLoss_below below]
    exact Prod.ext (by simp only; omega) (by simp only; omega)
  · rw [ReceiverStats.clampedLoss_above (Int.not_lt.mp below)]
    exact Prod.ext (by simp only; omega) (by simp only; omega)

/-- The intervals of the receiver are those of the accounts, or both show no loss. -/
theorem Counting.fractionLost_eq {s : Session} {first : BitVec 16} (counting : Counting s first)
    (reportable : Reportable s.accounts) : (s.stats.fractionLost.toNat : Int) = s.accounts.fraction := by
  obtain ⟨ahead, few, zero⟩ := reportable first counting.started
  have loss := counting.loss_eq ahead
  have lost : s.accounts.lost = s.accounts.expected - s.accounts.received := rfl
  have expected := counting.expected_eq
  have ⟨reached, covered⟩ := counting.reached
  have took := counting.took
  have less := s.accounts.latest.isLt
  have before := toNat_before first
  unfold ReceiverStats.fractionLost Accounts.fraction
  rw [counting.latest, loss]
  simp only
  by_cases wrapped : first = 0 ∧ s.accounts.expectedBefore = 0
  · rcases counting.before with fresh | told
    · have highest := fresh.highest
      have reportLoss := fresh.reportLoss
      have lostBefore := fresh.lost
      have nothing := zero wrapped.1 wrapped.2
      rw [base, if_pos wrapped.1] at before
      rw [highest, if_neg (by omega), if_neg (by omega)]
      rfl
    · exact absurd wrapped.2 (Int.ne_of_gt told.expected)
  have intervals :
      (s.accounts.latest.toNat : Int) - s.stats.lastExtendedHighSeqNum.toNat =
        s.accounts.expected - s.accounts.expectedBefore ∧
      s.accounts.lost - base first - s.stats.lastReportCumulativeLoss =
        s.accounts.lost - s.accounts.lostBefore := by
    rcases counting.before with fresh | told
    · have highest := fresh.highest
      have expectedBefore := fresh.expected
      have reportLoss := fresh.reportLoss
      have lostBefore := fresh.lost
      have free : base first = 0 := if_neg fun zero => wrapped ⟨zero, expectedBefore⟩
      rw [highest]
      omega
    · have highest := told.highest
      have reportLoss := told.reportLoss
      omega
  rw [intervals.1, intervals.2]
  split
  · rename_i positive
    have small : 255 * (s.accounts.lost - s.accounts.lostBefore) /
        (s.accounts.expected - s.accounts.expectedBefore) < 256 :=
      Int.ediv_lt_of_lt_mul positive.1 (by omega)
    have least : 0 ≤ 255 * (s.accounts.lost - s.accounts.lostBefore) /
        (s.accounts.expected - s.accounts.expectedBefore) :=
      Int.ediv_nonneg (by omega) (by omega)
    rw [BitVec.toNat_ofInt]
    omega
  · rfl

/-- What is in a report of a receiver that is counting. -/
theorem Counting.right_block {s : Session} {first : BitVec 16} (counting : Counting s first)
    (reportable : Reportable s.accounts) (now : BitVec 64) :
    s.accounts.Right (s.stats.reportBlock s.remoteSsrc now) := by
  intro first' started
  rw [counting.started] at started
  cases started
  have ⟨ahead, _, _⟩ := reportable first counting.started
  refine ⟨?_, ?_, counting.fractionLost_eq reportable⟩
  · have less := s.accounts.latest.isLt
    apply BitVec.eq_of_toNat_eq
    simp only [ReceiverStats.reportBlock, counting.latest]
    rw [BitVec.toNat_setWidth, BitVec.toNat_ofInt, ← ahead]
    omega
  · simp only [ReceiverStats.reportBlock]
    rw [ReceiverStats.toInt_clampedLoss, counting.clampedLoss_eq reportable]

theorem apply_sendRR (s : Session) (now : BitVec 64) :
    s.apply (.sendRR now) =
      { s with
        stats := (s.stats.sendRR s.ssrc s.remoteSsrc now).2
        accounts := s.accounts.report
        reports := s.reports ++ [(s.accounts, s.stats.reportBlock s.remoteSsrc now)] } := by
  rw [apply, ReceiverStats.sendRR_reports]
  rfl

theorem Idle.report {s : Session} (idle : Idle s) (now : BitVec 64) : Idle (s.apply (.sendRR now)) := by
  rw [apply_sendRR]
  constructor
  · simp only [idle.accounts]
    rfl
  · exact idle.unheard
  · exact idle.loss
  · exact idle.loss
  · have kept := ReceiverStats.clampedLoss_above (s := s.stats) (by rw [idle.loss, idle.offset]; decide)
    simp only [ReceiverStats.sendRR, kept]
    exact idle.offset
  · exact idle.highest
  · intro r member
    rcases List.mem_append.mp member with earlier | new
    · exact idle.reports r earlier
    · rw [List.mem_singleton.mp new]
      refine ⟨idle.accounts, ?_⟩
      simp only [ReceiverStats.reportBlock, idle.highest]
      rfl

theorem Counting.report {s : Session} {first : BitVec 16} (counting : Counting s first)
    (reportable : Reportable s.accounts) (now : BitVec 64) :
    Counting (s.apply (.sendRR now)) first := by
  have ⟨ahead, _, _⟩ := reportable first counting.started
  have loss := counting.loss_eq ahead
  have expected := counting.expected_eq
  have ⟨reached, covered⟩ := counting.reached
  have right := counting.right_block reportable now
  have clamped := counting.clampedLoss_eq reportable
  have highest : (s.stats.reportBlock s.remoteSsrc now).extendedHighSeqNum.toNat =
      s.accounts.latest.toNat := by
    have less := s.accounts.latest.isLt
    simp only [ReceiverStats.reportBlock, counting.latest, BitVec.toNat_setWidth]
    omega
  have earlier : ∀ r ∈ s.reports, r.2.extendedHighSeqNum.toNat ≤ s.accounts.latest.toNat := by
    intro r member
    rcases counting.before with fresh | told
    · rw [fresh.reports r member]
      exact Nat.zero_le _
    · have bound := told.reports r member
      have before := told.highest
      omega
  rw [apply_sendRR]
  constructor
  · exact counting.started
  · exact counting.heard
  · exact counting.latest
  · exact counting.loss
  · simp only [Accounts.report, expected]
    omega
  · simp only [Accounts.report, Accounts.lost, expected]
    omega
  · refine Or.inr ⟨?_, ?_, ?_, ?_, ?_, ?_⟩
    · simp only [Accounts.report, expected]
      omega
    · simp only [Accounts.report]
      rcases counting.before with fresh | told
      · rw [fresh.surplus]
        exact Int.le_max_left 0 _
      · exact Int.le_trans told.surplus (Int.le_max_left _ _)
    · simp only [ReceiverStats.sendRR, clamped]
      rfl
    · exact loss
    · simp only [ReceiverStats.sendRR, Accounts.report, counting.latest, expected]
      omega
    · intro r member
      simp only [ReceiverStats.sendRR, counting.latest]
      rcases List.mem_append.mp member with before | new
      · exact earlier r before
      · rw [List.mem_singleton.mp new, highest]
  · constructor
    · intro r member
      rcases List.mem_append.mp member with before | new
      · exact counting.right.1 r before
      · rw [List.mem_singleton.mp new]
        exact right
    · refine List.pairwise_append.mpr ⟨counting.right.2, List.pairwise_singleton _ _, ?_⟩
      intro r before r' new
      rw [List.mem_singleton.mp new, highest]
      exact earlier r before

/-! ### A run -/

theorem Kept.apply {s : Session} (kept : Kept s) (e : ReceiverEvent) (meets : s.Meets e) :
    Kept (s.apply e) := by
  cases e with
  | mediaPacket p =>
    rcases kept with idle | ⟨first, counting⟩
    · exact Or.inr ⟨_, idle.arrive meets⟩
    · exact Or.inr ⟨first, counting.arrive meets⟩
  | senderReport report now =>
    have same : ∃ lastRemoteNtpTimestamp lastArrivalNtpTimestamp,
        s.stats.onSenderReport s.remoteSsrc report now =
          { s.stats with lastRemoteNtpTimestamp, lastArrivalNtpTimestamp } := by
      unfold ReceiverStats.onSenderReport
      split
      · exact ⟨_, _, rfl⟩
      · exact ⟨_, _, rfl⟩
    obtain ⟨_, _, same⟩ := same
    simp only [Session.apply, ReceiverStats.handle, same]
    rcases kept with idle | ⟨first, counting⟩
    · exact Or.inl ⟨idle.accounts, idle.unheard, idle.loss, idle.reportLoss, idle.offset, idle.highest,
        idle.reports⟩
    · refine Or.inr ⟨first, ⟨counting.started, counting.heard, counting.latest, counting.loss,
        counting.reached, counting.took, ?_, counting.right⟩⟩
      rcases counting.before with fresh | told
      · exact Or.inl ⟨fresh.expected, fresh.lost, fresh.surplus, fresh.offset, fresh.reportLoss,
          fresh.highest, fresh.reports⟩
      · exact Or.inr ⟨told.expected, told.surplus, told.offset, told.reportLoss, told.highest,
          told.reports⟩
  | sendRR now =>
    rcases kept with idle | ⟨first, counting⟩
    · exact Or.inl (idle.report now)
    · exact Or.inr ⟨first, counting.report meets now⟩

/-- The runs of the receiver. -/
abbrev Step (s : Session) (e : ReceiverEvent) (t : Session) : Prop := s.apply e = t

/-- The reports are right in every run whose steps meet the condition. -/
theorem reports_right {s : Session}
    (reachable : Runs.Reachable Start (Runs.Guarded (fun s e => s.Admits e ∧ s.Meets e) Step) s) :
    s.Right := by
  have kept : Kept s := by
    refine @Runs.Reachable.invariant _ _ _ Kept ?_ ?_ _ reachable
    · rintro _ ⟨ssrc, remoteSsrc, rfl⟩
      refine Or.inl ⟨rfl, rfl, rfl, rfl, rfl, rfl, ?_⟩
      intro r member
      exact absurd member List.not_mem_nil
    · rintro s _ kept ⟨e, ⟨_, meets⟩, rfl⟩
      exact kept.apply e meets
  rcases kept with idle | ⟨first, counting⟩
  · exact idle.right
  · exact counting.right

/-- Two packets with one lost between them, and a report of it. -/
def oneLost : Session :=
  ((({ ssrc := 1, remoteSsrc := 2 } : Session).apply (.mediaPacket ⟨10, 0, 0, false⟩)).apply
    (.mediaPacket ⟨12, 0, 0, false⟩)).apply (.sendRR 1)

theorem reports_right_one_lost : oneLost.Right := by
  have reached : Runs.Reachable Start (Runs.Guarded (fun s e => s.Admits e ∧ s.Meets e) Step)
      { ssrc := 1, remoteSsrc := 2 } := .start ⟨1, 2, rfl⟩
  have first := reached.guarded (.mediaPacket ⟨10, 0, 0, false⟩) (by decide) rfl
  have second := first.guarded (.mediaPacket ⟨12, 0, 0, false⟩) (by decide) rfl
  have third := second.guarded (.sendRR 1) (by decide) rfl
  exact reports_right third

/-- A packet that comes late takes the highest number back with it. -/
theorem late_packet_reported : ¬ ∀ s : Session,
    Runs.Reachable Start (Runs.Guarded Admits Step) s → s.Right := by
  intro right
  have reached : Runs.Reachable Start (Runs.Guarded Admits Step) { ssrc := 1, remoteSsrc := 2 } :=
    .start ⟨1, 2, rfl⟩
  have first := reached.guarded (.mediaPacket ⟨10, 0, 0, false⟩) (by decide) rfl
  have second := first.guarded (.mediaPacket ⟨12, 0, 0, false⟩) (by decide) rfl
  have third := second.guarded (.mediaPacket ⟨11, 0, 0, false⟩) (by decide) rfl
  have fourth := third.guarded (.sendRR 1) (by decide) rfl
  have report := (right _ fourth).1 _ List.mem_cons_self 10 rfl
  have highest : (11 : BitVec 32) = 12 := report.1
  exact absurd highest (by decide)

end Session

end MiniRtc.Video
