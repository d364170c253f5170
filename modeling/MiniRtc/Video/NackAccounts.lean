import MiniRtc.Lib.Runs
import MiniRtc.Video.NackWatch

/-! A requester beside an account of what arrived, what was asked for and what was given up.
A recovered packet may be ahead of the newest one. The requester knows about it from its list of
recovered numbers only, and asks for it again when the number has left that list too early. -/
namespace MiniRtc.Video
open Wrapping

inductive NackCall where
  | onReceivedPacket (seqNum : Int) (isRecovered : Bool) (wait : Nat) (now : Int)
  | processNacks (now : Int)
  | onNackBatchSent (batch : List Int) (successful : Bool) (now : Int)
  | clearUpTo (seqNum : Int)
  | consumeKeyFrameRequest
deriving DecidableEq, Repr

structure NackSession where
  nack : NackRequester := {}
  -- the first packet, and all that arrived
  first : Int := 0
  received : List Int := []
  -- the batch of the last call, the numbers of batches that are not reported yet, and those of
  -- batches that were reported as sent
  returned : List Int := []
  outstanding : List Int := []
  sent : List Int := []
  -- the calls of `ClearUpTo`, with the newest number of the time
  clears : List (Int × Int) := []
  -- an overflow dropped everything below, and no keyframe request was consumed since one
  droppedBelow : Option Int := none
  overflowed : Bool := false
deriving DecidableEq, Repr

namespace NackSession

/-- The losses up to a packet, and those that are asked for and not too old, are too many. -/
def Overflows (n : NackRequester) (seqNum : Int) (isRecovered : Bool) : Prop :=
  n.initialized = true ∧ isRecovered = false ∧ n.newestSeqNum < seqNum ∧
    (kMaxNackPackets : Int) < (n.nackList.filter fun e => seqNum - 10000 ≤ e.seqNum).length +
      (seqNum - (n.newestSeqNum + 1))

instance (n : NackRequester) (seqNum : Int) (isRecovered : Bool) :
    Decidable (Overflows n seqNum isRecovered) :=
  inferInstanceAs (Decidable (_ ∧ _ ∧ _ ∧ _))

/-- A batch that is returned. -/
def hand (s : NackSession) (result : List Int × NackRequester) : NackSession :=
  { s with
    nack := result.2
    returned := result.1
    outstanding := s.outstanding ++ result.1 }

/-- The account of a packet that arrives. -/
def arrive (s : NackSession) (seqNum : Int) (isRecovered : Bool) : NackSession :=
  let overflows := decide (Overflows s.nack seqNum isRecovered)
  { s with
    first := if s.nack.initialized then s.first else seqNum
    received := seqNum :: s.received
    droppedBelow := if overflows then some seqNum else s.droppedBelow
    overflowed := overflows || s.overflowed }

def apply (s : NackSession) : NackCall → NackSession
  | .onReceivedPacket seqNum isRecovered wait now =>
    (s.arrive seqNum isRecovered).hand (s.nack.onReceivedPacket seqNum isRecovered wait now)
  | .processNacks now => s.hand (s.nack.processNacks now)
  | .onNackBatchSent batch successful now =>
    { s with
      nack := s.nack.onNackBatchSent batch successful now
      returned := []
      outstanding := s.outstanding.filter fun m => m ∉ batch
      sent := if successful then s.sent ++ batch else s.sent }
  | .clearUpTo seqNum =>
    { s with
      nack := s.nack.clearUpTo seqNum
      returned := []
      clears := s.clears ++ [(seqNum, s.nack.newestSeqNum)] }
  | .consumeKeyFrameRequest =>
    { s with nack := s.nack.consumeKeyFrameRequest.2, returned := [], overflowed := false }

/-- Packets less than half the range from the newest one, reports of numbers that were handed out,
and numbers of packets that arrived for `ClearUpTo`. -/
def Admits (s : NackSession) : NackCall → Prop
  | .onReceivedPacket seqNum _ _ _ => s.nack.initialized = true → Near 16 seqNum s.nack.newestSeqNum
  | .onNackBatchSent batch _ _ => batch.Nodup ∧ ∀ m ∈ batch, m ∈ s.outstanding
  | .clearUpTo seqNum => seqNum ∈ s.received
  | _ => True

instance (s : NackSession) (c : NackCall) : Decidable (s.Admits c) :=
  match c with
  | .onReceivedPacket seqNum _ _ _ =>
    inferInstanceAs (Decidable (s.nack.initialized = true → Near 16 seqNum s.nack.newestSeqNum))
  | .onNackBatchSent batch _ _ => inferInstanceAs (Decidable (batch.Nodup ∧ ∀ m ∈ batch, m ∈ s.outstanding))
  | .clearUpTo seqNum => inferInstanceAs (Decidable (seqNum ∈ s.received))
  | .processNacks _ | .consumeKeyFrameRequest => inferInstanceAs (Decidable True)

def Start (s : NackSession) : Prop := s = {}

theorem blank_start : Start {} := rfl

/-- The reasons for which a missing number is not asked for. -/
def Excused (s : NackSession) (m : Int) : Prop :=
  (∃ c ∈ s.clears, m ≤ c.1 ∧ m ≤ c.2) ∨ m + 10000 < s.nack.newestSeqNum ∨
    kMaxNackRetries ≤ s.sent.count m ∨ ∃ d ∈ s.droppedBelow, m < d

/-- What is asked for is missing, and what is missing is asked for. -/
structure Right (s : NackSession) : Prop where
  listed : ∀ e ∈ s.nack.nackList, e.seqNum ∉ s.received
  returned : ∀ m ∈ s.returned, m ∉ s.received
  once : s.outstanding.Nodup
  bounded : s.nack.nackList.length ≤ kMaxNackPackets
  retries : ∀ e ∈ s.nack.nackList, e.retries = s.sent.count e.seqNum
  missing : s.nack.initialized = true → ∀ m, s.first ≤ m → m ≤ s.nack.newestSeqNum →
    m ∈ s.received ∨ (∃ e ∈ s.nack.nackList, e.seqNum = m) ∨ s.Excused m
  overflow : s.overflowed = true → s.nack.keyframeRequestPending = true

/-- No recovered number ahead of the newest one leaves the list of recovered numbers: it is not too far
from a packet that is recovered, and no `ClearUpTo` reaches it. Numbers that are in that list, in a
reported batch or in a call of `ClearUpTo` are less than half the range away. -/
def Meets (s : NackSession) : NackCall → Prop
  | .onReceivedPacket seqNum isRecovered _ _ => ∀ m ∈ s.nack.recoveredList,
    Near 16 m seqNum ∧ Near 16 m s.nack.newestSeqNum ∧ (isRecovered = true → s.nack.newestSeqNum < m →
      seqNum ≤ m + 10000 ∧ m < seqNum + 22768)
  | .onNackBatchSent batch _ _ => ∀ m ∈ batch, Near 16 m s.nack.newestSeqNum
  | .clearUpTo seqNum => Near 16 seqNum s.nack.newestSeqNum ∧ ∀ m ∈ s.nack.recoveredList,
    s.nack.newestSeqNum < m → Near 16 m seqNum ∧ seqNum < m
  | _ => True

instance (s : NackSession) (c : NackCall) : Decidable (s.Meets c) :=
  match c with
  | .onReceivedPacket seqNum isRecovered _ _ => inferInstanceAs (Decidable (∀ m ∈ s.nack.recoveredList,
    Near 16 m seqNum ∧ Near 16 m s.nack.newestSeqNum ∧ (isRecovered = true → s.nack.newestSeqNum < m →
      seqNum ≤ m + 10000 ∧ m < seqNum + 22768)))
  | .onNackBatchSent batch _ _ => inferInstanceAs (Decidable (∀ m ∈ batch, Near 16 m s.nack.newestSeqNum))
  | .clearUpTo seqNum => inferInstanceAs (Decidable (Near 16 seqNum s.nack.newestSeqNum ∧
    ∀ m ∈ s.nack.recoveredList, s.nack.newestSeqNum < m → Near 16 m seqNum ∧ seqNum < m))
  | .processNacks _ | .consumeKeyFrameRequest => inferInstanceAs (Decidable True)

end NackSession

/-! ### The list of losses -/

namespace NackRequester

/-- The losses are in order, and none is too old. -/
structure Ordered (n : NackRequester) : Prop where
  sorted : n.nackList.Pairwise fun e f => e.seqNum < f.seqNum
  range : ∀ e ∈ n.nackList, n.newestSeqNum ≤ e.seqNum + 10000 ∧ e.seqNum < n.newestSeqNum

theorem Ordered.unique {n : NackRequester} (ordered : n.Ordered) {e f : NackInfo} (first : e ∈ n.nackList)
    (second : f ∈ n.nackList) (equal : e.seqNum = f.seqNum) : e = f := by
  have apart := List.Pairwise.forall_of_forall_of_flip (R := fun e f : NackInfo => e = f ∨ e.seqNum ≠ f.seqNum)
    (fun _ _ => Or.inl rfl) (ordered.sorted.imp fun less => Or.inr less.ne)
    (ordered.sorted.imp fun less => Or.inr less.ne') first second
  exact apart.resolve_right fun other => other equal

/-- In an ordered list the elements before the first one that is not old are those that are. -/
theorem dropWhile_eq_filter {α : Type} {old : α → Bool} {l : List α}
    (ordered : l.Pairwise fun a b => old b = true → old a = true) :
    l.dropWhile old = l.filter fun a => !old a := by
  induction l with
  | nil => rfl
  | cons a tail ih =>
    obtain ⟨before, rest⟩ := List.pairwise_cons.mp ordered
    rw [List.dropWhile_cons, List.filter_cons]
    cases aged : old a with
    | true => exact ih rest
    | false =>
      have young : ∀ b ∈ tail, (!old b) = true := by
        intro b member
        cases too : old b with
        | false => rfl
        | true =>
          rw [before b member too] at aged
          cases aged
      simp only [Bool.false_eq_true, if_false, Bool.not_false, if_true]
      rw [List.filter_eq_self.mpr young]

/-- The entries that a new packet leaves. -/
def young (n : NackRequester) (x : Int) : List NackInfo :=
  n.nackList.filter fun e => x - 10000 ≤ e.seqNum

/-- The numbers that a new packet shows to be lost. -/
def lost (n : NackRequester) (x : Int) : List Int :=
  (numbersUntil (n.newestSeqNum + 1) (seq x)).filter fun m => m ∉ n.recoveredList

def newInfo (wait : Nat) (now m : Int) : NackInfo where
  seqNum := m
  sendAtSeqNum := seq m + BitVec.ofNat 16 wait
  createdAtTime := now

theorem lost_near {n : NackRequester} {x m : Int}
    (recovered : ∀ r ∈ n.recoveredList, Near 16 r x ∧ Near 16 r n.newestSeqNum)
    (after : n.newestSeqNum < m) (before : m < x) :
    seq m ∈ n.recoveredList.map seq ↔ m ∈ n.recoveredList := by
  constructor
  · intro there
    obtain ⟨r, member, same⟩ := List.mem_map.mp there
    obtain ⟨high, low⟩ := recovered r member
    have close : Near 16 r m := (low.symm.between high.symm after.le before.le).symm
    rw [(ofInt_inj_of_near (by decide) close).mp same] at member
    exact member
  · exact List.mem_map_of_mem

theorem mem_lost {n : NackRequester} {x : Int} (newer : n.newestSeqNum < x)
    (near : Near 16 x n.newestSeqNum) (m : Int) :
    m ∈ n.lost x ↔ (n.newestSeqNum < m ∧ m < x) ∧ m ∉ n.recoveredList := by
  have bound := near.1
  norm_num at bound
  rw [lost, List.mem_filter, mem_numbersUntil (by omega) (by norm_num; omega), decide_eq_true_eq]
  constructor
  · rintro ⟨⟨after, before⟩, absent⟩
    exact ⟨⟨by omega, before⟩, absent⟩
  · rintro ⟨⟨after, before⟩, absent⟩
    exact ⟨⟨by omega, before⟩, absent⟩

section Add

variable {n : NackRequester} {x : Int} (ordered : n.Ordered) (newer : n.newestSeqNum < x)
  (near : Near 16 x n.newestSeqNum)
include ordered newer near

theorem dropWhile_young :
    (n.nackList.dropWhile fun e => aheadOf (seq x - kMaxPacketAge) (seq e.seqNum)) = n.young x := by
  have oldest : seq x - kMaxPacketAge = seq (x - 10000) := by
    rw [sub_eq_add_neg x, seq, seq, BitVec.ofInt_add, BitVec.sub_eq_add_neg]
    rfl
  have bound := near.1
  norm_num at bound
  have close : ∀ e ∈ n.nackList, Near 16 (x - 10000) e.seqNum := by
    intro e member
    have range := ordered.range e member
    constructor
    · norm_num
      omega
    · norm_num
      omega
  have aged : ∀ e ∈ n.nackList, aheadOf (seq x - kMaxPacketAge) (seq e.seqNum) = true ↔
      e.seqNum < x - 10000 := by
    intro e member
    rw [oldest]
    exact aheadOf_ofInt (by decide) (close e member)
  rw [dropWhile_eq_filter, young]
  · refine List.filter_congr fun e member => ?_
    have order := aged e member
    cases ahead : aheadOf (seq x - kMaxPacketAge) (seq e.seqNum) with
    | true =>
      have below := order.mp ahead
      exact (decide_eq_false (by omega)).symm
    | false =>
      rw [ahead] at order
      have level : ¬ e.seqNum < x - 10000 := fun below => absurd (order.mpr below) Bool.false_ne_true
      exact (decide_eq_true (by omega)).symm
  · refine ordered.sorted.imp_of_mem fun {e f} first second less old => ?_
    have below := (aged f second).mp old
    exact (aged e first).mpr (by omega)

/-- What a new packet does to the list. -/
theorem addPacketsToNack_eq (recovered : ∀ r ∈ n.recoveredList, Near 16 r x ∧ Near 16 r n.newestSeqNum)
    (wait : Nat) (now : Int) :
    n.addPacketsToNack (n.newestSeqNum + 1) x wait now =
      if (kMaxNackPackets : Int) < (n.young x).length + (x - (n.newestSeqNum + 1)) then
        { n with nackList := [], keyframeRequestPending := true }
      else { n with nackList := n.young x ++ (n.lost x).map (newInfo wait now) } := by
  have bound := near.1
  norm_num at bound
  have count : ((seq x - seq (n.newestSeqNum + 1)).toNat : Int) = x - (n.newestSeqNum + 1) := by
    rw [toNat_ofInt_sub, Int.emod_eq_of_lt (by omega) (by norm_num; omega)]
  have missing : ((numbersUntil (n.newestSeqNum + 1) (seq x)).filter fun m =>
      ¬ seq m ∈ n.recoveredList.map seq) = n.lost x := by
    refine List.filter_congr fun m member => ?_
    obtain ⟨after, before⟩ := (mem_numbersUntil (by omega) (by norm_num; omega)).mp member
    exact decide_eq_decide.mpr (not_congr (lost_near recovered (by omega) before))
  have appended : (n.lost x).foldl (fun list m => insertOrAssign (fun e => seq e.seqNum)
      (newInfo wait now m) list) (n.young x) = n.young x ++ (n.lost x).map (newInfo wait now) := by
    refine foldl_insertOrAssign (newInfo wait now) (fun _ => rfl) _ _ ?_ ?_ ?_
    · exact (numbersUntil_increasing _ _).filter _
    · intro e old m new
      obtain ⟨⟨after, before⟩, _⟩ := (mem_lost newer near m).mp new
      obtain ⟨member, fresh⟩ := List.mem_filter.mp old
      have below := (ordered.range e member).2
      have age := of_decide_eq_true fresh
      refine ⟨by omega, ?_, ?_⟩
      · norm_num
        omega
      · norm_num
        omega
    · intro m new m' also
      obtain ⟨⟨after, before⟩, _⟩ := (mem_lost newer near m).mp new
      obtain ⟨⟨after', before'⟩, _⟩ := (mem_lost newer near m').mp also
      constructor
      · norm_num
        omega
      · norm_num
        omega
  rw [addPacketsToNack, dropWhile_young ordered newer near, missing]
  have same : kMaxNackPackets < (n.young x).length + (seq x - seq (n.newestSeqNum + 1)).toNat ↔
      (kMaxNackPackets : Int) < (n.young x).length + (x - (n.newestSeqNum + 1)) := by
    rw [← count]
    omega
  simp only [same]
  split
  · rfl
  · exact congrArg (fun list => { n with nackList := list }) appended

end Add

/-! ### Each call -/

theorem onReceivedPacket_first {n : NackRequester} (blank : n.initialized = false) (x : Int)
    (isRecovered : Bool) (wait : Nat) (now : Int) :
    n.onReceivedPacket x isRecovered wait now =
      ([], { n with newestSeqNum := x, initialized := true }) := by
  rw [onReceivedPacket, blank]
  rfl

theorem mem_insertOrAssign_of {α : Type} {number : α → BitVec 16} {x y : α} {l : List α}
    (member : y = x ∨ y ∈ l ∧ number y ≠ number x) : y ∈ insertOrAssign number x l := by
  induction l with
  | nil => exact List.mem_singleton.mpr (member.resolve_right fun both => absurd both.1 List.not_mem_nil)
  | cons z rest ih =>
    rw [insertOrAssign]
    split
    · rename_i same
      rcases member with rfl | ⟨inside, other⟩
      · exact List.mem_cons_self
      · rcases List.mem_cons.mp inside with rfl | later
        · exact absurd same other
        · exact List.mem_cons_of_mem _ later
    · split
      · rcases member with rfl | ⟨inside, _⟩
        · exact List.mem_cons_self
        · exact List.mem_cons_of_mem _ inside
      · rcases member with rfl | ⟨inside, other⟩
        · exact List.mem_cons_of_mem _ (ih (Or.inl rfl))
        · rcases List.mem_cons.mp inside with rfl | later
          · exact List.mem_cons_self
          · exact List.mem_cons_of_mem _ (ih (Or.inr ⟨later, other⟩))

/-- What does not satisfy the condition is not dropped. -/
theorem mem_dropWhile_of_not {α : Type} {old : α → Bool} {l : List α} {a : α} (member : a ∈ l)
    (kept : old a = false) : a ∈ l.dropWhile old := by
  rw [← List.takeWhile_append_dropWhile (p := old) (l := l)] at member
  rcases List.mem_append.mp member with dropped | left
  · have aged := List.mem_takeWhile_imp dropped
    rw [kept] at aged
    cases aged
  · exact left

section Received

variable {n : NackRequester} (started : n.initialized = true) {x : Int}
  (near : Near 16 x n.newestSeqNum)
include started near

omit near in
theorem onReceivedPacket_again (same : x = n.newestSeqNum) (isRecovered : Bool) (wait : Nat) (now : Int) :
    n.onReceivedPacket x isRecovered wait now = ([], n) := by
  rw [onReceivedPacket, started, same]
  simp

/-- A packet behind the newest one leaves the list. -/
theorem onReceivedPacket_old (ordered : n.Ordered) (older : x < n.newestSeqNum) (isRecovered : Bool)
    (wait : Nat) (now : Int) :
    ∃ rttMs hasRttSample, n.onReceivedPacket x isRecovered wait now =
      ([], { n with nackList := n.nackList.filter fun e => e.seqNum ≠ x, rttMs, hasRttSample }) := by
  have ahead : aheadOf (seq n.newestSeqNum) (seq x) = true :=
    (aheadOf_ofInt (by decide) near.symm).mpr older
  have other : ¬ seq x = seq n.newestSeqNum := fun same =>
    absurd ((ofInt_inj_of_near (by decide) near).mp same) older.ne
  have bound := near.2
  norm_num at bound
  have own : ∀ e ∈ n.nackList, (seq e.seqNum = seq x ↔ e.seqNum = x) := by
    intro e member
    have range := ordered.range e member
    refine ofInt_inj_of_near (by decide) ⟨?_, ?_⟩
    · norm_num
      omega
    · norm_num
      omega
  have erased : (n.nackList.filter fun e => seq e.seqNum ≠ seq x) = n.nackList.filter fun e => e.seqNum ≠ x :=
    List.filter_congr fun e member => decide_eq_decide.mpr (not_congr (own e member))
  rw [onReceivedPacket, if_neg (by simp [started]), if_neg other, if_pos ahead]
  split
  · rename_i none
    refine ⟨n.rttMs, n.hasRttSample, ?_⟩
    have all : (n.nackList.filter fun e => e.seqNum ≠ x) = n.nackList := by
      rw [← erased]
      refine List.filter_eq_self.mpr fun e member => ?_
      have absent := List.find?_eq_none.mp none e member
      simpa using absent
    rw [all]
  · rename_i e _
    obtain ⟨rttMs, hasRttSample, sampled⟩ := n.sampleRtt_eq e isRecovered now
    refine ⟨rttMs, hasRttSample, ?_⟩
    simp only [sampled, erased]

section Newer

variable (newer : n.newestSeqNum < x)
include newer

theorem onReceivedPacket_lost (wait : Nat) (now : Int) :
    n.onReceivedPacket x false wait now = getNackBatch
      { n.addPacketsToNack (n.newestSeqNum + 1) x wait now with newestSeqNum := x } .seqNumOnly now := by
  have behind : aheadOf (seq n.newestSeqNum) (seq x) = false :=
    (aheadOf_ofInt_eq_false (by decide) near.symm).mpr newer.le
  have other : ¬ seq x = seq n.newestSeqNum := fun same =>
    absurd ((ofInt_inj_of_near (by decide) near).mp same) newer.ne'
  rw [onReceivedPacket, if_neg (by simp [started]), if_neg other, if_neg (by simp [behind])]
  rfl

/-- A recovered packet ahead of the newest one is kept in mind, and so are the others. -/
theorem onReceivedPacket_recovered (wait : Nat) (now : Int)
    (recovered : ∀ m ∈ n.recoveredList, Near 16 m x ∧
      (n.newestSeqNum < m → x ≤ m + 10000 ∧ m < x + 22768)) :
    ∃ list, n.onReceivedPacket x true wait now = ([], { n with recoveredList := list }) ∧
      x ∈ list ∧ (∀ m ∈ list, m = x ∨ m ∈ n.recoveredList) ∧
      ∀ m ∈ n.recoveredList, n.newestSeqNum < m → m ∈ list := by
  have behind : aheadOf (seq n.newestSeqNum) (seq x) = false :=
    (aheadOf_ofInt_eq_false (by decide) near.symm).mpr newer.le
  have other : ¬ seq x = seq n.newestSeqNum := fun same =>
    absurd ((ofInt_inj_of_near (by decide) near).mp same) newer.ne'
  have oldest : seq x - kMaxPacketAge = seq (x - 10000) := by
    rw [sub_eq_add_neg x, seq, seq, BitVec.ofInt_add, BitVec.sub_eq_add_neg]
    rfl
  have young : ∀ m, x ≤ m + 10000 → m < x + 22768 →
      aheadOf (seq x - kMaxPacketAge) (seq m) = false := by
    intro m low high
    rw [oldest]
    refine (aheadOf_ofInt_eq_false (by decide) ⟨?_, ?_⟩).mpr (by omega)
    · norm_num
      omega
    · norm_num
      omega
  have inserted : ∀ m, m = x ∨ m ∈ n.recoveredList ↔ m ∈ (if seq x ∈ n.recoveredList.map seq then
      n.recoveredList else insertOrAssign seq x n.recoveredList) := by
    intro m
    have own : ∀ m ∈ n.recoveredList, seq m = seq x → m = x := fun m member =>
      (ofInt_inj_of_near (by decide) (recovered m member).1).mp
    split
    · rename_i there
      obtain ⟨r, member, same⟩ := List.mem_map.mp there
      rw [own r member same] at member
      exact ⟨fun either => either.elim (fun equal => equal ▸ member) id, Or.inr⟩
    · rename_i absent
      refine ⟨fun either => mem_insertOrAssign_of (either.imp_right fun member => ⟨member, fun same => ?_⟩),
        mem_insertOrAssign⟩
      exact absent (same ▸ List.mem_map_of_mem member)
  have made : n.onReceivedPacket x true wait now = ([], { n with
      recoveredList := (if seq x ∈ n.recoveredList.map seq then n.recoveredList
        else insertOrAssign seq x n.recoveredList).dropWhile fun m =>
          aheadOf (seq x - kMaxPacketAge) (seq m) }) := by
    rw [onReceivedPacket, if_neg (by simp [started]), if_neg other, if_neg (by simp [behind])]
    rfl
  refine ⟨_, made, ?_, ?_, ?_⟩
  · exact mem_dropWhile_of_not ((inserted x).mp (Or.inl rfl)) (young x (by omega) (by omega))
  · exact fun m member => (inserted m).mpr ((List.dropWhile_sublist _).subset member)
  · intro m member after
    obtain ⟨low, high⟩ := (recovered m member).2 after
    exact mem_dropWhile_of_not ((inserted m).mp (Or.inr member)) (young m low high)

end Newer

end Received

/-- The numbers of a batch are those of entries that are due, and none of them was pending. -/
theorem mem_batch {n : NackRequester} {options : NackFilterOptions} {now m : Int} :
    m ∈ (n.getNackBatch options now).1 ↔ ∃ e ∈ n.nackList, n.due options now e = true ∧ e.seqNum = m := by
  rw [getNackBatch, List.mem_map]
  simp only [List.mem_filter, and_assoc]

theorem not_pending_of_due {n : NackRequester} {options : NackFilterOptions} {now : Int} {e : NackInfo}
    (due : n.due options now e = true) : e.sendPending = false := by
  unfold NackRequester.due at due
  simp only [Bool.and_eq_true] at due
  exact (Bool.not_eq_true' _).mp due.1.1.1

/-- What a report leaves of an entry that was pending. -/
theorem sentOne_left {now : Int} {successful : Bool} {e e' : NackInfo} (pending : e.sendPending = true)
    (left : sentOne now successful e = some e') :
    e'.sendPending = false ∧ e'.retries = e.retries + if successful then 1 else 0 := by
  rw [sentOne, pending, if_neg (by decide)] at left
  cases successful with
  | false =>
    cases left
    exact ⟨rfl, rfl⟩
  | true =>
    rw [if_neg (by decide)] at left
    split at left
    · cases left
    · cases left
      exact ⟨rfl, rfl⟩

theorem sentOne_none {now : Int} {successful : Bool} {e : NackInfo}
    (gone : sentOne now successful e = none) : successful = true ∧ kMaxNackRetries ≤ e.retries + 1 := by
  unfold sentOne at gone
  split_ifs at gone with idle failed many
  exact ⟨by simpa using failed, many⟩

/-- `OnNackBatchSent` for a batch of numbers that are near the list: one step for each entry. -/
theorem onNackBatchSent_eq {n : NackRequester} {batch : List Int} (distinct : batch.Nodup)
    (near : ∀ m ∈ batch, ∀ e ∈ n.nackList, seq e.seqNum = seq m → e.seqNum = m) (successful : Bool)
    (now : Int) :
    n.onNackBatchSent batch successful now = { n with
      nackList := n.nackList.filterMap fun e =>
        if e.seqNum ∈ batch then sentOne now successful e else some e } := by
  unfold onNackBatchSent
  congr 1
  generalize n.nackList = list at near
  induction batch generalizing list with
  | nil => simp
  | cons m rest ih =>
    obtain ⟨absent, distinct⟩ := List.nodup_cons.mp distinct
    have one : sentFor now successful m list = list.filterMap fun e =>
        if e.seqNum = m then sentOne now successful e else some e := by
      refine List.filterMap_congr fun e member => ?_
      by_cases same : e.seqNum = m
      · rw [if_pos same, if_pos (congrArg seq same)]
      · rw [if_neg same, if_neg fun equal => same (near m List.mem_cons_self e member equal)]
    have later : ∀ m' ∈ rest, ∀ e ∈ sentFor now successful m list, seq e.seqNum = seq m' → e.seqNum = m' := by
      intro m' member e inside
      obtain ⟨f, there, same⟩ := List.mem_map.mp
        ((sentFor_sublist now successful m list).subset (List.mem_map_of_mem inside))
      rw [← same]
      exact near m' (List.mem_cons_of_mem _ member) f there
    rw [List.foldl_cons]
    show rest.foldl (fun list m => sentFor now successful m list) (sentFor now successful m list) = _
    refine (ih distinct _ later).trans ?_
    rw [one, List.filterMap_filterMap]
    refine List.filterMap_congr fun e _ => ?_
    by_cases same : e.seqNum = m
    · rw [if_pos same, if_pos (by rw [same]; exact List.mem_cons_self)]
      cases done : sentOne now successful e with
      | none => rfl
      | some e' =>
        rw [Option.bind_some, if_neg]
        rw [sentOne_seqNum done, same]
        exact absent
    · rw [if_neg same, Option.bind_some]
      simp only [List.mem_cons, same, false_or]

/-- What `ClearUpTo` takes from the list is not above the number. -/
theorem clearUpTo_kept {n : NackRequester} (ordered : n.Ordered) {x : Int} (near : Near 16 x n.newestSeqNum)
    {e : NackInfo} (member : e ∈ n.nackList) (above : x < e.seqNum) : e ∈ (n.clearUpTo x).nackList := by
  have range := ordered.range e member
  have bound := near.2
  norm_num at bound
  have ahead : aheadOf (seq e.seqNum) (seq x) = true := by
    refine (aheadOf_ofInt (by decide) ⟨?_, ?_⟩).mpr above
    · norm_num
      omega
    · norm_num
      omega
  exact mem_dropWhile_of_not member (by rw [ahead]; rfl)

theorem clearUpTo_recovered {n : NackRequester} {x m : Int} (member : m ∈ n.recoveredList)
    (near : Near 16 m x) (above : x < m) : m ∈ (n.clearUpTo x).recoveredList := by
  have ahead : aheadOf (seq m) (seq x) = true := (aheadOf_ofInt (by decide) near).mpr above
  exact mem_dropWhile_of_not member (by rw [ahead]; rfl)

end NackRequester

namespace NackSession

/-! ### What holds in a run -/

/-- What every state has, except for the batch of the last call. -/
structure Sound (s : NackSession) : Prop where
  blank : s.nack.initialized = false → s.received = [] ∧ s.nack.nackList = [] ∧
    s.nack.recoveredList = [] ∧ s.outstanding = [] ∧ s.sent = []
  ordered : s.nack.Ordered
  listed : ∀ e ∈ s.nack.nackList, e.seqNum ∉ s.received
  recovered : ∀ m ∈ s.nack.recoveredList, m ∈ s.received
  ahead : ∀ m ∈ s.received, s.nack.newestSeqNum < m → m ∈ s.nack.recoveredList
  bounded : s.nack.nackList.length ≤ kMaxNackPackets
  once : s.outstanding.Nodup
  idle : ∀ e ∈ s.nack.nackList, e.sendPending = false → e.seqNum ∉ s.outstanding
  past : (∀ m ∈ s.outstanding, m ≤ s.nack.newestSeqNum) ∧ ∀ m ∈ s.sent, m ≤ s.nack.newestSeqNum
  retries : ∀ e ∈ s.nack.nackList, e.retries = s.sent.count e.seqNum
  missing : s.nack.initialized = true → ∀ m, s.first ≤ m → m ≤ s.nack.newestSeqNum →
    m ∈ s.received ∨ (∃ e ∈ s.nack.nackList, e.seqNum = m) ∨ s.Excused m
  overflow : s.overflowed = true → s.nack.keyframeRequestPending = true

section Calls

variable {s : NackSession} (sound : s.Sound)
include sound

/-- A batch marks its entries. -/
theorem Sound.hand (options : NackRequester.NackFilterOptions) (now : Int) :
    (s.hand (s.nack.getNackBatch options now)).Sound ∧
      ∀ m ∈ (s.nack.getNackBatch options now).1, m ∉ s.received := by
  have numbers := s.nack.getNackBatch_numbers options now
  have same : ∀ e, (if s.nack.due options now e then { e with sendPending := true } else e).seqNum = e.seqNum ∧
      (if s.nack.due options now e then { e with sendPending := true } else e).retries = e.retries := by
    intro e
    split
    · exact ⟨rfl, rfl⟩
    · exact ⟨rfl, rfl⟩
  have before : ∀ e' ∈ (s.nack.getNackBatch options now).2.nackList, ∃ e ∈ s.nack.nackList,
      (if s.nack.due options now e then { e with sendPending := true } else e) = e' :=
    fun e' member => List.mem_map.mp member
  have asked : ∀ m ∈ (s.nack.getNackBatch options now).1, ∃ e ∈ s.nack.nackList,
      s.nack.due options now e = true ∧ e.seqNum = m := fun m member => NackRequester.mem_batch.mp member
  refine ⟨⟨?_, ⟨?_, ?_⟩, ?_, sound.recovered, sound.ahead, ?_, ?_, ?_, ⟨?_, sound.past.2⟩, ?_, ?_,
    sound.overflow⟩, ?_⟩
  · intro blank
    obtain ⟨received, list, recovered, outstanding, sent⟩ := sound.blank blank
    have empty : (s.nack.getNackBatch options now).1 = [] := by
      rw [NackRequester.getNackBatch, list]
      rfl
    refine ⟨received, ?_, recovered, ?_, sent⟩
    · show s.nack.nackList.map _ = []
      rw [list]
      rfl
    · show s.outstanding ++ _ = []
      rw [outstanding, empty]
      rfl
  · have sorted : (s.nack.nackList.map NackInfo.seqNum).Pairwise (· < ·) :=
      List.pairwise_map.mpr sound.ordered.sorted
    rw [← numbers] at sorted
    exact List.pairwise_map.mp sorted
  · intro e' member
    obtain ⟨e, there, rfl⟩ := before e' member
    rw [(same e).1]
    exact sound.ordered.range e there
  · intro e' member
    obtain ⟨e, there, rfl⟩ := before e' member
    rw [(same e).1]
    exact sound.listed e there
  · show (s.nack.nackList.map _).length ≤ _
    rw [List.length_map]
    exact sound.bounded
  · refine List.nodup_append.mpr ⟨sound.once, ?_, ?_⟩
    · have sorted : (s.nack.nackList.map NackInfo.seqNum).Pairwise (· < ·) :=
        List.pairwise_map.mpr sound.ordered.sorted
      exact (sorted.imp fun less => less.ne).sublist (List.filter_sublist.map NackInfo.seqNum)
    · intro m old m' new equal
      obtain ⟨e, there, due, rfl⟩ := asked m' new
      exact sound.idle e there (NackRequester.not_pending_of_due due) (equal ▸ old)
  · intro e' member idle outstanding
    obtain ⟨e, there, rfl⟩ := before e' member
    cases due : s.nack.due options now e with
    | true =>
      rw [due, if_pos rfl] at idle
      cases idle
    | false =>
      rw [due, if_neg Bool.false_ne_true] at idle outstanding
      rcases List.mem_append.mp outstanding with old | new
      · exact sound.idle e there idle old
      · obtain ⟨f, inside, marked, equal⟩ := asked _ new
        rw [sound.ordered.unique inside there equal, due] at marked
        cases marked
  · intro m member
    rcases List.mem_append.mp member with old | new
    · exact sound.past.1 m old
    · obtain ⟨e, there, _, rfl⟩ := asked m new
      exact (sound.ordered.range e there).2.le
  · intro e' member
    obtain ⟨e, there, rfl⟩ := before e' member
    rw [(same e).1, (same e).2]
    exact sound.retries e there
  · intro started m after before
    refine (sound.missing started m after before).imp_right fun rest => rest.imp_left fun listed => ?_
    exact (NackRequester.mem_of_same_numbers numbers).mpr listed
  · intro m member
    obtain ⟨e, there, _, rfl⟩ := asked m member
    exact sound.listed e there

omit sound in
/-- A call that returns no batch. -/
theorem Sound.hand_nothing {n : NackRequester}
    (after : ({ s with nack := n } : NackSession).Sound) : (s.hand ([], n)).Sound := by
  have same : s.hand ([], n) = { s with nack := n, returned := [] } := by
    rw [NackSession.hand, List.append_nil]
  rw [same]
  exact ⟨after.blank, after.ordered, after.listed, after.recovered, after.ahead, after.bounded, after.once,
    after.idle, after.past, after.retries, after.missing, after.overflow⟩

omit sound in
theorem arrive_of_not {x : Int} {isRecovered : Bool} (none : ¬ Overflows s.nack x isRecovered) :
    s.arrive x isRecovered = { s with
      first := if s.nack.initialized then s.first else x
      received := x :: s.received } := by
  unfold arrive
  rw [decide_eq_false none]
  rfl

theorem Sound.arrive_first (blank : s.nack.initialized = false) (x : Int) (isRecovered : Bool) :
    ({ s.arrive x isRecovered with nack := { s.nack with newestSeqNum := x, initialized := true } } :
      NackSession).Sound := by
  obtain ⟨received, list, recovered, outstanding, sent⟩ := sound.blank blank
  have none : ¬ Overflows s.nack x isRecovered := fun overflows => by
    rw [overflows.1] at blank
    cases blank
  rw [arrive_of_not none, received, blank]
  refine ⟨fun impossible => (nomatch impossible), ⟨?_, ?_⟩, ?_, ?_, ?_, ?_, ?_, ?_, ⟨?_, ?_⟩, ?_, ?_,
    sound.overflow⟩
  · exact sound.ordered.sorted
  · simp only [list]
    exact fun e member => absurd member List.not_mem_nil
  · simp only [list]
    exact fun e member => absurd member List.not_mem_nil
  · simp only [recovered]
    exact fun m member => absurd member List.not_mem_nil
  · intro m member after
    rw [List.mem_singleton.mp member] at after
    exact absurd after (lt_irrefl x)
  · exact sound.bounded
  · exact sound.once
  · simp only [list]
    exact fun e member => absurd member List.not_mem_nil
  · simp only [outstanding]
    exact fun m member => absurd member List.not_mem_nil
  · simp only [sent]
    exact fun m member => absurd member List.not_mem_nil
  · simp only [list]
    exact fun e member => absurd member List.not_mem_nil
  · intro _ m after before
    have same : m = x := le_antisymm before after
    exact Or.inl (same ▸ List.mem_cons_self)

/-- A packet that is not ahead of the newest one, and what is left of the list without it. -/
theorem Sound.arrive_old (started : s.nack.initialized = true) {x : Int} (isRecovered : Bool)
    (older : x ≤ s.nack.newestSeqNum) (rttMs : Int) (hasRttSample : Bool) :
    ({ s.arrive x isRecovered with nack := { s.nack with
        nackList := s.nack.nackList.filter fun e => e.seqNum ≠ x, rttMs, hasRttSample } } :
      NackSession).Sound := by
  have none : ¬ Overflows s.nack x isRecovered := fun overflows => not_lt.mpr older overflows.2.2.1
  rw [arrive_of_not none, if_pos started]
  have kept : ∀ {e}, e ∈ s.nack.nackList.filter (fun e => e.seqNum ≠ x) →
      e ∈ s.nack.nackList ∧ e.seqNum ≠ x := fun {e} member =>
    ⟨(List.mem_filter.mp member).1, of_decide_eq_true (List.mem_filter.mp member).2⟩
  refine ⟨?_, ⟨?_, ?_⟩, ?_, ?_, ?_, ?_, sound.once, ?_, sound.past, ?_, ?_, sound.overflow⟩
  · intro blank
    rw [started] at blank
    cases blank
  · exact sound.ordered.sorted.filter _
  · exact fun e member => sound.ordered.range e (kept member).1
  · intro e member there
    rcases List.mem_cons.mp there with same | old
    · exact (kept member).2 same
    · exact sound.listed e (kept member).1 old
  · exact fun m member => List.mem_cons_of_mem _ (sound.recovered m member)
  · intro m member after
    rcases List.mem_cons.mp member with rfl | old
    · exact absurd after (not_lt.mpr older)
    · exact sound.ahead m old after
  · exact (List.filter_sublist.length_le).trans sound.bounded
  · exact fun e member => sound.idle e (kept member).1
  · exact fun e member => sound.retries e (kept member).1
  · intro _ m after before
    rcases sound.missing started m after before with there | ⟨e, member, rfl⟩ | excused
    · exact Or.inl (List.mem_cons_of_mem _ there)
    · by_cases same : e.seqNum = x
      · exact Or.inl (same ▸ List.mem_cons_self)
      · exact Or.inr (Or.inl ⟨e, List.mem_filter.mpr ⟨member, decide_eq_true same⟩, rfl⟩)
    · exact Or.inr (Or.inr excused)

/-- A recovered packet ahead of the newest one, which the list of recovered numbers keeps. -/
theorem Sound.arrive_recovered (started : s.nack.initialized = true) {x : Int} {list : List Int}
    (newest : x ∈ list) (old : ∀ m ∈ list, m = x ∨ m ∈ s.nack.recoveredList)
    (kept : ∀ m ∈ s.nack.recoveredList, s.nack.newestSeqNum < m → m ∈ list)
    (newer : s.nack.newestSeqNum < x) :
    ({ s.arrive x true with nack := { s.nack with recoveredList := list } } : NackSession).Sound := by
  have none : ¬ Overflows s.nack x true := fun overflows => Bool.noConfusion overflows.2.1
  rw [arrive_of_not none, if_pos started]
  refine ⟨?_, ⟨sound.ordered.sorted, sound.ordered.range⟩, ?_, ?_, ?_, sound.bounded, sound.once, sound.idle,
    sound.past, sound.retries, ?_, sound.overflow⟩
  · intro blank
    rw [started] at blank
    cases blank
  · intro e member there
    rcases List.mem_cons.mp there with same | before
    · have range := (sound.ordered.range e member).2
      rw [same] at range
      exact absurd range (not_lt.mpr newer.le)
    · exact sound.listed e member before
  · intro m member
    rcases old m member with rfl | before
    · exact List.mem_cons_self
    · exact List.mem_cons_of_mem _ (sound.recovered m before)
  · intro m member after
    rcases List.mem_cons.mp member with rfl | before
    · exact newest
    · exact kept m (sound.ahead m before after) after
  · intro _ m after before
    exact (sound.missing started m after before).imp_left (List.mem_cons_of_mem _)

/-- The packets ahead of the newest one stay in the list of recovered numbers. -/
theorem Sound.still_ahead {x : Int} (newer : s.nack.newestSeqNum < x) :
    ∀ m ∈ x :: s.received, x < m → m ∈ s.nack.recoveredList := by
  intro m member after
  rcases List.mem_cons.mp member with rfl | before
  · exact absurd after (lt_irrefl m)
  · exact sound.ahead m before (newer.trans after)

/-- Too many losses: the list is given up. -/
theorem Sound.arrive_overflow {x : Int} (overflows : Overflows s.nack x false) :
    ({ s.arrive x false with nack := { s.nack with
        nackList := [], keyframeRequestPending := true, newestSeqNum := x } } : NackSession).Sound := by
  obtain ⟨started, _, newer, _⟩ := id overflows
  have given : s.arrive x false = { s with
      first := s.first
      received := x :: s.received
      droppedBelow := some x
      overflowed := true } := by
    unfold arrive
    rw [decide_eq_true overflows, if_pos started]
    rfl
  rw [given]
  refine ⟨?_, ⟨List.Pairwise.nil, ?_⟩, ?_, ?_, sound.still_ahead newer, Nat.zero_le _, sound.once, ?_, ⟨?_, ?_⟩,
    ?_, ?_, fun _ => rfl⟩
  · intro blank
    rw [started] at blank
    cases blank
  · exact fun e member => absurd member List.not_mem_nil
  · exact fun e member => absurd member List.not_mem_nil
  · exact fun m member => List.mem_cons_of_mem _ (sound.recovered m member)
  · exact fun e member => absurd member List.not_mem_nil
  · exact fun m member => (sound.past.1 m member).trans newer.le
  · exact fun m member => (sound.past.2 m member).trans newer.le
  · exact fun e member => absurd member List.not_mem_nil
  · intro _ m after before
    rcases before.lt_or_eq with less | rfl
    · exact Or.inr (Or.inr (Or.inr (Or.inr (Or.inr ⟨x, rfl, less⟩))))
    · exact Or.inl List.mem_cons_self

/-- The losses go to the end of the list. -/
theorem Sound.arrive_listed (started : s.nack.initialized = true) {x : Int}
    (near : Near 16 x s.nack.newestSeqNum) (newer : s.nack.newestSeqNum < x)
    (fits : ¬ Overflows s.nack x false) (wait : Nat) (now : Int) :
    ({ s.arrive x false with nack := { s.nack with
        nackList := s.nack.young x ++ (s.nack.lost x).map (NackRequester.newInfo wait now)
        newestSeqNum := x } } : NackSession).Sound := by
  have few : ((s.nack.young x).length : Int) + (x - (s.nack.newestSeqNum + 1)) ≤ 1000 := by
    by_contra many
    exact fits ⟨started, rfl, newer, not_le.mp many⟩
  have young : ∀ e ∈ s.nack.young x, e ∈ s.nack.nackList ∧ x - 10000 ≤ e.seqNum := fun e member =>
    ⟨(List.mem_filter.mp member).1, of_decide_eq_true (List.mem_filter.mp member).2⟩
  have lost := NackRequester.mem_lost newer near
  -- an entry afterwards is a young one, or one of a number that is lost
  have either : ∀ e ∈ s.nack.young x ++ (s.nack.lost x).map (NackRequester.newInfo wait now),
      e ∈ s.nack.young x ∨ ∃ m ∈ s.nack.lost x, NackRequester.newInfo wait now m = e := fun e member =>
    (List.mem_append.mp member).imp_right List.mem_map.mp
  rw [arrive_of_not fits, if_pos started]
  refine ⟨?_, ⟨?_, ?_⟩, ?_, ?_, sound.still_ahead newer, ?_, sound.once, ?_, ⟨?_, ?_⟩, ?_, ?_, sound.overflow⟩
  · intro blank
    rw [started] at blank
    cases blank
  · refine List.pairwise_append.mpr ⟨sound.ordered.sorted.filter _, ?_, ?_⟩
    · exact List.pairwise_map.mpr ((NackRequester.numbersUntil_increasing _ _).filter _)
    · intro e old f new
      obtain ⟨m, missing, rfl⟩ := List.mem_map.mp new
      have after := ((lost m).mp missing).1.1
      exact (sound.ordered.range e (young e old).1).2.trans after
  · intro e member
    rcases either e member with old | ⟨m, missing, rfl⟩
    · obtain ⟨there, fresh⟩ := young e old
      exact ⟨by simp only; omega, (sound.ordered.range e there).2.trans newer⟩
    · obtain ⟨⟨after, before⟩, _⟩ := (lost m).mp missing
      exact ⟨by simp only [NackRequester.newInfo]; omega, before⟩
  · intro e member there
    rcases either e member with old | ⟨m, missing, rfl⟩
    · have stood := (young e old).1
      rcases List.mem_cons.mp there with same | before
      · have range := (sound.ordered.range e stood).2
        omega
      · exact sound.listed e stood before
    · obtain ⟨⟨after, before⟩, absent⟩ := (lost m).mp missing
      rcases List.mem_cons.mp there with same | stood
      · exact absurd same before.ne
      · exact absent (sound.ahead m stood after)
  · exact fun m member => List.mem_cons_of_mem _ (sound.recovered m member)
  · have count : ((seq x - seq (s.nack.newestSeqNum + 1)).toNat : Int) = x - (s.nack.newestSeqNum + 1) := by
      have bound := near.1
      norm_num at bound
      rw [toNat_ofInt_sub, Int.emod_eq_of_lt (by omega) (by norm_num; omega)]
    have shorter : (s.nack.lost x).length ≤ (seq x - seq (s.nack.newestSeqNum + 1)).toNat := by
      refine List.filter_sublist.length_le.trans ?_
      rw [NackRequester.numbersUntil, List.length_map, List.length_range]
    rw [List.length_append, List.length_map]
    unfold kMaxNackPackets
    omega
  · intro e member idle
    rcases either e member with old | ⟨m, missing, rfl⟩
    · exact sound.idle e (young e old).1 idle
    · intro handed
      have after := ((lost m).mp missing).1.1
      exact absurd (sound.past.1 m handed) (not_le.mpr after)
  · exact fun m member => (sound.past.1 m member).trans newer.le
  · exact fun m member => (sound.past.2 m member).trans newer.le
  · intro e member
    rcases either e member with old | ⟨m, missing, rfl⟩
    · exact sound.retries e (young e old).1
    · have after := ((lost m).mp missing).1.1
      refine (List.count_eq_zero.mpr fun sent => ?_).symm
      exact absurd (sound.past.2 m sent) (not_le.mpr after)
  · intro _ m after before
    by_cases seen : m ≤ s.nack.newestSeqNum
    · rcases sound.missing started m after seen with there | ⟨e, member, rfl⟩ | excused
      · exact Or.inl (List.mem_cons_of_mem _ there)
      · refine Or.inr ?_
        by_cases fresh : x - 10000 ≤ e.seqNum
        · have stays : e ∈ s.nack.young x := List.mem_filter.mpr ⟨member, decide_eq_true fresh⟩
          exact Or.inl ⟨e, List.mem_append_left _ stays, rfl⟩
        · exact Or.inr (Or.inr (Or.inl (by simp only; omega)))
      · refine Or.inr (Or.inr ?_)
        rcases excused with cleared | aged | rest
        · exact Or.inl cleared
        · exact Or.inr (Or.inl (aged.trans newer))
        · exact Or.inr (Or.inr rest)
    · rcases before.lt_or_eq with less | rfl
      · by_cases kept : m ∈ s.nack.recoveredList
        · exact Or.inl (List.mem_cons_of_mem _ (sound.recovered m kept))
        · have missing := (lost m).mpr ⟨⟨not_le.mp seen, less⟩, kept⟩
          exact Or.inr (Or.inl ⟨_, List.mem_append_right _ (List.mem_map_of_mem missing), rfl⟩)
      · exact Or.inl List.mem_cons_self

/-- A packet ahead of the newest one, before the batch. -/
theorem Sound.arrive_lost (started : s.nack.initialized = true) {x : Int}
    (near : Near 16 x s.nack.newestSeqNum) (newer : s.nack.newestSeqNum < x)
    (recovered : ∀ r ∈ s.nack.recoveredList, Near 16 r x ∧ Near 16 r s.nack.newestSeqNum)
    (wait : Nat) (now : Int) :
    ({ s.arrive x false with nack :=
      { s.nack.addPacketsToNack (s.nack.newestSeqNum + 1) x wait now with newestSeqNum := x } } :
        NackSession).Sound := by
  have added := NackRequester.addPacketsToNack_eq sound.ordered newer near recovered wait now
  by_cases overflows : Overflows s.nack x false
  · have many : (kMaxNackPackets : Int) < (s.nack.young x).length + (x - (s.nack.newestSeqNum + 1)) :=
      overflows.2.2.2
    rw [added, if_pos many]
    exact sound.arrive_overflow overflows
  · have few : ¬ (kMaxNackPackets : Int) < (s.nack.young x).length + (x - (s.nack.newestSeqNum + 1)) :=
      fun many => overflows ⟨started, rfl, newer, many⟩
    rw [added, if_neg few]
    exact sound.arrive_listed started near newer overflows wait now

/-- A report of numbers that were handed out. -/
theorem Sound.report {batch : List Int} (distinct : batch.Nodup) (handed : ∀ m ∈ batch, m ∈ s.outstanding)
    (near : ∀ m ∈ batch, Near 16 m s.nack.newestSeqNum) (successful : Bool) (now : Int) :
    (s.apply (.onNackBatchSent batch successful now)).Sound := by
  have pending : ∀ e ∈ s.nack.nackList, e.seqNum ∈ batch → e.sendPending = true := by
    intro e member inside
    cases idle : e.sendPending with
    | true => rfl
    | false => exact absurd (handed _ inside) (sound.idle e member idle)
  have counts : ∀ m, (if successful then s.sent ++ batch else s.sent).count m =
      s.sent.count m + if successful ∧ m ∈ batch then 1 else 0 := by
    intro m
    cases successful with
    | false => simp
    | true =>
      by_cases inside : m ∈ batch
      · simp [inside, List.count_eq_one_of_mem distinct inside]
      · simp [inside, List.count_eq_zero_of_not_mem inside]
  have close : ∀ m ∈ batch, ∀ e ∈ s.nack.nackList, seq e.seqNum = seq m → e.seqNum = m := by
    intro m inside e member same
    obtain ⟨low, high⟩ := near m inside
    obtain ⟨above, below⟩ := sound.ordered.range e member
    have past := sound.past.1 m (handed m inside)
    norm_num at low high
    refine (ofInt_inj_of_near (by decide) ⟨?_, ?_⟩).mp same
    · norm_num
      omega
    · norm_num
      omega
  have made : s.apply (.onNackBatchSent batch successful now) = { s with
      nack := { s.nack with nackList := s.nack.nackList.filterMap fun e =>
        if e.seqNum ∈ batch then NackRequester.sentOne now successful e else some e }
      returned := []
      outstanding := s.outstanding.filter fun m => m ∉ batch
      sent := if successful then s.sent ++ batch else s.sent } := by
    rw [apply, NackRequester.onNackBatchSent_eq distinct close]
  -- an entry afterwards is one that the report is not about, or one whose number is in the batch
  have before : ∀ e' ∈ s.nack.nackList.filterMap (fun e =>
      if e.seqNum ∈ batch then NackRequester.sentOne now successful e else some e),
      ∃ e ∈ s.nack.nackList, e'.seqNum = e.seqNum ∧ (e.seqNum ∉ batch ∧ e' = e ∨
        e.seqNum ∈ batch ∧ e'.sendPending = false ∧ e'.retries = e.retries + if successful then 1 else 0) := by
    intro e' member
    obtain ⟨e, there, left⟩ := List.mem_filterMap.mp member
    by_cases inside : e.seqNum ∈ batch
    · rw [if_pos inside] at left
      obtain ⟨idle, retries⟩ := NackRequester.sentOne_left (pending e there inside) left
      exact ⟨e, there, NackRequester.sentOne_seqNum left, Or.inr ⟨inside, idle, retries⟩⟩
    · rw [if_neg inside] at left
      have same := Option.some.inj left
      exact ⟨e, there, congrArg _ same.symm, Or.inl ⟨inside, same.symm⟩⟩
  have order : (s.nack.nackList.filterMap fun e =>
      if e.seqNum ∈ batch then NackRequester.sentOne now successful e else some e).Pairwise
      fun e f => e.seqNum < f.seqNum := by
    have fewer := s.nack.onNackBatchSent_sublist batch successful now
    rw [NackRequester.onNackBatchSent_eq distinct close] at fewer
    exact List.pairwise_map.mp ((List.pairwise_map.mpr sound.ordered.sorted).sublist fewer)
  rw [made]
  refine ⟨?_, ⟨order, ?_⟩, ?_, sound.recovered, sound.ahead, ?_, sound.once.filter _, ?_, ⟨?_, ?_⟩, ?_, ?_,
    sound.overflow⟩
  · intro blank
    obtain ⟨received, list, recovered, outstanding, sent⟩ := sound.blank blank
    have empty : batch = [] := by
      refine List.eq_nil_iff_forall_not_mem.mpr fun m inside => ?_
      have outside := handed m inside
      rw [outstanding] at outside
      exact List.not_mem_nil outside
    simp only [received, list, recovered, outstanding, sent, empty, List.filterMap_nil, List.filter_nil,
      List.append_nil, ite_self, and_self]
  · intro e' member
    obtain ⟨e, there, same, _⟩ := before e' member
    rw [same]
    exact sound.ordered.range e there
  · intro e' member
    obtain ⟨e, there, same, _⟩ := before e' member
    rw [same]
    exact sound.listed e there
  · exact (List.length_filterMap_le _ _).trans sound.bounded
  · intro e' member idle outstanding
    obtain ⟨e, there, same, either⟩ := before e' member
    obtain ⟨stays, outside⟩ := List.mem_filter.mp outstanding
    rw [same] at stays outside
    rcases either with ⟨_, rfl⟩ | ⟨inside, _⟩
    · exact sound.idle e' there idle stays
    · exact absurd inside (of_decide_eq_true outside)
  · exact fun m member => sound.past.1 m (List.mem_filter.mp member).1
  · intro m member
    have either : m ∈ s.sent ∨ m ∈ batch := by
      cases successful with
      | false => exact Or.inl member
      | true => exact List.mem_append.mp member
    rcases either with old | new
    · exact sound.past.2 m old
    · exact sound.past.1 m (handed m new)
  · intro e' member
    obtain ⟨e, there, same, either⟩ := before e' member
    simp only [counts, same]
    rcases either with ⟨outside, rfl⟩ | ⟨inside, _, retries⟩
    · rw [if_neg fun both => outside both.2]
      exact sound.retries e' there
    · rw [retries, sound.retries e there]
      simp only [inside, and_true]
  · intro started m after below
    rcases sound.missing started m after below with there | ⟨e, member, rfl⟩ | excused
    · exact Or.inl there
    · refine Or.inr ?_
      by_cases inside : e.seqNum ∈ batch
      · cases left : NackRequester.sentOne now successful e with
        | some e' =>
          refine Or.inl ⟨e', List.mem_filterMap.mpr ⟨e, member, ?_⟩, NackRequester.sentOne_seqNum left⟩
          rw [if_pos inside, left]
        | none =>
          obtain ⟨success, many⟩ := NackRequester.sentOne_none left
          refine Or.inr (Or.inr (Or.inr (Or.inl ?_)))
          simp only [counts]
          rw [if_pos ⟨success, inside⟩, ← sound.retries e member]
          exact many
      · refine Or.inl ⟨e, List.mem_filterMap.mpr ⟨e, member, ?_⟩, rfl⟩
        rw [if_neg inside]
    · refine Or.inr (Or.inr ?_)
      rcases excused with cleared | aged | exhausted | dropped
      · exact Or.inl cleared
      · exact Or.inr (Or.inl aged)
      · refine Or.inr (Or.inr (Or.inl ?_))
        simp only [counts]
        exact exhausted.trans (Nat.le_add_right _ _)
      · exact Or.inr (Or.inr (Or.inr dropped))

theorem Sound.clear {x : Int} (near : Near 16 x s.nack.newestSeqNum)
    (above : ∀ m ∈ s.nack.recoveredList, s.nack.newestSeqNum < m → Near 16 m x ∧ x < m) :
    (s.apply (.clearUpTo x)).Sound := by
  have listed := List.dropWhile_sublist (fun e : NackInfo => !aheadOf (seq e.seqNum) (seq x))
    (l := s.nack.nackList)
  refine ⟨?_, ⟨?_, ?_⟩, ?_, ?_, ?_, ?_, sound.once, ?_, sound.past, ?_, ?_, sound.overflow⟩
  · intro blank
    obtain ⟨received, list, recovered, rest⟩ := sound.blank blank
    refine ⟨received, ?_, ?_, rest⟩
    · show s.nack.nackList.dropWhile _ = []
      rw [list]
      rfl
    · show s.nack.recoveredList.dropWhile _ = []
      rw [recovered]
      rfl
  · exact sound.ordered.sorted.sublist listed
  · exact fun e member => sound.ordered.range e (listed.subset member)
  · exact fun e member => sound.listed e (listed.subset member)
  · exact fun m member => sound.recovered m ((List.dropWhile_sublist _).subset member)
  · intro m member after
    have there := sound.ahead m member after
    obtain ⟨close, beyond⟩ := above m there after
    exact NackRequester.clearUpTo_recovered there close beyond
  · exact listed.length_le.trans sound.bounded
  · exact fun e member => sound.idle e (listed.subset member)
  · exact fun e member => sound.retries e (listed.subset member)
  · intro started m after before
    rcases sound.missing started m after before with there | ⟨e, member, rfl⟩ | excused
    · exact Or.inl there
    · refine Or.inr ?_
      by_cases beyond : x < e.seqNum
      · exact Or.inl ⟨e, NackRequester.clearUpTo_kept sound.ordered near member beyond, rfl⟩
      · refine Or.inr (Or.inl ⟨(x, s.nack.newestSeqNum), ?_, not_lt.mp beyond, before⟩)
        exact List.mem_append_right _ List.mem_cons_self
    · refine Or.inr (Or.inr (excused.imp_left ?_))
      rintro ⟨c, called, rest⟩
      exact ⟨c, List.mem_append_left _ called, rest⟩

theorem Sound.consume : (s.apply .consumeKeyFrameRequest).Sound :=
  ⟨sound.blank, ⟨sound.ordered.sorted, sound.ordered.range⟩, sound.listed, sound.recovered, sound.ahead,
    sound.bounded, sound.once, sound.idle, sound.past, sound.retries, sound.missing,
    fun impossible => (nomatch impossible)⟩

omit sound in
/-- A call that returns no batch, when the requester it leaves is known. -/
theorem Sound.hand_eq {n : NackRequester} {result : List Int × NackRequester} (returns : result = ([], n))
    (after : ({ s with nack := n } : NackSession).Sound) :
    (s.hand result).Sound ∧ ∀ m ∈ (s.hand result).returned, m ∉ s.received := by
  rw [returns]
  exact ⟨after.hand_nothing, fun m member => absurd member List.not_mem_nil⟩

/-- A packet keeps what holds, and its batch is of numbers that did not arrive. -/
theorem Sound.receive {x : Int} {isRecovered : Bool} {wait : Nat} {now : Int}
    (admits : s.Admits (.onReceivedPacket x isRecovered wait now))
    (meets : s.Meets (.onReceivedPacket x isRecovered wait now)) :
    (s.apply (.onReceivedPacket x isRecovered wait now)).Sound ∧
      ∀ m ∈ (s.apply (.onReceivedPacket x isRecovered wait now)).returned, m ∉ x :: s.received := by
  cases started : s.nack.initialized with
  | false =>
    exact Sound.hand_eq (NackRequester.onReceivedPacket_first started x isRecovered wait now)
      (sound.arrive_first started x isRecovered)
  | true =>
    have near : Near 16 x s.nack.newestSeqNum := admits started
    rcases lt_trichotomy x s.nack.newestSeqNum with older | same | newer
    · obtain ⟨rttMs, hasRttSample, returns⟩ :=
        NackRequester.onReceivedPacket_old started near sound.ordered older isRecovered wait now
      exact Sound.hand_eq returns (sound.arrive_old started isRecovered older.le rttMs hasRttSample)
    · have all : (s.nack.nackList.filter fun e => e.seqNum ≠ x) = s.nack.nackList := by
        refine List.filter_eq_self.mpr fun e member => decide_eq_true ?_
        rw [same]
        exact (sound.ordered.range e member).2.ne
      have kept := sound.arrive_old started isRecovered same.le s.nack.rttMs s.nack.hasRttSample
      rw [all] at kept
      exact Sound.hand_eq (NackRequester.onReceivedPacket_again started same isRecovered wait now) kept
    · cases isRecovered with
      | true =>
        obtain ⟨list, returns, newest, old, kept⟩ := NackRequester.onReceivedPacket_recovered started near newer
          wait now fun m member => ⟨(meets m member).1, (meets m member).2.2 rfl⟩
        exact Sound.hand_eq returns (sound.arrive_recovered started newest old kept newer)
      | false =>
        have added := sound.arrive_lost started near newer
          (fun r member => ⟨(meets r member).1, (meets r member).2.1⟩) wait now
        rw [apply, NackRequester.onReceivedPacket_lost started near newer]
        exact added.hand .seqNumOnly now

/-- What a call keeps. -/
theorem Sound.apply {c : NackCall} (admits : s.Admits c) (meets : s.Meets c) :
    (s.apply c).Sound ∧ ∀ m ∈ (s.apply c).returned, m ∉ (s.apply c).received := by
  cases c with
  | onReceivedPacket x isRecovered wait now => exact sound.receive admits meets
  | processNacks now => exact sound.hand .timeOnly now
  | onNackBatchSent batch successful now =>
    exact ⟨sound.report admits.1 admits.2 meets successful now, fun m member => absurd member List.not_mem_nil⟩
  | clearUpTo x => exact ⟨sound.clear meets.1 meets.2, fun m member => absurd member List.not_mem_nil⟩
  | consumeKeyFrameRequest => exact ⟨sound.consume, fun m member => absurd member List.not_mem_nil⟩

end Calls

theorem Sound.start {s : NackSession} (start : Start s) : s.Sound := by
  rw [start]
  have nothing : ∀ (α : Type) (holds : α → Prop), ∀ a ∈ ([] : List α), holds a :=
    fun _ _ a member => absurd member List.not_mem_nil
  exact ⟨fun _ => ⟨rfl, rfl, rfl, rfl, rfl⟩, ⟨List.Pairwise.nil, nothing _ _⟩, nothing _ _, nothing _ _, nothing _ _,
    Nat.zero_le _, List.nodup_nil, nothing _ _, ⟨nothing _ _, nothing _ _⟩, nothing _ _,
    fun impossible => (nomatch impossible), fun impossible => (nomatch impossible)⟩

/-- In every run in which no recovered number is forgotten while it is ahead of the newest one, what
is asked for is missing and what is missing is asked for. -/
theorem nack_list_sound {s : NackSession} (reachable : Runs.Reachable Start
    (Runs.Guarded (fun s c => Admits s c ∧ Meets s c) fun s c t => s.apply c = t) s) : s.Right := by
  have holds : s.Sound ∧ ∀ m ∈ s.returned, m ∉ s.received := by
    induction reachable with
    | start first =>
      refine ⟨Sound.start first, ?_⟩
      rw [first]
      exact fun m member => absurd member List.not_mem_nil
    | next _ moved ih =>
      obtain ⟨c, ⟨admits, meets⟩, rfl⟩ := moved
      exact ih.1.apply admits meets
  obtain ⟨sound, returned⟩ := holds
  exact ⟨sound.listed, returned, sound.once, sound.bounded, sound.retries, sound.missing, sound.overflow⟩

theorem nack_list_sound_recovered : Right (([.onReceivedPacket 0 false 1 5, .onReceivedPacket 2 false 1 6,
    .processNacks 20000, .onNackBatchSent [1] true 20001, .onReceivedPacket 3 true 1 20002, .clearUpTo 2] :
    List NackCall).foldl apply {}) :=
  nack_list_sound ((Runs.Reachable.start blank_start).along _ (by decide))

/-- The packets of a keyframe are recovered before any packet behind it arrives. When it is delivered
the requester forgets them, and asks for them when the next packet arrives. -/
theorem recovered_packets_asked_for : ¬ ∀ s, Runs.Reachable Start
    (Runs.Guarded Admits fun s c t => s.apply c = t) s → s.Right := by
  intro all
  have asked : Runs.Reachable Start (Runs.Guarded Admits fun s c t => s.apply c = t)
      (([.onReceivedPacket 0 false 1 5, .onReceivedPacket 1 true 1 6, .onReceivedPacket 2 true 1 6, .clearUpTo 2,
        .onReceivedPacket 3 false 1 7] : List NackCall).foldl apply {}) :=
    (Runs.Reachable.start blank_start).along _ (by decide)
  exact (all _ asked).listed (NackRequester.newInfo 1 7 1) (by decide) (by decide)

end NackSession

end MiniRtc.Video
