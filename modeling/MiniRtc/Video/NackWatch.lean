import MiniRtc.Video.Nack

/-! What the NACK list says about lost packets.
As long as the numbers that are alive lie within half their range, the list is ordered, and
every number above a watched one that is missing stands in it. -/
namespace MiniRtc.Video
open Wrapping

namespace NackRequester

/-- The numbers that the object compares. -/
def numbers (n : NackRequester) : List Int :=
  n.nackList.map NackInfo.seqNum ++ n.recoveredList ++ if n.initialized then [n.newestSeqNum] else []

structure Tracks (n : NackRequester) (received : List Int) : Prop where
  sorted : (n.nackList.map NackInfo.seqNum).Pairwise (· < ·)
  below : ∀ e ∈ n.nackList, n.initialized = true ∧ e.seqNum < n.newestSeqNum
  recovered : ∀ m ∈ n.recoveredList, m ∈ received

/-- Every number after `last` up to the newest one was received or is asked for. -/
def Watches (n : NackRequester) (received : List Int) (last : Int) : Prop :=
  ∀ m, last < m → m ≤ n.newestSeqNum → m ∈ received ∨ ∃ e ∈ n.nackList, e.seqNum = m

theorem Tracks.mono {n : NackRequester} {received more : List Int} (tracks : n.Tracks received)
    (subset : received ⊆ more) : n.Tracks more :=
  ⟨tracks.sorted, tracks.below, fun m member => subset (tracks.recovered m member)⟩

theorem Watches.mono {n : NackRequester} {received more : List Int} {last later : Int}
    (watches : n.Watches received last) (subset : received ⊆ more) (order : last ≤ later) :
    n.Watches more later := by
  intro m after before
  rcases watches m (by omega) before with there | asked
  · exact .inl (subset there)
  · exact .inr asked

section SameNumbers

variable {n n' : NackRequester} (list : n'.nackList.map NackInfo.seqNum = n.nackList.map NackInfo.seqNum)
  (newest : n'.newestSeqNum = n.newestSeqNum)

include list in
theorem mem_of_same_numbers {m : Int} : (∃ e ∈ n'.nackList, e.seqNum = m) ↔ ∃ e ∈ n.nackList, e.seqNum = m := by
  simp only [← List.mem_map, list]

include list newest

/-- Only the numbers matter. -/
theorem Tracks.of_same {received : List Int} (tracks : n.Tracks received)
    (recovered : n'.recoveredList = n.recoveredList) (initialized : n'.initialized = n.initialized) :
    n'.Tracks received := by
  refine ⟨list ▸ tracks.sorted, ?_, recovered ▸ tracks.recovered⟩
  intro e member
  obtain ⟨e', there, same⟩ := (mem_of_same_numbers list).mp ⟨e, member, rfl⟩
  rw [initialized, newest, ← same]
  exact tracks.below e' there

theorem Watches.of_same {received : List Int} {last : Int} (watches : n.Watches received last) :
    n'.Watches received last := by
  intro m after before
  rw [newest] at before
  rw [mem_of_same_numbers list]
  exact watches m after before

end SameNumbers

theorem getNackBatch_numbers (n : NackRequester) (options : NackFilterOptions) (now : Int) :
    (n.getNackBatch options now).2.nackList.map NackInfo.seqNum = n.nackList.map NackInfo.seqNum := by
  simp only [getNackBatch, List.map_map]
  apply List.map_congr_left
  intro e _
  simp only [Function.comp]
  split <;> rfl

/-! ### Adding losses -/

/-- A number behind all others goes to the end. -/
theorem insertOrAssign_last {α : Type} (number : α → Int) {x : α} {l : List α}
    (near : ∀ y ∈ l, Near 16 (number y) (number x)) (greater : ∀ y ∈ l, number y < number x) :
    insertOrAssign (fun y => seq (number y)) x l = l ++ [x] := by
  induction l with
  | nil => rfl
  | cons y rest ih =>
    have close := near y List.mem_cons_self
    have less := greater y List.mem_cons_self
    have different : seq (number y) ≠ seq (number x) := by
      intro same
      have := (ofInt_inj_of_near (by decide : 0 < 16) close).mp same
      omega
    have behind : aheadOf (seq (number y)) (seq (number x)) = false :=
      (aheadOf_ofInt_eq_false (by decide : 0 < 16) close).mpr (by omega)
    simp only [insertOrAssign, different, if_false, behind, Bool.false_eq_true, List.cons_append]
    rw [ih (fun z member => near z (List.mem_cons_of_mem _ member))
      (fun z member => greater z (List.mem_cons_of_mem _ member))]

/-- Increasing numbers behind all others are appended. -/
theorem foldl_insertOrAssign (make : Int → NackInfo) (number : ∀ m, (make m).seqNum = m) (missing : List Int) :
    ∀ list : List NackInfo, missing.Pairwise (· < ·) →
      (∀ e ∈ list, ∀ m ∈ missing, e.seqNum < m ∧ Near 16 e.seqNum m) →
      (∀ m ∈ missing, ∀ m' ∈ missing, Near 16 m m') →
      missing.foldl (fun list m => insertOrAssign (fun e => seq e.seqNum) (make m) list) list =
        list ++ missing.map make := by
  induction missing with
  | nil => intro list _ _ _; simp
  | cons m rest ih =>
    intro list increasing before near
    have place : insertOrAssign (fun e : NackInfo => seq e.seqNum) (make m) list = list ++ [make m] := by
      apply insertOrAssign_last NackInfo.seqNum
      · intro e member
        rw [number]
        exact (before e member m List.mem_cons_self).2
      · intro e member
        rw [number]
        exact (before e member m List.mem_cons_self).1
    simp only [List.foldl_cons, place]
    rw [ih (list ++ [make m]) (List.pairwise_cons.mp increasing).2 ?_ ?_]
    · simp
    · intro e member m' later
      rcases List.mem_append.mp member with old | new
      · exact before e old m' (List.mem_cons_of_mem _ later)
      · rw [List.mem_singleton.mp new, number]
        exact ⟨(List.pairwise_cons.mp increasing).1 m' later,
          near m List.mem_cons_self m' (List.mem_cons_of_mem _ later)⟩
    · intro x there y also
      exact near x (List.mem_cons_of_mem _ there) y (List.mem_cons_of_mem _ also)

/-- Without a wrap in between these are the numbers from `start` on below `last`. -/
theorem mem_numbersUntil {start last m : Int} (order : start ≤ last) (near : last - start < 2 ^ 15) :
    m ∈ numbersUntil start (seq last) ↔ start ≤ m ∧ m < last := by
  have count : ((seq last - seq start).toNat : Int) = last - start := by
    rw [toNat_ofInt_sub, Int.emod_eq_of_lt (by omega) (by norm_num at near ⊢; omega)]
  simp only [numbersUntil, List.mem_map, List.mem_range]
  constructor
  · rintro ⟨i, inside, rfl⟩
    omega
  · rintro ⟨after, before⟩
    exact ⟨(m - start).toNat, by omega, by omega⟩

theorem numbersUntil_increasing (start : Int) (last : BitVec 16) :
    (numbersUntil start last).Pairwise (· < ·) := by
  rw [numbersUntil, List.pairwise_map]
  exact List.pairwise_lt_range.imp fun {a b} less => by omega

theorem mem_insertOrAssign {α : Type} {number : α → BitVec 16} {x y : α} {l : List α}
    (member : y ∈ insertOrAssign number x l) : y = x ∨ y ∈ l := by
  induction l with
  | nil => exact .inl (List.mem_singleton.mp member)
  | cons z rest ih =>
    simp only [insertOrAssign] at member
    split at member
    · exact (List.mem_cons.mp member).imp_right (List.mem_cons_of_mem _)
    · split at member
      · exact List.mem_cons.mp member
      · rcases List.mem_cons.mp member with rfl | later
        · exact .inr List.mem_cons_self
        · exact (ih later).imp_right (List.mem_cons_of_mem _)

theorem updateRtt_eq (n : NackRequester) (ms : Int) :
    ∃ rttMs hasRttSample, n.updateRtt ms = { n with rttMs, hasRttSample } := by
  unfold updateRtt
  split
  · exact ⟨_, _, rfl⟩
  · split
    · exact ⟨_, n.hasRttSample, rfl⟩
    · exact ⟨_, _, rfl⟩

theorem sampleRtt_eq (n : NackRequester) (e : NackInfo) (isRecovered : Bool) (now : Int) :
    ∃ rttMs hasRttSample, n.sampleRtt e isRecovered now = { n with rttMs, hasRttSample } := by
  unfold sampleRtt
  split
  · split
    · exact updateRtt_eq ..
    · exact ⟨_, _, rfl⟩
  · exact ⟨_, _, rfl⟩

theorem mem_numbers_nack {n : NackRequester} (x : Int) {e : NackInfo} (member : e ∈ n.nackList) :
    e.seqNum ∈ x :: n.numbers := by
  simp only [numbers, List.mem_cons, List.mem_append, List.mem_map]
  exact .inr (.inl (.inl ⟨e, member, rfl⟩))

/-- A packet ahead of all others does not make the list forget a loss after `last`. -/
def NotAged (n : NackRequester) (x last : Int) : Prop :=
  n.newestSeqNum < x → ∀ e ∈ n.nackList, last < e.seqNum →
    aheadOf (seq x - kMaxPacketAge) (seq e.seqNum) = false

theorem mem_dropWhile_of_notAged {n : NackRequester} {x last : Int} {e : NackInfo}
    (newer : n.newestSeqNum < x) (notAged : n.NotAged x last) (member : e ∈ n.nackList)
    (after : last < e.seqNum) :
    e ∈ n.nackList.dropWhile fun e => aheadOf (seq x - kMaxPacketAge) (seq e.seqNum) := by
  have young := notAged newer e member after
  rw [← List.takeWhile_append_dropWhile
    (p := fun e : NackInfo => aheadOf (seq x - kMaxPacketAge) (seq e.seqNum)) (l := n.nackList)] at member
  rcases List.mem_append.mp member with dropped | kept
  · have aged := List.mem_takeWhile_imp dropped
    simp [young] at aged
  · exact kept

section OnReceivedPacket

variable {n : NackRequester} {received : List Int} {x : Int} (tracks : n.Tracks received)
  (arrived : x ∈ received) (window : ∀ a ∈ x :: n.numbers, ∀ b ∈ x :: n.numbers, Near 16 a b)
include tracks arrived window

/-- The new losses when a packet is ahead of all others. -/
theorem addPacketsToNack_spec (started : n.initialized = true) (newer : n.newestSeqNum < x) (wait : Nat)
    (now : Int) :
    let n' := { n.addPacketsToNack (n.newestSeqNum + 1) x wait now with newestSeqNum := x }
    n'.Tracks received ∧ n'.initialized = true ∧
      (n'.keyframeRequestPending = true ∨
        ∀ last, n.NotAged x last → n.Watches received last → n'.Watches received last) := by
  have newestNear : ∀ y ∈ x :: n.numbers, Near 16 n.newestSeqNum y :=
    window _ (by simp [numbers, started])
  have inside : ∀ m, m ∈ numbersUntil (n.newestSeqNum + 1) (seq x) ↔ n.newestSeqNum < m ∧ m < x := by
    intro m
    have close := (newestNear x List.mem_cons_self).2
    rw [mem_numbersUntil (by omega) (by norm_num at close ⊢; omega)]
    omega
  have between : ∀ m, n.newestSeqNum < m → m < x → ∀ y ∈ x :: n.numbers, Near 16 m y :=
    fun m after before y alive =>
      (newestNear y alive).between (window x List.mem_cons_self y alive) (by omega) (by omega)
  have young := List.dropWhile_sublist (fun e : NackInfo => aheadOf (seq x - kMaxPacketAge) (seq e.seqNum))
    (l := n.nackList)
  have kept := fun last (notAged : n.NotAged x last) e => mem_dropWhile_of_notAged newer notAged (e := e)
  intro n'
  simp only [n', addPacketsToNack]
  generalize n.nackList.dropWhile _ = list at young kept ⊢
  split
  · exact ⟨⟨List.Pairwise.nil, by simp, tracks.recovered⟩, started, .inl rfl⟩
  · have missing : ∀ m, m ∈ ((numbersUntil (n.newestSeqNum + 1) (seq x)).filter fun m =>
        ¬ seq m ∈ n.recoveredList.map seq) ↔
        (n.newestSeqNum < m ∧ m < x) ∧ ¬ seq m ∈ n.recoveredList.map seq := by
      intro m
      simp only [List.mem_filter, inside, decide_eq_true_eq]
    have increasing := (numbersUntil_increasing (n.newestSeqNum + 1) (seq x)).filter fun m =>
      ¬ seq m ∈ n.recoveredList.map seq
    have appended := foldl_insertOrAssign (fun m =>
        { seqNum := m, sendAtSeqNum := seq m + BitVec.ofNat 16 wait, createdAtTime := now })
      (fun _ => rfl) _ list increasing (by
        intro e member m new
        obtain ⟨⟨after, before⟩, _⟩ := (missing m).mp new
        have below := (tracks.below e (young.subset member)).2
        exact ⟨by omega, (between m after before _ (mem_numbers_nack x (young.subset member))).symm⟩) (by
        intro m new m' also
        obtain ⟨⟨after, before⟩, _⟩ := (missing m).mp new
        obtain ⟨⟨after', before'⟩, _⟩ := (missing m').mp also
        have gap := (newestNear x List.mem_cons_self).2
        exact ⟨by omega, by omega⟩)
    rw [appended]
    refine ⟨⟨?_, ?_, tracks.recovered⟩, started, .inr ?_⟩
    · simp only [List.map_append, List.map_map, Function.comp_def, List.map_id', List.pairwise_append]
      refine ⟨tracks.sorted.sublist (young.map _), increasing, ?_⟩
      intro a old m new
      obtain ⟨e, member, rfl⟩ := List.mem_map.mp old
      have below := (tracks.below e (young.subset member)).2
      have after := ((missing m).mp new).1.1
      omega
    · intro e member
      refine ⟨started, ?_⟩
      rcases List.mem_append.mp member with old | new
      · exact lt_trans (tracks.below e (young.subset old)).2 newer
      · obtain ⟨m, there, rfl⟩ := List.mem_map.mp new
        exact ((missing m).mp there).1.2
    · intro last notAged watches m after before
      by_cases seen : m ≤ n.newestSeqNum
      · rcases watches m after seen with there | ⟨e, member, rfl⟩
        · exact .inl there
        · exact .inr ⟨e, List.mem_append_left _ (kept last notAged e member after), rfl⟩
      · by_cases here : m = x
        · exact .inl (here ▸ arrived)
        · by_cases recovered : seq m ∈ n.recoveredList.map seq
          · obtain ⟨m', member, same⟩ := List.mem_map.mp recovered
            have alive' : m' ∈ x :: n.numbers := by simp [numbers, member]
            have equal := (ofInt_inj_of_near (by decide : 0 < 16)
              (between m (by omega) (lt_of_le_of_ne before here) m' alive').symm).mp same
            exact .inl (equal ▸ tracks.recovered m' member)
          · refine .inr ⟨_, List.mem_append_right _ (List.mem_map.mpr ⟨m, (missing m).mpr ?_, rfl⟩), rfl⟩
            exact ⟨⟨by omega, lt_of_le_of_ne before here⟩, recovered⟩

/-- An old packet only ends the search for itself. -/
theorem filter_spec :
    let n' := { n with nackList := n.nackList.filter fun e => seq e.seqNum ≠ seq x }
    n'.Tracks received ∧ ∀ last, n.Watches received last → n'.Watches received last := by
  refine ⟨⟨?_, ?_, tracks.recovered⟩, ?_⟩
  · exact tracks.sorted.sublist (List.Sublist.map _ List.filter_sublist)
  · intro e member
    exact tracks.below e (List.mem_filter.mp member).1
  · intro last watches m after before
    rcases watches m after before with there | ⟨e, member, same⟩
    · exact .inl there
    · by_cases here : seq e.seqNum = seq x
      · have equal := (ofInt_inj_of_near (by decide : 0 < 16)
          (window _ (mem_numbers_nack x member) x List.mem_cons_self)).mp here
        exact .inl (by rw [← same, equal]; exact arrived)
      · exact .inr ⟨e, List.mem_filter.mpr ⟨member, by simpa using here⟩, same⟩

/-- `OnReceivedPacket` keeps watching, unless its list runs over. -/
theorem onReceivedPacket_spec (isRecovered : Bool) (wait : Nat) (now : Int) :
    let n' := (n.onReceivedPacket x isRecovered wait now).2
    n'.Tracks received ∧ n'.initialized = true ∧ (n.initialized = true →
      (isRecovered = false ∧ n'.keyframeRequestPending = true) ∨
        ∀ last, (isRecovered = false → n.NotAged x last) → n.Watches received last →
          n'.Watches received last) := by
  have same : ∀ last, (isRecovered = false → n.NotAged x last) → n.Watches received last →
      n.Watches received last := fun _ _ watches => watches
  intro n'
  unfold n' onReceivedPacket
  cases started : n.initialized with
  | false =>
    refine ⟨⟨tracks.sorted, ?_, tracks.recovered⟩, rfl, by simp⟩
    intro e member
    have := (tracks.below e member).1
    rw [started] at this
    cases this
  | true =>
    have newest : n.newestSeqNum ∈ x :: n.numbers := by simp [numbers, started]
    have near := window _ newest x List.mem_cons_self
    simp only [Bool.not_true, Bool.false_eq_true, if_false]
    split
    · exact ⟨tracks, started, fun _ => .inr same⟩
    · rename_i different
      split
      · split
        · exact ⟨tracks, started, fun _ => .inr same⟩
        · rename_i e _
          obtain ⟨tracked, watched⟩ := filter_spec tracks arrived window
          obtain ⟨rttMs, hasRttSample, sampled⟩ := n.sampleRtt_eq e isRecovered now
          rw [sampled]
          exact ⟨⟨tracked.sorted, tracked.below, tracked.recovered⟩, started,
            fun _ => .inr fun last _ => watched last⟩
      · rename_i notOlder
        split
        · refine ⟨⟨tracks.sorted, fun e member => ⟨rfl, (tracks.below e member).2⟩, ?_⟩, rfl,
            fun _ => .inr same⟩
          intro m member
          have there := (List.dropWhile_sublist _).subset member
          split at there
          · exact tracks.recovered m there
          · rcases mem_insertOrAssign there with rfl | old
            · exact arrived
            · exact tracks.recovered m old
        · rename_i direct
          have direct : isRecovered = false := by simpa using direct
          have newer : n.newestSeqNum < x := by
            have order := (aheadOf_ofInt_eq_false (by decide : 0 < 16) near).mp (by simpa using notOlder)
            refine lt_of_le_of_ne order fun same => different ?_
            rw [same]
          obtain ⟨tracked, init, watched⟩ := addPacketsToNack_spec tracks arrived window started newer wait now
          have numbers := getNackBatch_numbers
            { n.addPacketsToNack (n.newestSeqNum + 1) x wait now with newestSeqNum := x } .seqNumOnly now
          refine ⟨tracked.of_same numbers rfl rfl rfl, init, fun _ => watched.imp ?_ ?_⟩
          · intro overflow
            exact ⟨direct, overflow⟩
          · intro kept last notAged watches
            exact (kept last (notAged direct) watches).of_same numbers rfl

end OnReceivedPacket

/-! ### The other operations -/

/-- No loss after `last` is asked for the last time. -/
def NotExhausted (n : NackRequester) (batch : List Int) (successful : Bool) (last : Int) : Prop :=
  ∀ e ∈ n.nackList, last < e.seqNum → seq e.seqNum ∈ batch.map seq → e.sendPending = true →
    successful = true → e.retries + 1 < kMaxNackRetries

theorem sentOne_seqNum {now : Int} {successful : Bool} {e e' : NackInfo}
    (sent : sentOne now successful e = some e') : e'.seqNum = e.seqNum := by
  unfold sentOne at sent
  split_ifs at sent
  all_goals
    cases sent
    rfl

theorem sentOne_some (now : Int) {successful : Bool} {e : NackInfo}
    (left : e.sendPending = true → successful = true → e.retries + 1 < kMaxNackRetries) :
    ∃ e', sentOne now successful e = some e' ∧ (e'.sendPending = true → e' = e) := by
  unfold sentOne
  cases pending : e.sendPending with
  | false => exact ⟨e, rfl, fun _ => rfl⟩
  | true =>
    cases successful with
    | false => exact ⟨_, rfl, by simp⟩
    | true =>
      have few := Nat.not_le.mpr (left pending rfl)
      simp only [Bool.not_true, Bool.false_eq_true, if_false, few]
      exact ⟨_, rfl, by simp⟩

/-- `OnNackBatchSent` for one number of the batch. -/
def sentFor (now : Int) (successful : Bool) (m : Int) (list : List NackInfo) : List NackInfo :=
  list.filterMap fun e => if seq e.seqNum = seq m then sentOne now successful e else some e

theorem sentFor_sublist (now : Int) (successful : Bool) (m : Int) (list : List NackInfo) :
    ((sentFor now successful m list).map NackInfo.seqNum).Sublist (list.map NackInfo.seqNum) := by
  induction list with
  | nil => exact .slnil
  | cons e rest ih =>
    unfold sentFor at ih ⊢
    rw [List.filterMap_cons]
    split
    · exact ih.cons _
    · rename_i e' sent
      have same : e'.seqNum = e.seqNum := by
        split at sent
        · exact sentOne_seqNum sent
        · cases sent
          rfl
      simp only [List.map_cons, same]
      exact ih.cons_cons _

theorem mem_sentFor (now : Int) {successful : Bool} (m : Int) {list : List NackInfo} {e : NackInfo}
    (member : e ∈ list) (left : seq e.seqNum = seq m → e.sendPending = true → successful = true →
      e.retries + 1 < kMaxNackRetries) :
    ∃ e' ∈ sentFor now successful m list, e'.seqNum = e.seqNum ∧ (e'.sendPending = true → e' = e) := by
  by_cases here : seq e.seqNum = seq m
  · obtain ⟨e', sent, unchanged⟩ := sentOne_some now (left here)
    exact ⟨e', List.mem_filterMap.mpr ⟨e, member, by simp [here, sent]⟩, sentOne_seqNum sent, unchanged⟩
  · exact ⟨e, List.mem_filterMap.mpr ⟨e, member, by simp [here]⟩, rfl, fun _ => rfl⟩

theorem onNackBatchSent_sublist (n : NackRequester) (batch : List Int) (successful : Bool) (now : Int) :
    ((n.onNackBatchSent batch successful now).nackList.map NackInfo.seqNum).Sublist
      (n.nackList.map NackInfo.seqNum) := by
  unfold onNackBatchSent
  simp only
  generalize n.nackList = list
  induction batch generalizing list with
  | nil => exact List.Sublist.refl _
  | cons m rest ih => exact (ih _).trans (sentFor_sublist now successful m list)

theorem onNackBatchSent_keeps {n : NackRequester} {batch : List Int} {successful : Bool} (now : Int)
    {e : NackInfo} (member : e ∈ n.nackList) (left : seq e.seqNum ∈ batch.map seq → e.sendPending = true →
      successful = true → e.retries + 1 < kMaxNackRetries) :
    ∃ e' ∈ (n.onNackBatchSent batch successful now).nackList, e'.seqNum = e.seqNum := by
  unfold onNackBatchSent
  simp only
  generalize n.nackList = list at member ⊢
  induction batch generalizing list e with
  | nil => exact ⟨e, member, rfl⟩
  | cons m rest ih =>
    obtain ⟨e', there, same, unchanged⟩ := mem_sentFor now m member fun here => left (by simp [here])
    have later : seq e'.seqNum ∈ rest.map seq → e'.sendPending = true → successful = true →
        e'.retries + 1 < kMaxNackRetries := by
      intro inBatch pending
      have equal := unchanged pending
      rw [equal] at inBatch pending ⊢
      exact left (List.mem_cons_of_mem _ inBatch) pending
    obtain ⟨e'', final, same'⟩ := ih later (sentFor now successful m list) there
    exact ⟨e'', final, same'.trans same⟩

theorem onNackBatchSent_spec {n : NackRequester} {received : List Int} (tracks : n.Tracks received)
    (batch : List Int) (successful : Bool) (now : Int) :
    (n.onNackBatchSent batch successful now).Tracks received ∧
      ∀ last, n.NotExhausted batch successful last → n.Watches received last →
        (n.onNackBatchSent batch successful now).Watches received last := by
  have fewer := n.onNackBatchSent_sublist batch successful now
  refine ⟨⟨tracks.sorted.sublist fewer, ?_, tracks.recovered⟩, ?_⟩
  · intro e member
    obtain ⟨e', there, same⟩ := List.mem_map.mp (fewer.subset (List.mem_map_of_mem member))
    exact same ▸ tracks.below e' there
  · intro last left watches m after before
    rcases watches m after before with there | ⟨e, member, rfl⟩
    · exact .inl there
    · exact .inr (onNackBatchSent_keeps now member (left e member after))

section Last

variable {n : NackRequester} {received : List Int} (tracks : n.Tracks received) {x : Int}
  (window : ∀ a ∈ x :: n.numbers, ∀ b ∈ x :: n.numbers, Near 16 a b)
include tracks window

/-- No number up to `x` is asked for if the oldest one is behind `x`. -/
theorem not_mem_of_not_pending (none : n.hasPendingNacksUpTo x = false) :
    ∀ e ∈ n.nackList, x < e.seqNum := by
  intro e member
  unfold hasPendingNacksUpTo at none
  have sorted := tracks.sorted
  cases list : n.nackList with
  | nil => simp [list] at member
  | cons first rest =>
    rw [list] at none member sorted
    have alive : first.seqNum ∈ x :: n.numbers := mem_numbers_nack x (list ▸ List.mem_cons_self)
    have oldest : x < first.seqNum :=
      (aheadOf_ofInt (by decide : 0 < 16) (window _ alive x List.mem_cons_self)).mp (by simpa using none)
    rcases List.mem_cons.mp member with rfl | later
    · exact oldest
    · have := (List.pairwise_cons.mp sorted).1 e.seqNum (List.mem_map_of_mem later)
      omega

/-- Losses after `x` are still looked for. -/
theorem clearUpTo_spec : (n.clearUpTo x).Tracks received ∧
    ∀ last, x ≤ last → n.Watches received last → (n.clearUpTo x).Watches received last := by
  have listed := List.dropWhile_sublist (fun e : NackInfo => !aheadOf (seq e.seqNum) (seq x)) (l := n.nackList)
  refine ⟨⟨tracks.sorted.sublist (listed.map _), fun e member => tracks.below e (listed.subset member), ?_⟩, ?_⟩
  · intro m member
    exact tracks.recovered m ((List.dropWhile_sublist _).subset member)
  · intro last order watches m after before
    rcases watches m after before with there | ⟨e, member, same⟩
    · exact .inl there
    · refine .inr ⟨e, ?_, same⟩
      have ahead : aheadOf (seq e.seqNum) (seq x) = true :=
        (aheadOf_ofInt (by decide : 0 < 16) (window _ (mem_numbers_nack x member) x
          List.mem_cons_self)).mpr (by omega)
      have split := List.takeWhile_append_dropWhile (p := fun e : NackInfo => !aheadOf (seq e.seqNum) (seq x))
        (l := n.nackList)
      rw [← split] at member
      rcases List.mem_append.mp member with dropped | kept
      · have := List.mem_takeWhile_imp dropped
        simp [ahead] at this
      · exact kept

end Last

end NackRequester

end MiniRtc.Video
