import MiniRtc.Lib.Bytes
import MiniRtc.Lib.Runs

/-! The receiving end of a reliable data channel (data_channel_receive.cpp).
Two threads run `TryReceiveKcpData`: the network thread after every datagram, and the
timer thread every ten milliseconds. Each takes what is complete under `kcp_mutex_` and
hands it to the application after it has released the mutex. -/
namespace MiniRtc.Data
open Wire Runs

/-- The calls into KCP. `recv` gives its result and the octets that it wrote. -/
structure Kcp (σ : Type) where
  input : σ → Bytes → Int × σ
  check : σ → BitVec 32 → BitVec 32
  update : σ → BitVec 32 → σ
  peeksize : σ → Int
  recv : σ → Nat → Int × Bytes × σ

/-- Where a thread stands between two regions of the mutex. -/
inductive Thread where
  | idle
  | receiving
  | delivering (messages : List Bytes)
deriving DecidableEq, Repr

/-- Messages taken from KCP that the application has not seen. -/
def Thread.pending : Thread → List Bytes
  | .delivering messages => messages
  | _ => []

inductive Party where
  | network
  | timer
deriving DecidableEq, Repr

def Party.other : Party → Party
  | .network => .timer
  | .timer => .network

structure State (σ : Type) where
  kcp : σ
  delivered : List Bytes
  thread : Party → Thread

variable {σ : Type}

/-- The loop under the mutex in `TryReceiveKcpData`, or `none` if the turns do not suffice. -/
def Kcp.receiveAll (k : Kcp σ) : Nat → σ → Option (List Bytes × σ)
  | 0, _ => none
  | turns + 1, s =>
    let peekSize := k.peeksize s
    if peekSize < 0 then some ([], s)
    else
      let (recvLen, written, s) := k.recv s peekSize.toNat
      if recvLen ≤ 0 then some ([], s)
      else
        let buffer := overwrite (List.replicate peekSize.toNat 0) 0 written
        (k.receiveAll turns s).map fun (messages, s) => (buffer.take recvLen.toNat :: messages, s)

/-- The whole region: another update if anything came. -/
def Kcp.takeAll (k : Kcp σ) (turns : Nat) (s : σ) (now : BitVec 32) : Option (List Bytes × σ) :=
  (k.receiveAll turns s).map fun (messages, s) =>
    (messages, if messages = [] then s else k.update s now)

inductive Event where
  | elsewhere
  | input (data : Bytes) (now : BitVec 32)
  | tick (now : BitVec 32)
  | take (party : Party) (now : BitVec 32)
  | deliver (party : Party)
  | finish (party : Party)

def State.with (s : State σ) (party : Party) (thread : Thread) : State σ :=
  { s with thread := Function.update s.thread party thread }

/-- One region of the mutex, one call of `on_receive_data_`, or the return from a loop.
`elsewhere` is what happens to the association outside this endpoint. -/
inductive Step (k : Kcp σ) (elsewhere : σ → σ → Prop) : State σ → Event → State σ → Prop where
  | elsewhere {s kcp} (moved : elsewhere s.kcp kcp) : Step k elsewhere s .elsewhere { s with kcp }
  | refused {s data now} (idle : s.thread .network = .idle) (failed : (k.input s.kcp data).1 < 0) :
      Step k elsewhere s (.input data now) { s with kcp := (k.input s.kcp data).2 }
  | input {s data now} (idle : s.thread .network = .idle) (fed : ¬ (k.input s.kcp data).1 < 0) :
      Step k elsewhere s (.input data now)
        ({ s with kcp := k.update (k.input s.kcp data).2 now }.with .network .receiving)
  | tick {s now} (idle : s.thread .timer = .idle) :
      Step k elsewhere s (.tick now)
        ({ s with kcp := if k.check s.kcp now ≤ now then k.update s.kcp now else s.kcp }.with
          .timer .receiving)
  | take {s party now turns messages kcp} (ready : s.thread party = .receiving)
      (taken : k.takeAll turns s.kcp now = some (messages, kcp)) :
      Step k elsewhere s (.take party now) ({ s with kcp }.with party (.delivering messages))
  | deliver {s party message rest} (held : s.thread party = .delivering (message :: rest)) :
      Step k elsewhere s (.deliver party)
        ({ s with delivered := s.delivered ++ [message] }.with party (.delivering rest))
  | finish {s party} (done : s.thread party = .delivering []) :
      Step k elsewhere s (.finish party) (s.with party .idle)

/-- What KCP promises: the messages that were sent, in order, once each, whole, as soon as
they are complete. `sent` is the history of the sender, of which the first `ready` messages
are complete and the first `taken` have been handed out. -/
structure HandsOutInOrder (k : Kcp σ) (elsewhere : σ → σ → Prop) (sent : σ → List Bytes)
    (ready taken : σ → Nat) : Prop where
  ready_le : ∀ s, ready s ≤ (sent s).length
  taken_le : ∀ s, taken s ≤ ready s
  nonempty : ∀ s, ∀ m ∈ sent s, m ≠ []
  none : ∀ s, ready s ≤ taken s → k.peeksize s < 0
  some : ∀ s m, taken s < ready s → (sent s)[taken s]? = some m →
    k.peeksize s = m.length ∧ ∀ n, m.length ≤ n →
      (k.recv s n).1 = m.length ∧ (k.recv s n).2.1 = m ∧ sent (k.recv s n).2.2 = sent s ∧
        ready (k.recv s n).2.2 = ready s ∧ taken (k.recv s n).2.2 = taken s + 1
  input : ∀ s data, sent (k.input s data).2 = sent s ∧ taken (k.input s data).2 = taken s ∧
    ready s ≤ ready (k.input s data).2
  update : ∀ s now, sent (k.update s now) = sent s ∧ taken (k.update s now) = taken s ∧
    ready s ≤ ready (k.update s now)
  elsewhere : ∀ s t, elsewhere s t → sent s <+: sent t ∧ taken t = taken s ∧ ready s ≤ ready t

/-- A fresh channel: both threads idle, nothing taken, nothing delivered. -/
structure Initial (taken : σ → Nat) (s : State σ) : Prop where
  taken : taken s.kcp = 0
  delivered : s.delivered = []
  idle : ∀ party, s.thread party = .idle

/-- A thread that finds a complete message when it enters the region of `TryReceiveKcpData`
finds that the other one has delivered everything it took. -/
def Alone (k : Kcp σ) (s : State σ) : Event → Prop
  | .take party _ => 0 ≤ k.peeksize s.kcp → (s.thread party.other).pending = []
  | _ => True

section Delivery

variable {k : Kcp σ} {elsewhere : σ → σ → Prop} {sent : σ → List Bytes} {ready taken : σ → Nat}

/-- The loop takes exactly the complete messages that are left. -/
theorem receiveAll_spec (kcp : HandsOutInOrder k elsewhere sent ready taken) {turns : Nat} {s t : σ}
    {messages : List Bytes} (result : k.receiveAll turns s = some (messages, t)) :
    sent t = sent s ∧ ready t = ready s ∧ taken t = ready s ∧
      (sent s).take (ready s) = (sent s).take (taken s) ++ messages := by
  induction turns generalizing s messages with
  | zero => cases result
  | succ turns ih =>
    unfold Kcp.receiveAll at result
    by_cases more : taken s < ready s
    · obtain ⟨m, there⟩ : ∃ m, (sent s)[taken s]? = some m :=
        ⟨_, List.getElem?_eq_getElem (Nat.lt_of_lt_of_le more (kcp.ready_le s))⟩
      obtain ⟨size, received⟩ := kcp.some s m more there
      obtain ⟨length, content, sameSent, sameReady, nextTaken⟩ := received m.length (Nat.le_refl _)
      have some : 0 < m.length :=
        List.length_pos_iff.mpr (kcp.nonempty s m (List.mem_of_getElem? there))
      have buffer : (overwrite (List.replicate m.length 0) 0 m).take m.length = m := by
        simp [overwrite]
      simp only [size, Int.toNat_natCast] at result
      rw [if_neg (by omega)] at result
      simp only [length, content] at result
      rw [if_neg (by omega), Int.toNat_natCast, buffer] at result
      obtain ⟨⟨rest, u⟩, later, same⟩ := Option.map_eq_some_iff.mp result
      cases same
      obtain ⟨a, b, c, d⟩ := ih later
      rw [sameSent, sameReady, nextTaken, List.take_add_one, there] at d
      exact ⟨a.trans sameSent, b.trans sameReady, c.trans sameReady, by simpa using d⟩
    · have all : ready s = taken s := Nat.le_antisymm (by omega) (kcp.taken_le s)
      rw [if_pos (kcp.none s (by omega))] at result
      cases Option.some.inj result
      exact ⟨rfl, rfl, all.symm, by rw [all, List.append_nil]⟩

/-- The loop ends, whatever KCP holds. -/
theorem receiveAll_total (kcp : HandsOutInOrder k elsewhere sent ready taken) (turns : Nat) (s : σ)
    (enough : ready s - taken s < turns) : (k.receiveAll turns s).isSome := by
  induction turns generalizing s with
  | zero => omega
  | succ turns ih =>
    unfold Kcp.receiveAll
    by_cases more : taken s < ready s
    · obtain ⟨m, there⟩ : ∃ m, (sent s)[taken s]? = some m :=
        ⟨_, List.getElem?_eq_getElem (Nat.lt_of_lt_of_le more (kcp.ready_le s))⟩
      obtain ⟨size, received⟩ := kcp.some s m more there
      obtain ⟨length, _, _, sameReady, nextTaken⟩ := received m.length (Nat.le_refl _)
      have some : 0 < m.length :=
        List.length_pos_iff.mpr (kcp.nonempty s m (List.mem_of_getElem? there))
      simp only [size, Int.toNat_natCast]
      rw [if_neg (by omega)]
      simp only [length]
      rw [if_neg (by omega), Option.isSome_map]
      exact ih _ (by rw [sameReady, nextTaken]; omega)
    · rw [if_pos (kcp.none s (by omega))]
      rfl

theorem takeAll_spec (kcp : HandsOutInOrder k elsewhere sent ready taken) {turns : Nat} {s t : σ}
    {now : BitVec 32} {messages : List Bytes} (result : k.takeAll turns s now = some (messages, t)) :
    sent t = sent s ∧ (sent s).take (taken t) = (sent s).take (taken s) ++ messages ∧
      (messages ≠ [] → 0 ≤ k.peeksize s) := by
  obtain ⟨⟨messages', u⟩, loop, same⟩ := Option.map_eq_some_iff.mp result
  cases same
  obtain ⟨sameSent, _, all, content⟩ := receiveAll_spec kcp loop
  have found : messages ≠ [] → 0 ≤ k.peeksize s := by
    intro some
    by_contra negative
    apply some
    cases turns with
    | zero => cases loop
    | succ turns =>
      rw [Kcp.receiveAll] at loop
      simp only [if_pos (by omega : k.peeksize s < 0), Option.some.injEq, Prod.mk.injEq] at loop
      exact loop.1.symm
  by_cases empty : messages = []
  · simp only [empty, if_true] at *
    exact ⟨sameSent, by rw [all, content], by simp⟩
  · rw [if_neg empty]
    obtain ⟨a, b, _⟩ := kcp.update u now
    exact ⟨a.trans sameSent, by rw [b, all, content], found⟩

/-- What the threads hold, one of them at most, follows what was delivered. -/
structure InOrder (sent : σ → List Bytes) (taken : σ → Nat) (s : State σ) : Prop where
  single : (s.thread .network).pending = [] ∨ (s.thread .timer).pending = []
  content : s.delivered ++ (s.thread .network).pending ++ (s.thread .timer).pending =
    (sent s.kcp).take (taken s.kcp)

@[simp] theorem with_kcp (s : State σ) (party : Party) (thread : Thread) :
    (s.with party thread).kcp = s.kcp := rfl

@[simp] theorem with_delivered (s : State σ) (party : Party) (thread : Thread) :
    (s.with party thread).delivered = s.delivered := rfl

@[simp] theorem pending_delivering (messages : List Bytes) :
    (Thread.delivering messages).pending = messages := rfl

theorem with_thread (s : State σ) (party : Party) (thread : Thread) (p : Party) :
    (s.with party thread).thread p = if p = party then thread else s.thread p := by
  simp [State.with, Function.update_apply]

/-- Moving a thread that holds nothing to a place where it holds nothing, while KCP keeps
its history, changes nothing. -/
theorem InOrder.move {s : State σ} (order : InOrder sent taken s) (kcp : σ) (party : Party)
    (thread : Thread) (before : (s.thread party).pending = []) (after : thread.pending = [])
    (same : (sent kcp).take (taken kcp) = (sent s.kcp).take (taken s.kcp)) :
    InOrder sent taken ({ s with kcp }.with party thread) := by
  obtain ⟨single, content⟩ := order
  cases party with
  | network =>
    refine ⟨?_, ?_⟩
    · simp [with_thread, after]
    · simpa [with_thread, after, before, same] using content
  | timer =>
    refine ⟨?_, ?_⟩
    · simp [with_thread, after]
    · simpa [with_thread, after, before, same] using content

/-- Everything that is held is held by the thread that takes. -/
theorem InOrder.take {s : State σ} {kcp : σ} {messages : List Bytes} (order : InOrder sent taken s)
    (party : Party) (empty : (s.thread party).pending = [])
    (alone : messages ≠ [] → (s.thread party.other).pending = [])
    (more : (sent kcp).take (taken kcp) = (sent s.kcp).take (taken s.kcp) ++ messages) :
    InOrder sent taken ({ s with kcp }.with party (.delivering messages)) := by
  obtain ⟨single, content⟩ := order
  by_cases nothing : messages = []
  · subst nothing
    exact InOrder.move ⟨single, content⟩ kcp party _ empty rfl (by rw [more, List.append_nil])
  · have other := alone nothing
    cases party with
    | network =>
      simp only [Party.other] at other
      refine ⟨.inr (by simpa [with_thread] using other), ?_⟩
      simp only [empty, other, List.append_nil] at content
      simp [with_thread, other, more, content]
    | timer =>
      simp only [Party.other] at other
      refine ⟨.inl (by simpa [with_thread] using other), ?_⟩
      simp only [empty, other, List.append_nil] at content
      simp [with_thread, other, more, content]

theorem InOrder.deliver {s : State σ} {message : Bytes} {rest : List Bytes}
    (order : InOrder sent taken s) (party : Party)
    (held : s.thread party = .delivering (message :: rest)) :
    InOrder sent taken
      ({ s with delivered := s.delivered ++ [message] }.with party (.delivering rest)) := by
  obtain ⟨single, content⟩ := order
  have some : (s.thread party).pending = message :: rest := by rw [held]; rfl
  cases party with
  | network =>
    have other : (s.thread .timer).pending = [] := by simpa [some] using single
    refine ⟨.inr (by simpa [with_thread] using other), ?_⟩
    simp only [some, other] at content
    simp [with_thread, other, ← content]
  | timer =>
    have other : (s.thread .network).pending = [] := by simpa [some] using single
    refine ⟨.inl (by simpa [with_thread] using other), ?_⟩
    simp only [some, other] at content
    simp [with_thread, other, ← content]

theorem taken_le_sent (kcp : HandsOutInOrder k elsewhere sent ready taken) (s : σ) :
    taken s ≤ (sent s).length :=
  Nat.le_trans (kcp.taken_le s) (kcp.ready_le s)

theorem inOrder_step (kcp : HandsOutInOrder k elsewhere sent ready taken) {s t : State σ} {e : Event}
    (order : InOrder sent taken s) (alone : Alone k s e) (step : Step k elsewhere s e t) :
    InOrder sent taken t := by
  cases step with
  | elsewhere moved =>
    obtain ⟨⟨later, grown⟩, same, _⟩ := kcp.elsewhere _ _ moved
    refine ⟨order.single, ?_⟩
    rw [order.content, same, ← grown, List.take_append_of_le_length (taken_le_sent kcp s.kcp)]
  | @refused data now _ _ =>
    obtain ⟨sameSent, sameTaken, _⟩ := kcp.input s.kcp data
    exact ⟨order.single, by rw [order.content, sameSent, sameTaken]⟩
  | @input data now idle _ =>
    obtain ⟨sameSent, sameTaken, _⟩ := kcp.input s.kcp data
    obtain ⟨sameSent', sameTaken', _⟩ := kcp.update (k.input s.kcp data).2 now
    exact order.move _ .network _ (by rw [idle]; rfl) rfl
      (by rw [sameSent', sameTaken', sameSent, sameTaken])
  | @tick now idle =>
    obtain ⟨sameSent, sameTaken, _⟩ := kcp.update s.kcp now
    refine order.move _ .timer _ (by rw [idle]; rfl) rfl ?_
    split
    · rw [sameSent, sameTaken]
    · rfl
  | @take party now turns messages _ ready result =>
    obtain ⟨sameSent, content, found⟩ := takeAll_spec kcp result
    exact order.take party (by rw [ready]; rfl) (fun some => alone (found some))
      (by rw [sameSent, content])
  | @deliver party _ _ held => exact order.deliver party held
  | @finish party done => exact order.move s.kcp party .idle (by rw [done]; rfl) rfl rfl

end Delivery

/-- While no thread takes messages before the other has delivered its own, the application
has seen a prefix of what was sent. -/
theorem delivered_prefix_of_alone {k : Kcp σ} {elsewhere : σ → σ → Prop} {sent : σ → List Bytes}
    {ready taken : σ → Nat} (kcp : HandsOutInOrder k elsewhere sent ready taken) {s : State σ}
    (reachable : Reachable (Initial taken) (Guarded (Alone k) (Step k elsewhere)) s) :
    s.delivered <+: sent s.kcp := by
  have order : InOrder sent taken s := by
    refine reachable.invariant ?_ ?_
    · intro s fresh
      refine ⟨.inl ?_, ?_⟩
      · rw [fresh.idle]; rfl
      · simp [fresh.delivered, fresh.taken, fresh.idle, Thread.pending]
    · rintro s t order ⟨e, alone, step⟩
      exact inOrder_step kcp order alone step
  have taken := List.take_prefix (taken s.kcp) (sent s.kcp)
  rw [← order.content, List.append_assoc] at taken
  exact (List.prefix_append _ _).trans taken

/-! ### A queue in the place of KCP
Every datagram completes the next message. -/

structure Queue where
  sent : List Bytes
  ready : Nat
  taken : Nat
  nonempty : ∀ m ∈ sent, m ≠ []
  ready_le : ready ≤ sent.length
  taken_le : taken ≤ ready

namespace Queue

def input (q : Queue) : Queue :=
  if h : q.ready < q.sent.length then
    { q with ready := q.ready + 1, ready_le := h, taken_le := Nat.le_succ_of_le q.taken_le }
  else q

def peeksize (q : Queue) : Int :=
  if q.taken < q.ready then ((q.sent[q.taken]?).getD []).length else -1

def recv (q : Queue) (n : Nat) : Int × Bytes × Queue :=
  if h : q.taken < q.ready then
    if n < ((q.sent[q.taken]?).getD []).length then (-3, [], q)
    else (((q.sent[q.taken]?).getD []).length, (q.sent[q.taken]?).getD [],
      { q with taken := q.taken + 1, taken_le := h })
  else (-1, [], q)

def kcp : Kcp Queue where
  input q _ := (0, q.input)
  check _ now := now
  update q _ := q
  peeksize := peeksize
  recv := recv

theorem handsOutInOrder :
    HandsOutInOrder kcp (fun _ _ => False) Queue.sent Queue.ready Queue.taken where
  ready_le := Queue.ready_le
  taken_le := Queue.taken_le
  nonempty := Queue.nonempty
  none q all := by simp [kcp, peeksize, Nat.not_lt.mpr all]
  some q m more there := by
    refine ⟨by simp [kcp, peeksize, more, there], fun n fits => ?_⟩
    simp [kcp, recv, more, there, Nat.not_lt.mpr fits]
  input q data := by
    simp only [kcp, input]
    split <;> simp
  update q now := ⟨rfl, rfl, Nat.le_refl _⟩
  elsewhere q r impossible := impossible.elim

end Queue

def twoSent : Queue := ⟨[[1], [2]], 0, 0, by decide, by decide, by decide⟩

/-- Three turns of the loop are enough for the two messages. -/
theorem threeTurns {s : State Queue} {party : Party} {now : BitVec 32} {messages : List Bytes}
    {kcp : Queue} (ready : s.thread party = .receiving)
    (taken : Queue.kcp.takeAll 3 s.kcp now = some (messages, kcp)) :
    Step Queue.kcp (fun _ _ => False) s (.take party now)
      ({ s with kcp }.with party (.delivering messages)) :=
  .take ready taken

/-- The network thread takes and delivers the first message, and the timer has nothing to do. -/
theorem delivered_prefix_of_alone_network : ∃ s : State Queue,
    Reachable (Initial Queue.taken) (Guarded (Alone Queue.kcp) (Step Queue.kcp fun _ _ => False)) s ∧
      s.delivered = [[1]] ∧ s.delivered <+: s.kcp.sent := by
  have start : Reachable (Initial Queue.taken)
      (Guarded (Alone Queue.kcp) (Step Queue.kcp fun _ _ => False)) ⟨twoSent, [], fun _ => .idle⟩ :=
    .start ⟨rfl, rfl, fun _ => rfl⟩
  have fed := start.next ⟨.input [] 0, trivial, Step.input rfl (by decide)⟩
  have held := fed.next ⟨.take .network 0, fun _ => rfl, threeTurns rfl rfl⟩
  have seen := held.next ⟨.deliver .network, trivial, Step.deliver rfl⟩
  exact ⟨_, seen, rfl, delivered_prefix_of_alone Queue.handsOutInOrder seen⟩

/-- The timer takes the first message, the network thread the second one, and the network
thread is the first to deliver. -/
theorem delivered_out_of_order :
    ¬ ∀ (σ : Type) (k : Kcp σ) (elsewhere : σ → σ → Prop) (sent : σ → List Bytes)
      (ready taken : σ → Nat), HandsOutInOrder k elsewhere sent ready taken → ∀ s : State σ,
        Reachable (Initial taken) (Steps (Step k elsewhere)) s → s.delivered <+: sent s.kcp := by
  intro always
  have start : Reachable (Initial Queue.taken) (Steps (Step Queue.kcp fun _ _ => False))
      ⟨twoSent, [], fun _ => .idle⟩ := .start ⟨rfl, rfl, fun _ => rfl⟩
  have first := start.then (.input [] 0) (Step.input rfl (by decide))
  have awake := first.then (.tick 0) (Step.tick rfl)
  have timer := awake.then (.take .timer 0) (threeTurns rfl rfl)
  have nothing := timer.then (.take .network 0) (threeTurns rfl rfl)
  have idle := nothing.then (.finish .network) (Step.finish rfl)
  have second := idle.then (.input [] 0) (Step.input rfl (by decide))
  have network := second.then (.take .network 0) (threeTurns rfl rfl)
  have early := network.then (.deliver .network) (Step.deliver rfl)
  have ordered := always Queue Queue.kcp _ _ _ _ Queue.handsOutInOrder _ early
  revert ordered
  decide

end MiniRtc.Data
