import MiniRtc.Video.Assembly

/-! Reassembly of one frame.
The packets of a frame may come in any order, repeated and among packets of other
frames: the frame is complete exactly when its last missing packet arrives, and has
then the payloads of its packets in order. -/
namespace MiniRtc.Video
open Wire

/-- A frame as a packetizer numbers and marks it. -/
structure IsFrame {P : Type} (c : Codec P) (timestamp : BitVec 32) (start : BitVec 16)
    (packets : List P) : Prop where
  nonempty : packets ≠ []
  short : packets.length ≤ kMaxPacketsPerFrame
  stamp : ∀ p ∈ packets, c.timestamp p = timestamp
  number : ∀ i (h : i < packets.length), c.sequenceNumber packets[i] = sequenceNumberAt start i
  first : ∀ i (h : i < packets.length), c.isStart packets[i] = true ↔ i = 0
  last : ∀ i (h : i < packets.length), c.isEnd packets[i] = true ↔ i + 1 = packets.length

/-- A packet of another frame. -/
structure Foreign {P : Type} (c : Codec P) (packets : List P) (timestamp : BitVec 32) (p : P) :
    Prop where
  stamp : c.timestamp p ≠ timestamp
  number : ∀ q ∈ packets, c.sequenceNumber p ≠ c.sequenceNumber q

/-- Of the packets of a frame exactly those that arrived are held, with their marks. -/
structure Holds {P : Type} (timestamp : BitVec 32) (start : BitVec 16) (packets : List P)
    (a : Assembly P) (arrived : Nat → Prop) : Prop where
  incomplete : ∀ i (h : i < packets.length),
    arrived i ∧ a.incomplete (sequenceNumberAt start i) = some packets[i] ∨
      ¬ arrived i ∧ a.incomplete (sequenceNumberAt start i) = none
  starts : arrived 0 ∧ a.starts timestamp = some start ∨ ¬ arrived 0 ∧ a.starts timestamp = none
  ends : arrived (packets.length - 1) ∧
        a.ends timestamp = some (sequenceNumberAt start (packets.length - 1)) ∨
      ¬ arrived (packets.length - 1) ∧ a.ends timestamp = none

section Frame

variable {P : Type} {c : Codec P} {timestamp : BitVec 32} {start : BitVec 16} {packets : List P}
  {a : Assembly P} {arrived : Nat → Prop}

theorem holds_empty : Holds timestamp start packets {} (fun _ => False) where
  incomplete _ _ := .inr ⟨id, rfl⟩
  starts := .inr ⟨id, rfl⟩
  ends := .inr ⟨id, rfl⟩

theorem IsFrame.index_inj (frame : IsFrame c timestamp start packets) {i j : Nat}
    (hi : i < packets.length) (hj : j < packets.length)
    (same : sequenceNumberAt start i = sequenceNumberAt start j) : i = j := by
  have short := frame.short
  unfold kMaxPacketsPerFrame at short
  exact (sequenceNumberAt_inj (by omega) (by omega)).mp same

theorem Holds.store_mark (frame : IsFrame c timestamp start packets)
    (holds : Holds timestamp start packets a arrived) {i : Nat} (hi : i < packets.length) :
    Holds timestamp start packets ((a.store c packets[i]).mark c packets[i])
      (fun j => arrived j ∨ j = i) := by
  have stamp := frame.stamp packets[i] (List.getElem_mem hi)
  have number := frame.number i hi
  have positive : 0 < packets.length := by omega
  refine ⟨?_, ?_, ?_⟩
  · intro j hj
    show _ ∧ Function.update a.incomplete (c.sequenceNumber packets[i]) _ _ = _ ∨
      _ ∧ Function.update a.incomplete (c.sequenceNumber packets[i]) _ _ = _
    rw [number]
    by_cases same : j = i
    · subst same
      exact .inl ⟨.inr rfl, Function.update_self ..⟩
    · have other : sequenceNumberAt start j ≠ sequenceNumberAt start i :=
        fun equal => same (frame.index_inj hj hi equal)
      rw [Function.update_of_ne other]
      simpa [same] using holds.incomplete j hj
  · show _ ∧ (if c.isStart packets[i] then
      Function.update a.starts (c.timestamp packets[i]) (some (c.sequenceNumber packets[i]))
        else a.starts) timestamp = _ ∨ _ ∧ (if c.isStart packets[i] then
      Function.update a.starts (c.timestamp packets[i]) (some (c.sequenceNumber packets[i]))
        else a.starts) timestamp = _
    rw [stamp, number]
    by_cases same : i = 0
    · subst same
      rw [if_pos ((frame.first 0 positive).mpr rfl), Function.update_self, sequenceNumberAt_zero]
      exact .inl ⟨.inr rfl, rfl⟩
    · rw [if_neg (fun first => same ((frame.first i hi).mp first))]
      simpa [Ne.symm same] using holds.starts
  · show _ ∧ (if c.isEnd packets[i] then
      Function.update a.ends (c.timestamp packets[i]) (some (c.sequenceNumber packets[i]))
        else a.ends) timestamp = _ ∨ _ ∧ (if c.isEnd packets[i] then
      Function.update a.ends (c.timestamp packets[i]) (some (c.sequenceNumber packets[i]))
        else a.ends) timestamp = _
    rw [stamp, number]
    by_cases same : packets.length - 1 = i
    · subst same
      rw [if_pos ((frame.last _ hi).mpr (by omega)), Function.update_self]
      exact .inl ⟨.inr rfl, rfl⟩
    · rw [if_neg (fun last => same (by have := (frame.last i hi).mp last; omega))]
      simpa [same] using holds.ends

/-- With every packet there, the range is found and the walk gives the frame. -/
theorem Holds.range_collect (frame : IsFrame c timestamp start packets)
    (holds : Holds timestamp start packets a arrived) (all : ∀ i < packets.length, arrived i) :
    a.frameSequenceRange timestamp =
        some (start, sequenceNumberAt start (packets.length - 1), packets.length) ∧
      a.collect c timestamp packets.length start = some packets := by
  have positive : 0 < packets.length := List.length_pos_iff.mpr frame.nonempty
  have atStart : a.starts timestamp = some start := by
    rcases holds.starts with there | missing
    · exact there.2
    · exact absurd (all 0 positive) missing.1
  have atEnd : a.ends timestamp = some (sequenceNumberAt start (packets.length - 1)) := by
    rcases holds.ends with there | missing
    · exact there.2
    · exact absurd (all _ (by omega)) missing.1
  constructor
  · simp only [Assembly.frameSequenceRange, atStart, atEnd,
      framePacketCount_eq positive frame.short]
    rw [if_neg (by omega)]
  · refine collect_eq_some_iff.mpr ⟨rfl, ?_⟩
    intro i h
    refine ⟨?_, frame.stamp _ (List.getElem_mem h)⟩
    rcases holds.incomplete i h with there | missing
    · exact there.2
    · exact absurd (all i h) missing.1

/-- A successful walk for the timestamp has seen every packet of the frame. -/
theorem Holds.all_of_completed (frame : IsFrame c timestamp start packets)
    (holds : Holds timestamp start packets a arrived) {first last : BitVec 16} {found : List P}
    (atStart : a.starts timestamp = some first) (atEnd : a.ends timestamp = some last)
    (length : found.length = framePacketCount first last)
    (walk : ∀ i (h : i < found.length), a.incomplete (sequenceNumberAt first i) = some found[i]) :
    ∀ i < packets.length, arrived i := by
  have positive : 0 < packets.length := List.length_pos_iff.mpr frame.nonempty
  have sameStart : first = start := by
    rcases holds.starts with there | missing
    · exact Option.some.inj (atStart.symm.trans there.2)
    · rw [missing.2] at atStart
      cases atStart
  have sameEnd : last = sequenceNumberAt start (packets.length - 1) := by
    rcases holds.ends with there | missing
    · exact Option.some.inj (atEnd.symm.trans there.2)
    · rw [missing.2] at atEnd
      cases atEnd
  subst sameStart sameEnd
  rw [framePacketCount_eq positive frame.short] at length
  intro i h
  rcases holds.incomplete i h with there | missing
  · exact there.1
  · rw [walk i (by omega)] at missing
    cases missing.2

/-- A packet of the frame completes it exactly if no other is missing. -/
theorem Holds.process_own (frame : IsFrame c timestamp start packets)
    (holds : Holds timestamp start packets a arrived) {i : Nat} (hi : i < packets.length) :
    (∀ j < packets.length, arrived j ∨ j = i) ∧
        (a.process c packets[i]).2 = some (Assembly.assembled c timestamp
          (sequenceNumberAt start (packets.length - 1)) packets) ∧
        Holds timestamp start packets (a.process c packets[i]).1 (fun _ => False) ∨
      ¬ (∀ j < packets.length, arrived j ∨ j = i) ∧ (a.process c packets[i]).2 = none ∧
        Holds timestamp start packets (a.process c packets[i]).1 (fun j => arrived j ∨ j = i) := by
  have stamp := frame.stamp packets[i] (List.getElem_mem hi)
  have stored := holds.store_mark frame hi
  by_cases all : ∀ j < packets.length, arrived j ∨ j = i
  · refine .inl ⟨all, ?_⟩
    obtain ⟨range, walk⟩ := stored.range_collect frame all
    have done : a.process c packets[i] =
        ((((a.store c packets[i]).mark c packets[i]).erase start packets.length).clearFrameMarkers
          timestamp, some (Assembly.assembled c timestamp
            (sequenceNumberAt start (packets.length - 1)) packets)) := by
      simp only [Assembly.process, Assembly.checkFrameCompleted, stamp, range, walk]
    rw [done]
    refine ⟨rfl, ?_, ?_, ?_⟩
    · intro j hj
      refine .inr ⟨id, if_pos ?_⟩
      exact List.mem_map.mpr ⟨j, List.mem_range.mpr hj, rfl⟩
    · exact .inr ⟨id, Function.update_self ..⟩
    · exact .inr ⟨id, Function.update_self ..⟩
  · refine .inr ⟨all, ?_⟩
    have nothing : (a.process c packets[i]).2 = none := by
      cases completed : (a.process c packets[i]).2 with
      | none => rfl
      | some f =>
        obtain ⟨first, last, found, atStart, atEnd, _, length, walk, _⟩ :=
          checkFrameCompleted_eq_some completed
        rw [stamp] at atStart atEnd
        exact absurd (stored.all_of_completed frame atStart atEnd length fun i h => (walk i h).1) all
    refine ⟨nothing, ?_⟩
    rw [Assembly.process, checkFrameCompleted_eq_none nothing]
    exact stored

/-- A packet of another frame changes nothing of this one. -/
theorem Holds.process_foreign (frame : IsFrame c timestamp start packets)
    (holds : Holds timestamp start packets a arrived) {p : P} (foreign : Foreign c packets timestamp p) :
    Holds timestamp start packets (a.process c p).1 arrived ∧
      ∀ f, (a.process c p).2 = some f → f.timestamp ≠ timestamp := by
  have marked : Holds timestamp start packets ((a.store c p).mark c p) arrived := by
    refine ⟨?_, ?_, ?_⟩
    · intro i h
      have other : sequenceNumberAt start i ≠ c.sequenceNumber p := by
        rw [← frame.number i h]
        exact (foreign.number _ (List.getElem_mem h)).symm
      show _ ∧ Function.update a.incomplete _ _ _ = _ ∨ _ ∧ Function.update a.incomplete _ _ _ = _
      rw [Function.update_of_ne other]
      exact holds.incomplete i h
    · have same : ((a.store c p).mark c p).starts timestamp = a.starts timestamp := by
        show (if c.isStart p then Function.update a.starts (c.timestamp p) _ else a.starts) timestamp = _
        split
        · exact Function.update_of_ne (Ne.symm foreign.stamp) ..
        · rfl
      rw [same]
      exact holds.starts
    · have same : ((a.store c p).mark c p).ends timestamp = a.ends timestamp := by
        show (if c.isEnd p then Function.update a.ends (c.timestamp p) _ else a.ends) timestamp = _
        split
        · exact Function.update_of_ne (Ne.symm foreign.stamp) ..
        · rfl
      rw [same]
      exact holds.ends
  cases completed : (a.process c p).2 with
  | none =>
    refine ⟨?_, fun f impossible => by cases impossible⟩
    rw [Assembly.process, checkFrameCompleted_eq_none completed]
    exact marked
  | some f =>
    obtain ⟨first, last, found, _, _, _, length, walk, rfl, left⟩ :=
      checkFrameCompleted_eq_some completed
    refine ⟨?_, fun g same => by cases same; exact foreign.stamp⟩
    rw [Assembly.process, left]
    -- the erased range holds packets of the other timestamp alone
    have outside : ∀ i (h : i < packets.length),
        sequenceNumberAt start i ∉ (List.range found.length).map (sequenceNumberAt first) := by
      intro i h inside
      obtain ⟨j, hj, same⟩ := List.mem_map.mp inside
      obtain ⟨there, other⟩ := walk j (List.mem_range.mp hj)
      rw [same] at there
      rcases marked.incomplete i h with own | missing
      · have equal := Option.some.inj (own.2.symm.trans there)
        rw [← equal, frame.stamp _ (List.getElem_mem h)] at other
        exact foreign.stamp other.symm
      · rw [missing.2] at there
        cases there
    refine ⟨?_, ?_, ?_⟩
    · intro i h
      show _ ∧ (if _ then _ else _) = _ ∨ _ ∧ (if _ then _ else _) = _
      rw [if_neg (outside i h)]
      exact marked.incomplete i h
    · show _ ∧ Function.update _ _ _ _ = _ ∨ _ ∧ Function.update _ _ _ _ = _
      rw [Function.update_of_ne (Ne.symm foreign.stamp)]
      exact marked.starts
    · show _ ∧ Function.update _ _ _ _ = _ ∨ _ ∧ Function.update _ _ _ _ = _
      rw [Function.update_of_ne (Ne.symm foreign.stamp)]
      exact marked.ends

theorem Holds.congr {arrived' : Nat → Prop} (holds : Holds timestamp start packets a arrived)
    (nonempty : packets ≠ []) (same : ∀ i < packets.length, arrived i ↔ arrived' i) :
    Holds timestamp start packets a arrived' := by
  have positive : 0 < packets.length := List.length_pos_iff.mpr nonempty
  exact ⟨fun i h => by rw [← same i h]; exact holds.incomplete i h,
    by rw [← same 0 positive]; exact holds.starts,
    by rw [← same _ (by omega)]; exact holds.ends⟩

end Frame

/-! ### Runs
The packets may stand in their input in another form, some of which the assembly does
not see at all. -/

/-- The items that arrived since all of `own` were there for the last time. -/
def sinceComplete {Q : Type} [DecidableEq Q] (own : List Q) (input : List Q) : List Q :=
  input.foldl (fun arrived q =>
    if ∀ o ∈ own, o ∈ arrived ++ [q] then [] else arrived ++ [q]) []

/-- One item of the input. -/
def Assembly.accept {P Q : Type} (c : Codec P) (view : Q → Option P) (a : Assembly P) (q : Q) :
    Assembly P × Option CompleteFrame :=
  match view q with
  | none => (a, none)
  | some p => a.process c p

def Assembly.acceptAll {P Q : Type} (c : Codec P) (view : Q → Option P) (a : Assembly P)
    (input : List Q) : Assembly P :=
  input.foldl (fun a q => (a.accept c view q).1) a

/-- An item of the frame, or one that shows nothing of it. -/
def Known {P Q : Type} (c : Codec P) (view : Q → Option P) (own : List Q) (packets : List P)
    (timestamp : BitVec 32) (q : Q) : Prop :=
  q ∈ own ∨ q ∉ own ∧ ∀ p, view q = some p → Foreign c packets timestamp p

section Run

variable {P Q : Type} {c : Codec P} {view : Q → Option P} {timestamp : BitVec 32}
  {start : BitVec 16} {packets : List P} {own : List Q}

/-- The indices of the items in a list. -/
def indicesIn (own arrived : List Q) (i : Nat) : Prop := ∃ q ∈ arrived, own[i]? = some q

theorem all_indicesIn_iff {arrived : List Q} :
    (∀ i < own.length, indicesIn own arrived i) ↔ ∀ q ∈ own, q ∈ arrived := by
  constructor
  · intro all q member
    obtain ⟨i, h, rfl⟩ := List.mem_iff_getElem.mp member
    obtain ⟨q, there, same⟩ := all i h
    rw [List.getElem?_eq_getElem h] at same
    exact Option.some.inj same ▸ there
  · intro all i h
    exact ⟨own[i], all _ (List.getElem_mem h), List.getElem?_eq_getElem h⟩

theorem indicesIn_append {arrived : List Q} {q : Q} {i : Nat} (distinct : own.Nodup)
    (hi : i < own.length) (here : own[i] = q) (j : Nat) :
    indicesIn own arrived j ∨ j = i ↔ indicesIn own (arrived ++ [q]) j := by
  constructor
  · rintro (⟨o, there, same⟩ | rfl)
    · exact ⟨o, List.mem_append_left _ there, same⟩
    · exact ⟨q, by simp, by rw [List.getElem?_eq_getElem hi, here]⟩
  · rintro ⟨o, there, same⟩
    rcases List.mem_append.mp there with before | this
    · exact .inl ⟨o, before, same⟩
    · rw [List.mem_singleton.mp this] at same
      obtain ⟨hj, same⟩ := List.getElem?_eq_some_iff.mp same
      exact .inr ((List.Nodup.getElem_inj_iff distinct).mp (same.trans here.symm))

variable [DecidableEq Q]

/-- One item completes the frame exactly if it is the last one missing. -/
theorem Holds.accept (frame : IsFrame c timestamp start packets)
    (viewed : own.map view = packets.map some) (distinct : own.Nodup) {a : Assembly P}
    {arrived : List Q} (holds : Holds timestamp start packets a (indicesIn own arrived))
    (waiting : ¬ ∀ q ∈ own, q ∈ arrived) (q : Q) (known : Known c view own packets timestamp q) :
    Holds timestamp start packets (a.accept c view q).1
        (indicesIn own (if ∀ o ∈ own, o ∈ arrived ++ [q] then [] else arrived ++ [q])) ∧
      ((∃ f, (a.accept c view q).2 = some f ∧ f.timestamp = timestamp) ↔
        ∀ o ∈ own, o ∈ arrived ++ [q]) ∧
      ∀ f, (a.accept c view q).2 = some f → f.timestamp = timestamp →
        f = Assembly.assembled c timestamp (sequenceNumberAt start (packets.length - 1)) packets := by
  have sameLength : own.length = packets.length := by
    simpa using congrArg List.length viewed
  rcases known with member | ⟨stranger, foreign⟩
  · obtain ⟨i, hi, here⟩ := List.mem_iff_getElem.mp member
    have hi' : i < packets.length := sameLength ▸ hi
    have seen : view q = some packets[i] := by
      have at_i := congrArg (·[i]?) viewed
      simpa [List.getElem?_eq_getElem hi, List.getElem?_eq_getElem hi', here] using at_i
    have all_iff : (∀ j < packets.length, indicesIn own arrived j ∨ j = i) ↔
        ∀ o ∈ own, o ∈ arrived ++ [q] := by
      rw [← all_indicesIn_iff, sameLength]
      exact forall₂_congr fun j _ => indicesIn_append distinct hi here j
    have step : a.accept c view q = a.process c packets[i] := by
      simp only [Assembly.accept, seen]
    rw [step]
    rcases holds.process_own frame hi' with ⟨all, completed, held⟩ | ⟨missing, nothing, held⟩
    · rw [if_pos (all_iff.mp all)]
      refine ⟨held.congr frame.nonempty (by simp [indicesIn]), ⟨fun _ => all_iff.mp all,
        fun _ => ⟨_, completed, rfl⟩⟩, ?_⟩
      intro f same _
      exact Option.some.inj (same.symm.trans completed)
    · rw [if_neg (fun all => missing (all_iff.mpr all))]
      refine ⟨held.congr frame.nonempty fun j _ => indicesIn_append distinct hi here j,
        ⟨?_, fun all => absurd (all_iff.mpr all) missing⟩, ?_⟩
      · rintro ⟨f, completed, _⟩
        rw [nothing] at completed
        cases completed
      · intro f completed
        rw [nothing] at completed
        cases completed
  · have missing : ¬ ∀ o ∈ own, o ∈ arrived ++ [q] := by
      intro all
      apply waiting
      intro o member
      rcases List.mem_append.mp (all o member) with there | this
      · exact there
      · exact absurd (List.mem_singleton.mp this ▸ member) stranger
    have same : ∀ j < packets.length, indicesIn own arrived j ↔ indicesIn own (arrived ++ [q]) j := by
      intro j hj
      constructor
      · rintro ⟨o, there, at_j⟩
        exact ⟨o, List.mem_append_left _ there, at_j⟩
      · rintro ⟨o, there, at_j⟩
        rcases List.mem_append.mp there with before | this
        · exact ⟨o, before, at_j⟩
        · exact absurd (List.mem_singleton.mp this ▸ List.mem_of_getElem? at_j) stranger
    have step : Holds timestamp start packets (a.accept c view q).1 (indicesIn own arrived) ∧
        ∀ f, (a.accept c view q).2 = some f → f.timestamp ≠ timestamp := by
      unfold Assembly.accept
      cases seen : view q with
      | none => exact ⟨holds, fun f impossible => by cases impossible⟩
      | some p => exact holds.process_foreign frame (foreign p seen)
    rw [if_neg missing]
    refine ⟨step.1.congr frame.nonempty same, ⟨?_, fun all => absurd all missing⟩, ?_⟩
    · rintro ⟨f, completed, stamp⟩
      exact absurd stamp (step.2 f completed)
    · intro f completed stamp
      exact absurd stamp (step.2 f completed)

/-- Something is missing at every time. -/
theorem sinceComplete_waiting (nonempty : own ≠ []) (input : List Q) :
    ¬ ∀ q ∈ own, q ∈ sinceComplete own input := by
  have empty : ¬ ∀ q ∈ own, q ∈ ([] : List Q) := fun all =>
    nonempty (List.eq_nil_iff_forall_not_mem.mpr fun q member => by simpa using all q member)
  induction input using List.reverseRecOn with
  | nil => exact empty
  | append_singleton input q _ =>
    simp only [sinceComplete, List.foldl_append, List.foldl_cons, List.foldl_nil]
    split
    · exact empty
    · assumption

theorem holds_acceptAll (frame : IsFrame c timestamp start packets)
    (viewed : own.map view = packets.map some) (distinct : own.Nodup) (input : List Q)
    (known : ∀ q ∈ input, Known c view own packets timestamp q) :
    Holds timestamp start packets (Assembly.acceptAll c view {} input)
      (indicesIn own (sinceComplete own input)) := by
  have nonempty : own ≠ [] := by
    rintro rfl
    exact frame.nonempty (by simpa using viewed.symm)
  induction input using List.reverseRecOn with
  | nil => exact holds_empty.congr frame.nonempty (by simp [indicesIn, sinceComplete])
  | append_singleton input q ih =>
    have holds := ih fun o member => known o (List.mem_append_left _ member)
    simp only [Assembly.acceptAll, sinceComplete, List.foldl_append, List.foldl_cons, List.foldl_nil]
    exact (holds.accept frame viewed distinct (sinceComplete_waiting nonempty input) q
      (known q (by simp))).1

end Run

end MiniRtc.Video
