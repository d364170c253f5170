import MiniRtc.Ice.PunchRuntime

/-! The replay window of a round and a memory without bounds.
The window knows 256 numbers up to the highest one by a set of bits and the digest of each. A memory
knows every number with the octets that came first. -/
namespace MiniRtc.Ice.Punch
open Wire

/-- The highest number, and the octets with which each number was accepted. -/
structure ReplayMemory where
  high : Nat := 0
  first : Nat → Option Bytes := fun _ => none

namespace ReplayMemory

def accept (m : ReplayMemory) (sequence : Nat) (packet : Bytes) : ReplayResult × ReplayMemory :=
  if sequence = 0 ∨ sequence + 256 ≤ m.high then (.tooOld, m)
  else
    match m.first sequence with
    | some b => (if packet = b then .duplicate else .conflict, m)
    | none => (.fresh, ⟨max m.high sequence, Function.update m.first sequence (some packet)⟩)

/-- A number that is known, too old or zero is not above the highest one. -/
theorem accept_high (m : ReplayMemory) (s : Nat) (packet : Bytes)
    (known : ∀ b, m.first s = some b → s ≤ m.high) : (m.accept s packet).2.high = max m.high s := by
  unfold accept
  split
  · rename_i old
    have below : s ≤ m.high := by omega
    exact (max_eq_left below).symm
  · cases first : m.first s with
    | some b => exact (max_eq_left (known b first)).symm
    | none => rfl

theorem accept_first (m : ReplayMemory) (s : Nat) (packet : Bytes) (t : Nat) (b : Bytes) :
    (m.accept s packet).2.first t = some b ↔
      m.first t = some b ∨ s = t ∧ packet = b ∧ (m.accept s packet).1 = .fresh := by
  unfold accept
  split
  · simp
  · cases first : m.first s with
    | some b' =>
      simp only
      split
      · simp
      · simp
    | none =>
      simp only [and_true]
      by_cases same : t = s
      · rw [same, Function.update_self, first]
        simp
      · rw [Function.update_of_ne same]
        simp [Ne.symm same]

theorem accept_tooOld (m : ReplayMemory) (s : Nat) (packet : Bytes) :
    (m.accept s packet).1 = .tooOld ↔ s = 0 ∨ s + 256 ≤ m.high := by
  unfold accept
  split
  · rename_i old
    exact ⟨fun _ => old, fun _ => rfl⟩
  · rename_i recent
    refine ⟨fun result => ?_, fun old => absurd old recent⟩
    cases first : m.first s with
    | some b =>
      rw [first] at result
      simp only at result
      split at result
      · cases result
      · cases result
    | none =>
      rw [first] at result
      cases result

end ReplayMemory

namespace ReplayWindow

/-- A window holds what a memory knows of the 256 highest numbers. -/
structure Holds (sha : Bytes → Block 32) (messages : Set Bytes) (w : ReplayWindow) (m : ReplayMemory) :
    Prop where
  high : w.high = m.high
  known : ∀ s b, m.first s = some b → 0 < s ∧ s ≤ m.high ∧ b ∈ messages
  seen : ∀ i < 256, w.seen.getLsbD i = true ↔ i < m.high ∧ (m.first (m.high - i)).isSome = true
  digests : ∀ s b, m.first s = some b → m.high < s + 256 → w.digests (s % 256) = sha b

section Accept

variable {sha : Bytes → Block 32} {messages : Set Bytes} {w : ReplayWindow} {m : ReplayMemory}

theorem holds_start : Holds sha messages {} {} := by
  refine ⟨rfl, ?_, ?_, ?_⟩
  · intro s b first
    cases first
  · intro i _
    constructor
    · intro bit
      cases BitVec.getLsbD_zero.symm.trans bit
    · rintro ⟨below, _⟩
      exact absurd below (Nat.not_lt_zero i)
  · intro s b first
    cases first

variable (holds : Holds sha messages w m) {s : Nat} {packet : Bytes}
include holds

theorem tooOld_iff : s = 0 ∨ s ≤ w.high ∧ 256 ≤ w.high - s ↔ s = 0 ∨ s + 256 ≤ m.high := by
  rw [holds.high]
  omega

/-- A new number is written over a slot that no number of the window uses. -/
theorem Holds.write {high : Nat} {seen : BitVec 256} (young : m.high ≤ high) (positive : 0 < s) (below : s ≤ high)
    (inside : high < s + 256) (came : packet ∈ messages)
    (bits : ∀ i < 256, seen.getLsbD i = true ↔
      i < high ∧ (high - i = s ∨ (m.first (high - i)).isSome = true)) :
    Holds sha messages
      ⟨high, seen, fun i => if i = s % 256 then sha packet else w.digests i⟩
      ⟨high, Function.update m.first s (some packet)⟩ := by
  refine ⟨rfl, ?_, ?_, ?_⟩
  · intro t b first
    change Function.update m.first s (some packet) t = some b at first
    by_cases same : t = s
    · rw [same, Function.update_self] at first
      cases first
      exact ⟨same ▸ positive, same ▸ below, came⟩
    · rw [Function.update_of_ne same] at first
      obtain ⟨nonzero, old, member⟩ := holds.known t b first
      exact ⟨nonzero, old.trans young, member⟩
  · intro i bound
    rw [bits i bound]
    refine and_congr_right fun _ => ?_
    by_cases same : high - i = s
    · simp only [same, true_or, Function.update_self, Option.isSome_some]
    · simp only [same, false_or, ne_eq, not_false_iff, Function.update_of_ne]
  · intro t b first young'
    change Function.update m.first s (some packet) t = some b at first
    change high < t + 256 at young'
    by_cases same : t = s
    · rw [same, Function.update_self] at first
      cases first
      simp only [same, if_true]
    · rw [Function.update_of_ne same] at first
      obtain ⟨_, old, _⟩ := holds.known t b first
      have other : t % 256 ≠ s % 256 := by omega
      simp only [other, if_false]
      exact holds.digests t b first (by omega)

/-- A number above the highest one. -/
theorem accept_newer (newer : m.high < s) (came : packet ∈ messages) :
    (w.accept s (sha packet)).1 = .fresh ∧ Holds sha messages (w.accept s (sha packet)).2
      ⟨max m.high s, Function.update m.first s (some packet)⟩ := by
  have recent : ¬ (s = 0 ∨ s ≤ w.high ∧ 256 ≤ w.high - s) := by
    rw [holds.high]
    omega
  have above : w.high < s := holds.high ▸ newer
  have highest : max m.high s = s := max_eq_right newer.le
  have shifted : ∀ i < 256, (if 256 ≤ s - w.high then 0 else w.seen <<< (s - w.high)).getLsbD i = true ↔
      s - m.high ≤ i ∧ i < s ∧ (m.first (s - i)).isSome = true := by
    intro i bound
    rw [holds.high]
    split
    · rename_i far
      constructor
      · intro bit
        cases BitVec.getLsbD_zero.symm.trans bit
      · rintro ⟨close, _⟩
        omega
    · rename_i close
      rw [BitVec.getLsbD_shiftLeft]
      simp only [Bool.and_eq_true, decide_eq_true_eq, Bool.not_eq_true', decide_eq_false_iff_not, bound, true_and]
      constructor
      · rintro ⟨reaches, bit⟩
        obtain ⟨low, known⟩ := (holds.seen _ (by omega)).mp bit
        have place : m.high - (i - (s - m.high)) = s - i := by omega
        rw [place] at known
        exact ⟨by omega, by omega, known⟩
      · rintro ⟨reaches, low, known⟩
        have place : m.high - (i - (s - m.high)) = s - i := by omega
        refine ⟨by omega, (holds.seen _ (by omega)).mpr ⟨by omega, ?_⟩⟩
        rw [place]
        exact known
  have unset : (if 256 ≤ s - w.high then 0 else w.seen <<< (s - w.high)).getLsbD 0 = false := by
    refine Bool.eq_false_of_not_eq_true fun bit => ?_
    have reaches := ((shifted 0 (by decide)).mp bit).1
    omega
  have made : w.accept s (sha packet) = (.fresh, ⟨s,
      (if 256 ≤ s - w.high then 0 else w.seen <<< (s - w.high)) ||| BitVec.twoPow 256 0,
      fun i => if i = s % 256 then sha packet else w.digests i⟩) := by
    rw [accept, if_neg recent]
    simp only [if_pos above, Nat.sub_self, unset, Bool.false_eq_true, if_false]
  rw [made, highest]
  refine ⟨rfl, holds.write newer.le (by omega) le_rfl (by omega) came ?_⟩
  intro i bound
  rw [BitVec.getLsbD_or, Bool.or_eq_true, shifted i bound, BitVec.getLsbD_twoPow]
  simp only [Bool.and_eq_true, decide_eq_true_eq]
  constructor
  · rintro (⟨_, low, known⟩ | ⟨_, zero⟩)
    · exact ⟨low, Or.inr known⟩
    · exact ⟨by omega, Or.inl (by omega)⟩
  · rintro ⟨low, here | known⟩
    · exact Or.inr ⟨by decide, by omega⟩
    · obtain ⟨b, first⟩ := Option.isSome_iff_exists.mp known
      have old := (holds.known _ b first).2.1
      exact Or.inl ⟨by omega, low, known⟩

/-- A number of the window. -/
theorem accept_inside (inside : m.high < s + 256) (positive : 0 < s) (below : s ≤ m.high)
    (apart : Set.InjOn sha messages) (came : packet ∈ messages) :
    (w.accept s (sha packet)).1 = (m.accept s packet).1 ∧
      Holds sha messages (w.accept s (sha packet)).2 (m.accept s packet).2 := by
  have recent : ¬ (s = 0 ∨ s ≤ w.high ∧ 256 ≤ w.high - s) := by
    rw [holds.high]
    omega
  have young : ¬ (s = 0 ∨ s + 256 ≤ m.high) := by omega
  have known : ¬ w.high < s := holds.high ▸ not_lt.mpr below
  have place : w.high - (w.high - s) = s := by
    rw [holds.high]
    omega
  have bit := holds.seen (w.high - s) (by rw [holds.high]; omega)
  rw [← holds.high, place] at bit
  rw [ReplayMemory.accept, if_neg young]
  cases first : m.first s with
  | some b =>
    have set : w.seen.getLsbD (w.high - s) = true := by
      rw [bit, first]
      exact ⟨by rw [holds.high]; omega, rfl⟩
    have made : w.accept s (sha packet) =
        (if sha packet = w.digests (s % 256) then .duplicate else .conflict, w) := by
      rw [accept, if_neg recent]
      simp only [if_neg known, set, if_true]
    have same : sha packet = sha b ↔ packet = b := apart.eq_iff came (holds.known s b first).2.2
    rw [made, holds.digests s b first inside]
    simp only [same]
    exact ⟨trivial, holds⟩
  | none =>
    have unset : w.seen.getLsbD (w.high - s) = false := by
      refine Bool.eq_false_of_not_eq_true fun set => ?_
      have there := (bit.mp set).2
      rw [first] at there
      cases there
    have made : w.accept s (sha packet) = (.fresh, ⟨w.high, w.seen ||| BitVec.twoPow 256 (w.high - s),
        fun i => if i = s % 256 then sha packet else w.digests i⟩) := by
      rw [accept, if_neg recent]
      simp only [if_neg known, unset, Bool.false_eq_true, if_false]
    rw [made, max_eq_left below, holds.high]
    refine ⟨rfl, holds.write le_rfl positive below inside came ?_⟩
    intro i bound
    rw [BitVec.getLsbD_or, Bool.or_eq_true, holds.seen i bound, BitVec.getLsbD_twoPow]
    simp only [Bool.and_eq_true, decide_eq_true_eq]
    constructor
    · rintro (⟨low, known⟩ | ⟨_, here⟩)
      · exact ⟨low, Or.inr known⟩
      · exact ⟨by omega, Or.inl (by omega)⟩
    · rintro ⟨low, here | known⟩
      · exact Or.inr ⟨by omega, by omega⟩
      · exact Or.inl ⟨low, known⟩

/-- The window gives the result of the memory. -/
theorem accept_eq (apart : Set.InjOn sha messages) (came : packet ∈ messages) :
    (w.accept s (sha packet)).1 = (m.accept s packet).1 ∧
      Holds sha messages (w.accept s (sha packet)).2 (m.accept s packet).2 := by
  by_cases old : s = 0 ∨ s + 256 ≤ m.high
  · rw [accept, if_pos ((tooOld_iff holds).mpr old), ReplayMemory.accept, if_pos old]
    exact ⟨rfl, holds⟩
  · by_cases newer : m.high < s
    · have blank : m.first s = none := by
        cases first : m.first s with
        | none => rfl
        | some b => exact absurd (holds.known s b first).2.1 (not_le.mpr newer)
      rw [ReplayMemory.accept, if_neg old, blank]
      exact accept_newer holds newer came
    · exact accept_inside holds (by omega) (by omega) (by omega) apart came

end Accept

/-! ### Histories -/

/-- A call of `Accept`. -/
abbrev Call := BitVec 32 × Bytes

variable (sha : Bytes → Block 32)

def after (calls : List Call) : ReplayWindow :=
  calls.foldl (fun w c => (w.accept c.1.toNat (sha c.2)).2) {}

/-- The result of a call after others. -/
def result (calls : List Call) (c : Call) : ReplayResult := ((after sha calls).accept c.1.toNat (sha c.2)).1

/-- Some call had the number and these octets and was fresh. -/
def Accepted (calls : List Call) (sequence : BitVec 32) (packet : Bytes) : Prop :=
  ∃ earlier later, calls = earlier ++ (sequence, packet) :: later ∧ result sha earlier (sequence, packet) = .fresh

/-- The highest number of all calls. -/
def highest (calls : List Call) : Nat := (calls.map fun c => c.1.toNat).foldr max 0

/-- What the window does with a call is what a memory of all accepted numbers does. -/
structure Remembers (calls : List Call) (c : Call) : Prop where
  tooOld : result sha calls c = .tooOld ↔ c.1 = 0 ∨ c.1.toNat + 256 ≤ highest calls
  fresh : result sha calls c = .fresh ↔ result sha calls c ≠ .tooOld ∧ ∀ b, ¬ Accepted sha calls c.1 b
  duplicate : result sha calls c = .duplicate ↔ result sha calls c ≠ .tooOld ∧ Accepted sha calls c.1 c.2
  conflict : result sha calls c = .conflict ↔
    result sha calls c ≠ .tooOld ∧ ∃ b, b ≠ c.2 ∧ Accepted sha calls c.1 b
  once : ∀ b b', Accepted sha calls c.1 b → Accepted sha calls c.1 b' → b = b'
  inert : result sha calls c = .tooOld ∨ result sha calls c = .conflict →
    ∀ later c', result sha (calls ++ c :: later) c' = result sha (calls ++ later) c'

variable {sha}

theorem after_concat (calls : List Call) (c : Call) :
    after sha (calls ++ [c]) = ((after sha calls).accept c.1.toNat (sha c.2)).2 := by
  rw [after, List.foldl_append, List.foldl_cons, List.foldl_nil]
  rfl

theorem accepted_concat (calls : List Call) (c : Call) (sequence : BitVec 32) (packet : Bytes) :
    Accepted sha (calls ++ [c]) sequence packet ↔
      Accepted sha calls sequence packet ∨ c = (sequence, packet) ∧ result sha calls c = .fresh := by
  constructor
  · rintro ⟨earlier, later, split, fresh⟩
    rcases List.eq_nil_or_concat later with rfl | ⟨later, last, rfl⟩
    · obtain ⟨same, rfl⟩ := List.append_singleton_inj.mp split
      rw [← same] at fresh
      exact Or.inr ⟨rfl, fresh⟩
    · rw [List.concat_eq_append, ← List.cons_append, ← List.append_assoc] at split
      obtain ⟨same, _⟩ := List.append_singleton_inj.mp split
      exact Or.inl ⟨earlier, later, same, fresh⟩
  · rintro (⟨earlier, later, rfl, fresh⟩ | ⟨rfl, fresh⟩)
    · exact ⟨earlier, later ++ [c], by rw [List.append_assoc, List.cons_append], fresh⟩
    · exact ⟨calls, [], rfl, fresh⟩

theorem highest_concat (calls : List Call) (c : Call) :
    highest (calls ++ [c]) = max (highest calls) c.1.toNat := by
  induction calls with
  | nil => simp [highest]
  | cons d rest ih =>
    unfold highest at ih ⊢
    rw [List.cons_append, List.map_cons, List.foldr_cons, ih, List.map_cons, List.foldr_cons, max_assoc]

/-- A memory that has seen the calls. -/
structure Recalls (sha : Bytes → Block 32) (calls : List Call) (m : ReplayMemory) : Prop where
  high : m.high = highest calls
  first : ∀ (sequence : BitVec 32) packet, m.first sequence.toNat = some packet ↔ Accepted sha calls sequence packet

/-- The window after some calls, and a memory that has seen them. -/
theorem exists_memory {messages : Set Bytes} (apart : Set.InjOn sha messages) (calls : List Call)
    (came : ∀ c ∈ calls, c.2 ∈ messages) :
    ∃ m, Holds sha messages (after sha calls) m ∧ Recalls sha calls m := by
  induction calls using List.reverseRecOn with
  | nil =>
    refine ⟨{}, holds_start, rfl, fun sequence packet => ⟨fun first => ?_, ?_⟩⟩
    · cases first
    · rintro ⟨earlier, later, split, _⟩
      cases List.append_ne_nil_of_right_ne_nil earlier (List.cons_ne_nil _ _) split.symm
  | append_singleton calls c ih =>
    obtain ⟨m, holds, recalls⟩ := ih fun d member => came d (List.mem_append_left _ member)
    obtain ⟨same, holds'⟩ := accept_eq (s := c.1.toNat) holds apart (came c List.mem_concat_self)
    refine ⟨_, after_concat calls c ▸ holds', ?_, ?_⟩
    · rw [m.accept_high c.1.toNat c.2 fun b first => (holds.known _ b first).2.1, recalls.high, highest_concat]
    · intro sequence packet
      rw [m.accept_first, accepted_concat, recalls.first, ← same]
      refine or_congr_right ⟨?_, ?_⟩
      · rintro ⟨number, rfl, fresh⟩
        exact ⟨Prod.ext (BitVec.eq_of_toNat_eq number) rfl, fresh⟩
      · rintro ⟨rfl, fresh⟩
        exact ⟨rfl, rfl, fresh⟩

/-- What is too old or in conflict leaves the window as it is. -/
theorem accept_same {w : ReplayWindow} {m : ReplayMemory} {messages : Set Bytes} (holds : Holds sha messages w m)
    {s : Nat} {packet : Bytes} (came : packet ∈ messages)
    (inert : (w.accept s (sha packet)).1 = .tooOld ∨ (w.accept s (sha packet)).1 = .conflict) :
    (w.accept s (sha packet)).2 = w := by
  by_cases newer : w.high < s
  · rw [(accept_newer holds (holds.high ▸ newer) came).1] at inert
    rcases inert with impossible | impossible
    · cases impossible
    · cases impossible
  · unfold accept at inert ⊢
    simp only [if_neg newer] at inert ⊢
    split
    · rfl
    · rename_i recent
      rw [if_neg recent] at inert
      split
      · rfl
      · rename_i unset
        rw [if_neg unset] at inert
        rcases inert with impossible | impossible
        · cases impossible
        · cases impossible

/-- In every history without a collision of digests the window remembers. -/
theorem window_remembers (sha : Bytes → Block 32) (calls : List Call) (c : Call)
    (apart : Set.InjOn sha {b | b ∈ (calls ++ [c]).map Prod.snd}) : Remembers sha calls c := by
  have came : ∀ d ∈ calls ++ [c], d.2 ∈ {b | b ∈ (calls ++ [c]).map Prod.snd} := fun d member =>
    List.mem_map_of_mem member
  obtain ⟨m, holds, recalls⟩ := exists_memory apart calls fun d member => came d (List.mem_append_left _ member)
  have here := came c List.mem_concat_self
  have same : result sha calls c = (m.accept c.1.toNat c.2).1 := (accept_eq holds apart here).1
  have zero : c.1 = 0 ↔ c.1.toNat = 0 := ⟨fun equal => by rw [equal]; rfl, fun equal => BitVec.eq_of_toNat_eq equal⟩
  have old : result sha calls c = .tooOld ↔ c.1.toNat = 0 ∨ c.1.toNat + 256 ≤ m.high := by
    rw [same]
    exact m.accept_tooOld c.1.toNat c.2
  have knows : ∀ b, Accepted sha calls c.1 b ↔ m.first c.1.toNat = some b := fun b => (recalls.first c.1 b).symm
  have known : ∀ b, m.first c.1.toNat = some b → result sha calls c ≠ .tooOld →
      result sha calls c = if c.2 = b then .duplicate else .conflict := by
    intro b first recent
    rw [Ne, old] at recent
    rw [same, ReplayMemory.accept, if_neg recent, first]
  have unknown : m.first c.1.toNat = none → result sha calls c ≠ .tooOld → result sha calls c = .fresh := by
    intro first recent
    rw [Ne, old] at recent
    rw [same, ReplayMemory.accept, if_neg recent, first]
  refine ⟨?_, ⟨?_, ?_⟩, ⟨?_, ?_⟩, ⟨?_, ?_⟩, ?_, ?_⟩
  · rw [old, zero, recalls.high]
  · intro fresh
    have recent : result sha calls c ≠ .tooOld := by simp [fresh]
    refine ⟨recent, fun b accepted => ?_⟩
    have verdict := known b ((knows b).mp accepted) recent
    rw [fresh] at verdict
    split at verdict
    · cases verdict
    · cases verdict
  · rintro ⟨recent, nobody⟩
    cases first : m.first c.1.toNat with
    | none => exact unknown first recent
    | some b => exact absurd ((knows b).mpr first) (nobody b)
  · intro duplicate
    have recent : result sha calls c ≠ .tooOld := by simp [duplicate]
    refine ⟨recent, (knows c.2).mpr ?_⟩
    cases first : m.first c.1.toNat with
    | none =>
      have verdict := unknown first recent
      rw [duplicate] at verdict
      cases verdict
    | some b =>
      have verdict := known b first recent
      rw [duplicate] at verdict
      split at verdict
      · rename_i equal
        rw [equal]
      · cases verdict
  · rintro ⟨recent, accepted⟩
    have verdict := known c.2 ((knows c.2).mp accepted) recent
    rwa [if_pos rfl] at verdict
  · intro conflict
    have recent : result sha calls c ≠ .tooOld := by simp [conflict]
    cases first : m.first c.1.toNat with
    | none =>
      have verdict := unknown first recent
      rw [conflict] at verdict
      cases verdict
    | some b =>
      have verdict := known b first recent
      rw [conflict] at verdict
      split at verdict
      · cases verdict
      · rename_i other
        exact ⟨recent, b, Ne.symm other, (knows b).mpr first⟩
  · rintro ⟨recent, b, other, accepted⟩
    have verdict := known b ((knows b).mp accepted) recent
    rwa [if_neg (Ne.symm other)] at verdict
  · intro b b' accepted accepted'
    have first := (knows b).mp accepted
    rw [(knows b').mp accepted'] at first
    exact (Option.some.inj first).symm
  · intro inert later c'
    have stays : ((after sha calls).accept c.1.toNat (sha c.2)).2 = after sha calls := accept_same holds here inert
    have rest : after sha (calls ++ c :: later) = after sha (calls ++ later) := by
      simp only [after, List.foldl_append, List.foldl_cons]
      rw [show (List.foldl (fun w c => (accept w c.1.toNat (sha c.2)).2) {} calls) = after sha calls from rfl, stays]
    rw [result, rest, result]

/-- The digests of two packets of one octet. -/
def shaOfOctet (packet : Bytes) : Block 32 :=
  if packet = [1] then
    ⟨[75, 245, 18, 47, 52, 69, 84, 197, 59, 222, 46, 187, 140, 210, 183, 227, 209, 96, 10, 214, 49, 195, 133, 165,
      215, 204, 226, 60, 119, 133, 69, 154], rfl⟩
  else
    ⟨[219, 193, 180, 201, 0, 255, 228, 141, 87, 91, 93, 165, 198, 56, 4, 1, 37, 246, 93, 176, 254, 62, 36, 73, 75,
      118, 234, 152, 100, 87, 217, 134], rfl⟩

/-- A number comes again with other octets after the window has moved by its whole width. -/
theorem window_remembers_conflict :
    Remembers shaOfOctet [(300, [1]), (44, [1]), (45, [1])] (45, [2]) := by
  refine window_remembers shaOfOctet _ _ ?_
  have two : ∀ b ∈ ([[1], [1], [1], [2]] : List Bytes), b = [1] ∨ b = [2] := by decide
  intro b member b' member' same
  rcases two b member with rfl | rfl
  · rcases two b' member' with rfl | rfl
    · rfl
    · exact absurd (congrArg Block.octets same) (by decide)
  · rcases two b' member' with rfl | rfl
    · exact absurd (congrArg Block.octets same) (by decide)
    · rfl

end ReplayWindow

end MiniRtc.Ice.Punch
