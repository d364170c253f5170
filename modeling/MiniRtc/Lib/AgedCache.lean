import MiniRtc.Lib.SortedMap

/-! A cache of values that arrive at a time. Values leave it once they have been held for the window
or when the clock has gone back behind their arrival; a full cache gives up the value that arrived
first. -/
namespace AgedCache

variable {κ ν : Type*} [LinearOrder κ] (arrival : ν → Int)

/-- The value arrived within the window that ends now. -/
def isRecent (window now : Int) (v : ν) : Bool := arrival v ≤ now && now - arrival v < window

def expire (window now : Int) (m : SortedMap κ ν) : SortedMap κ ν :=
  ⟨m.entries.filter fun e => isRecent arrival window now e.2, m.sorted.filter _⟩

/-- The entry that arrived first, the first such one. -/
def oldest (m : SortedMap κ ν) : Option (κ × ν) := m.entries.minOn? fun e => arrival e.2

/-- Room for one more. -/
def evict (capacity : Nat) (m : SortedMap κ ν) : SortedMap κ ν :=
  if capacity ≤ m.entries.length then (oldest arrival m).elim m fun e => m.erase e.1 else m

/-- The cache is within its capacity and holds only values of the window. -/
structure Bounded (capacity : Nat) (window now : Int) (m : SortedMap κ ν) : Prop where
  size : m.entries.length ≤ capacity
  recent : ∀ e ∈ m.entries, now - window < arrival e.2 ∧ arrival e.2 ≤ now

/-- What a call may do to a cache: the oldest entry leaves where it is full, and an offered one is added where
its key is free. -/
inductive Changes (capacity : Nat) (offered : κ → ν → Prop) : SortedMap κ ν → SortedMap κ ν → Prop
  | refl (m : SortedMap κ ν) : Changes capacity offered m m
  | evict {m m' : SortedMap κ ν} {e : κ × ν} (full : capacity ≤ m.entries.length) (there : e ∈ m.entries)
      (first : ∀ d ∈ m.entries, arrival e.2 ≤ arrival d.2) (rest : Changes capacity offered (m.erase e.1) m') :
      Changes capacity offered m m'
  | add {m m' : SortedMap κ ν} {k : κ} {v : ν} (free : m.find k = none) (given : offered k v)
      (rest : Changes capacity offered (m.emplace k v) m') : Changes capacity offered m m'

variable {arrival} {capacity : Nat} {window now : Int} {m : SortedMap κ ν} {k : κ} {v : ν}

theorem isRecent_iff : isRecent arrival window now v = true ↔ now - window < arrival v ∧ arrival v ≤ now := by
  simp only [isRecent, Bool.and_eq_true, decide_eq_true_eq]
  omega

theorem mem_expire {e : κ × ν} :
    e ∈ (expire arrival window now m).entries ↔ e ∈ m.entries ∧ isRecent arrival window now e.2 = true :=
  List.mem_filter

theorem oldest_mem {e : κ × ν} (first : oldest arrival m = some e) : e ∈ m.entries := List.minOn?_mem first

theorem oldest_le {e d : κ × ν} (first : oldest arrival m = some e) (there : d ∈ m.entries) :
    arrival e.2 ≤ arrival d.2 := by
  have least := List.apply_get_minOn?_le_of_mem (f := fun e : κ × ν => arrival e.2) there
  have found : m.entries.minOn? (fun e : κ × ν => arrival e.2) = some e := first
  simpa only [found, Option.get_some] using least

theorem length_erase {e : κ × ν} (there : e ∈ m.entries) :
    (m.erase e.1).entries.length + 1 = m.entries.length := by
  have perm := SortedMap.erase_perm (SortedMap.find_eq_some.mpr there)
  simpa using perm.length_eq.symm

theorem mem_of_evict {e : κ × ν} (member : e ∈ (evict arrival capacity m).entries) : e ∈ m.entries := by
  unfold evict at member
  split at member
  · cases first : oldest arrival m with
    | none => simpa [first] using member
    | some d =>
      rw [first] at member
      exact (SortedMap.mem_erase.mp member).1
  · exact member

theorem length_evict (room : 0 < capacity) (size : m.entries.length ≤ capacity) :
    (evict arrival capacity m).entries.length < capacity := by
  unfold evict
  split
  · rename_i full
    cases first : oldest arrival m with
    | none =>
      have nothing : m.entries = [] := by
        by_contra some'
        exact absurd (List.isSome_minOn?_iff.mpr some') (by rw [← oldest, first]; exact Bool.false_ne_true)
      simp only [nothing, List.length_nil] at full
      omega
    | some e =>
      have shorter := length_erase (oldest_mem first)
      simp only [Option.elim_some]
      omega
  · omega

theorem length_emplace_le (m : SortedMap κ ν) (k : κ) (v : ν) :
    (m.emplace k v).entries.length ≤ m.entries.length + 1 := by
  cases there : m.find k with
  | none => exact (SortedMap.emplace_perm there).length_eq.le
  | some w =>
    rw [SortedMap.emplace_present there]
    omega

theorem mem_emplace {e : κ × ν} (member : e ∈ (m.emplace k v).entries) : e = (k, v) ∨ e ∈ m.entries :=
  SortedMap.mem_insertEntry member

namespace Bounded

theorem expire (small : m.entries.length ≤ capacity) :
    Bounded arrival capacity window now (AgedCache.expire arrival window now m) :=
  ⟨(List.length_filter_le _ _).trans small, fun _ member => isRecent_iff.mp (mem_expire.mp member).2⟩

/-- A value that arrives now is added where there is room. -/
theorem evict_emplace (bounded : Bounded arrival capacity window now m) (room : 0 < capacity) (open_ : 0 < window)
    (k : κ) (arrived : arrival v = now) :
    Bounded arrival capacity window now ((evict arrival capacity m).emplace k v) := by
  constructor
  · have shorter : (evict arrival capacity m).entries.length < capacity := length_evict room bounded.size
    have longer := length_emplace_le (evict arrival capacity m) k v
    omega
  · intro e member
    rcases mem_emplace member with rfl | member
    · dsimp only
      omega
    · exact bounded.recent e (mem_of_evict member)

end Bounded

namespace Changes

variable {offered : κ → ν → Prop} {m m' m'' : SortedMap κ ν}

theorem trans (first : Changes arrival capacity offered m m') (second : Changes arrival capacity offered m' m'') :
    Changes arrival capacity offered m m'' := by
  induction first with
  | refl m => exact second
  | evict full there first rest ih => exact .evict full there first (ih second)
  | add free given rest ih => exact .add free given (ih second)

theorem mono {offered' : κ → ν → Prop} (more : ∀ k v, offered k v → offered' k v)
    (changes : Changes arrival capacity offered m m') : Changes arrival capacity offered' m m' := by
  induction changes with
  | refl m => exact .refl m
  | evict full there first rest ih => exact .evict full there first ih
  | add free given rest ih => exact .add free (more _ _ given) ih

/-- One eviction, and one value that is added. -/
theorem evict_emplace (free : m.find k = none) (given : offered k v) :
    Changes arrival capacity offered m ((AgedCache.evict arrival capacity m).emplace k v) := by
  unfold AgedCache.evict
  split
  · rename_i full
    cases first : oldest arrival m with
    | none => exact .add free given (.refl _)
    | some e =>
      have absent : (m.erase e.1).find k = none := SortedMap.find_eq_none.mpr fun d member =>
        SortedMap.find_eq_none.mp free d (SortedMap.mem_erase.mp member).1
      exact .evict full (oldest_mem first) (fun d there => oldest_le first there) (.add absent given (.refl _))
  · exact .add free given (.refl _)

end Changes

end AgedCache
