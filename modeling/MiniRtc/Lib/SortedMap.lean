import Mathlib

/-! `std::map`: entries in the order of their keys, no two of one key.
What an operation does to the entries is stated up to their order, so that a sum over all of
them changes by the entry in question. -/

structure SortedMap (κ ν : Type*) [LinearOrder κ] where
  entries : List (κ × ν)
  sorted : entries.Pairwise fun a b => a.1 < b.1

namespace SortedMap

variable {κ ν : Type*} [LinearOrder κ]

def empty : SortedMap κ ν := ⟨[], List.Pairwise.nil⟩

instance : Inhabited (SortedMap κ ν) := ⟨empty⟩

/-- The entry of `begin()`. -/
def first (m : SortedMap κ ν) : Option (κ × ν) := m.entries.head?

def find (m : SortedMap κ ν) (k : κ) : Option ν := (m.entries.find? fun e => e.1 = k).map Prod.snd

def insertEntry (k : κ) (v : ν) : List (κ × ν) → List (κ × ν)
  | [] => [(k, v)]
  | e :: rest =>
    if k < e.1 then (k, v) :: e :: rest
    else if e.1 = k then e :: rest
    else e :: insertEntry k v rest

theorem insertEntry_cons (k : κ) (v : ν) (e : κ × ν) (rest : List (κ × ν)) :
    insertEntry k v (e :: rest) =
      if k < e.1 then (k, v) :: e :: rest else if e.1 = k then e :: rest else e :: insertEntry k v rest := rfl

theorem mem_insertEntry {k : κ} {v : ν} {entries : List (κ × ν)} {e : κ × ν}
    (member : e ∈ insertEntry k v entries) : e = (k, v) ∨ e ∈ entries := by
  induction entries with
  | nil => exact .inl (List.mem_singleton.mp member)
  | cons d rest ih =>
    rw [insertEntry_cons] at member
    split at member
    · exact List.mem_cons.mp member
    · split at member
      · exact .inr member
      · rcases List.mem_cons.mp member with here | there
        · exact .inr (here ▸ List.mem_cons_self)
        · exact (ih there).imp_right (List.mem_cons_of_mem _)

theorem insertEntry_sorted (k : κ) (v : ν) {entries : List (κ × ν)}
    (sorted : entries.Pairwise fun a b => a.1 < b.1) :
    (insertEntry k v entries).Pairwise fun a b => a.1 < b.1 := by
  induction entries with
  | nil => exact List.pairwise_singleton _ _
  | cons d rest ih =>
    obtain ⟨low, rest_sorted⟩ := List.pairwise_cons.mp sorted
    rw [insertEntry_cons]
    split
    · rename_i less
      refine List.pairwise_cons.mpr ⟨?_, sorted⟩
      intro e member
      rcases List.mem_cons.mp member with rfl | later
      · exact less
      · exact less.trans (low e later)
    · rename_i notLess
      split
      · exact sorted
      · rename_i other
        refine List.pairwise_cons.mpr ⟨?_, ih rest_sorted⟩
        intro e member
        rcases mem_insertEntry member with rfl | later
        · exact lt_of_le_of_ne (not_lt.mp notLess) other
        · exact low e later

/-- `emplace`: a key that is there keeps its value. -/
def emplace (m : SortedMap κ ν) (k : κ) (v : ν) : SortedMap κ ν :=
  ⟨insertEntry k v m.entries, insertEntry_sorted k v m.sorted⟩

def erase (m : SortedMap κ ν) (k : κ) : SortedMap κ ν :=
  ⟨m.entries.filter fun e => e.1 ≠ k, m.sorted.filter _⟩

/-- The value of a key that is there becomes another one. -/
def update (m : SortedMap κ ν) (k : κ) (v : ν) : SortedMap κ ν where
  entries := m.entries.map fun e => if e.1 = k then (k, v) else e
  sorted := by
    refine m.sorted.map _ fun a b less => ?_
    split <;> split <;> simp_all

/-- An assignment to `operator[]`. -/
def assign (m : SortedMap κ ν) (k : κ) (v : ν) : SortedMap κ ν :=
  if (m.find k).isNone then m.emplace k v else m.update k v

/-- Every value becomes another one. -/
def mapValues {μ : Type*} (f : κ → ν → μ) (m : SortedMap κ ν) : SortedMap κ μ where
  entries := m.entries.map fun e => (e.1, f e.1 e.2)
  sorted := List.pairwise_map.mpr m.sorted

/-- The entries from `upper_bound(low)` up to `upper_bound(high)`. -/
def between (m : SortedMap κ ν) (low high : κ) : List (κ × ν) :=
  m.entries.filter fun e => low < e.1 && e.1 ≤ high

variable {m : SortedMap κ ν} {k : κ} {v : ν}

theorem eq_of_key {e d : κ × ν} (there : e ∈ m.entries) (member : d ∈ m.entries) (same : e.1 = d.1) :
    e = d := by
  have nodup : (m.entries.map Prod.fst).Nodup :=
    List.pairwise_map.mpr (m.sorted.imp fun less => less.ne)
  exact List.inj_on_of_nodup_map nodup there member same

theorem find_eq (m : SortedMap κ ν) (k : κ) : m.find k = (m.entries.find? fun e => e.1 = k).map Prod.snd := rfl

theorem entries_erase (m : SortedMap κ ν) (k : κ) : (m.erase k).entries = m.entries.filter fun e => e.1 ≠ k := rfl

theorem find_eq_some : m.find k = some v ↔ (k, v) ∈ m.entries := by
  constructor
  · intro found
    obtain ⟨e, there, rfl⟩ := Option.map_eq_some_iff.mp found
    have key : e.1 = k := by simpa using List.find?_some there
    exact key ▸ List.mem_of_find?_eq_some there
  · intro member
    cases found : m.entries.find? fun e => e.1 = k with
    | none =>
      have absent := List.find?_eq_none.mp found (k, v) member
      simp at absent
    | some e =>
      have key : e.1 = k := by simpa using List.find?_some found
      have same := eq_of_key (List.mem_of_find?_eq_some found) member key
      rw [find_eq, found, same]
      rfl

theorem find_eq_none : m.find k = none ↔ ∀ e ∈ m.entries, e.1 ≠ k := by
  rw [find_eq, Option.map_eq_none_iff, List.find?_eq_none]
  exact forall₂_congr fun e _ => not_congr decide_eq_true_iff

theorem first_mem {e : κ × ν} (first : m.first = some e) : e ∈ m.entries :=
  List.mem_of_head? first

theorem mem_erase {e : κ × ν} : e ∈ (m.erase k).entries ↔ e ∈ m.entries ∧ e.1 ≠ k := by
  simp [entries_erase]

theorem insertEntry_perm {entries : List (κ × ν)} (absent : ∀ e ∈ entries, e.1 ≠ k) :
    (insertEntry k v entries).Perm ((k, v) :: entries) := by
  induction entries with
  | nil => exact .refl _
  | cons d rest ih =>
    have other := absent d List.mem_cons_self
    rw [insertEntry_cons, if_neg other]
    split
    · exact .refl _
    · exact ((ih fun e member => absent e (List.mem_cons_of_mem _ member)).cons d).trans
        (.swap (k, v) d rest)

theorem emplace_perm (absent : m.find k = none) :
    (m.emplace k v).entries.Perm ((k, v) :: m.entries) :=
  insertEntry_perm (find_eq_none.mp absent)

theorem insertEntry_present {entries : List (κ × ν)} (sorted : entries.Pairwise fun a b => a.1 < b.1)
    {w : ν} (there : (k, w) ∈ entries) : insertEntry k v entries = entries := by
  induction entries with
  | nil => cases there
  | cons d rest ih =>
    obtain ⟨low, rest_sorted⟩ := List.pairwise_cons.mp sorted
    rw [insertEntry_cons]
    rcases List.mem_cons.mp there with rfl | later
    · rw [if_neg (lt_irrefl k), if_pos rfl]
    · have less : d.1 < k := low _ later
      rw [if_neg less.not_gt, if_neg less.ne, ih rest_sorted later]

theorem emplace_present {w : ν} (there : m.find k = some w) : (m.emplace k v).entries = m.entries :=
  insertEntry_present m.sorted (find_eq_some.mp there)

theorem erase_perm (there : m.find k = some v) :
    m.entries.Perm ((k, v) :: (m.erase k).entries) := by
  have member := find_eq_some.mp there
  have only : m.entries.filter (fun e => e.1 = k) = [(k, v)] := by
    have apart : (m.entries.filter fun e => e.1 = k).Pairwise fun a b => a.1 < b.1 := m.sorted.filter _
    have all : ∀ e ∈ m.entries.filter fun e => e.1 = k, e = (k, v) := by
      intro e inFilter
      obtain ⟨inEntries, key⟩ := List.mem_filter.mp inFilter
      exact eq_of_key inEntries member (by simpa using key)
    have inside : (k, v) ∈ m.entries.filter fun e => e.1 = k := List.mem_filter.mpr ⟨member, by simp⟩
    generalize m.entries.filter (fun e => e.1 = k) = found at apart all inside
    match found with
    | [] => cases inside
    | [e] => rw [all e List.mem_cons_self]
    | e :: d :: rest =>
      have less := (List.pairwise_cons.mp apart).1 d List.mem_cons_self
      rw [all e List.mem_cons_self, all d (List.mem_cons_of_mem _ List.mem_cons_self)] at less
      exact absurd less (lt_irrefl k)
  have parts := (List.filter_append_perm (fun e : κ × ν => decide (e.1 = k)) m.entries).symm
  rw [only] at parts
  simpa [entries_erase] using parts

theorem erase_absent (absent : m.find k = none) : (m.erase k).entries = m.entries := by
  simpa [entries_erase] using find_eq_none.mp absent

theorem update_perm {w : ν} (there : m.find k = some w) :
    (m.update k v).entries.Perm ((k, v) :: (m.erase k).entries) := by
  have mapped := (erase_perm there).map fun e : κ × ν => if e.1 = k then (k, v) else e
  have others : (m.erase k).entries.map (fun e : κ × ν => if e.1 = k then (k, v) else e) =
      (m.erase k).entries := by
    have same : ∀ e ∈ (m.erase k).entries, (if e.1 = k then (k, v) else e) = id e :=
      fun e member => if_neg (mem_erase.mp member).2
    rw [List.map_congr_left same, List.map_id]
  simpa [others, update] using mapped

theorem mem_update {w : ν} (there : m.find k = some w) {e : κ × ν} :
    e ∈ (m.update k v).entries ↔ e = (k, v) ∨ e ∈ m.entries ∧ e.1 ≠ k := by
  rw [(update_perm there).mem_iff, List.mem_cons, mem_erase]

/-- What does not tell the new value from the old one is the same of all entries. -/
theorem map_update {α : Type*} (g : κ × ν → α) {w : ν} (there : m.find k = some w) (same : g (k, v) = g (k, w)) :
    (m.update k v).entries.map g = m.entries.map g := by
  rw [update, List.map_map]
  refine List.map_congr_left fun e member => ?_
  simp only [Function.comp_apply]
  split
  · rename_i key
    rw [same, eq_of_key member (find_eq_some.mp there) key]
  · rfl

/-! ### Lookups after a change -/

theorem find_emplace (m : SortedMap κ ν) (k j : κ) (v : ν) :
    (m.emplace k v).find j = if m.find k = none ∧ j = k then some v else m.find j := by
  by_cases absent : m.find k = none
  · ext w
    rw [find_eq_some, (emplace_perm absent).mem_iff, List.mem_cons, Prod.mk.injEq]
    by_cases same : j = k
    · subst same
      have none : (j, w) ∉ m.entries := fun there => find_eq_none.mp absent _ there rfl
      rw [if_pos ⟨absent, rfl⟩]
      constructor
      · rintro (⟨-, rfl⟩ | there)
        · rfl
        · exact absurd there none
      · exact fun value => .inl ⟨rfl, (Option.some.inj value).symm⟩
    · rw [if_neg fun both => same both.2, find_eq_some]
      exact or_iff_right fun both => same both.1
  · obtain ⟨w, there⟩ := Option.ne_none_iff_exists'.mp absent
    rw [if_neg fun both => absent both.1, find_eq, find_eq, emplace_present there]

theorem find_update (m : SortedMap κ ν) (k j : κ) (v : ν) :
    (m.update k v).find j = if m.find k ≠ none ∧ j = k then some v else m.find j := by
  by_cases absent : m.find k = none
  · have same : (m.update k v).entries = m.entries := by
      have other : ∀ e ∈ m.entries, (if e.1 = k then (k, v) else e) = id e :=
        fun e there => if_neg (find_eq_none.mp absent e there)
      exact (List.map_congr_left other).trans (List.map_id _)
    rw [if_neg fun both => both.1 absent, find_eq, find_eq, same]
  · obtain ⟨u, there⟩ := Option.ne_none_iff_exists'.mp absent
    ext w
    rw [find_eq_some, (update_perm there).mem_iff, List.mem_cons, Prod.mk.injEq, mem_erase]
    by_cases same : j = k
    · subst same
      simp [absent, eq_comm]
    · simp [same, find_eq_some]

theorem find_mapValues {μ : Type*} (f : κ → ν → μ) (m : SortedMap κ ν) (k : κ) :
    (m.mapValues f).find k = (m.find k).map (f k) := by
  ext w
  rw [find_eq_some, mapValues, List.mem_map, Option.map_eq_some_iff]
  constructor
  · rintro ⟨e, there, same⟩
    obtain ⟨rfl, rfl⟩ := Prod.mk.inj same
    exact ⟨e.2, find_eq_some.mpr there, rfl⟩
  · rintro ⟨v, there, rfl⟩
    exact ⟨(k, v), find_eq_some.mp there, rfl⟩

theorem find_assign (m : SortedMap κ ν) (k j : κ) (v : ν) :
    (m.assign k v).find j = if j = k then some v else m.find j := by
  unfold assign
  split
  · rename_i absent
    simp [find_emplace, Option.isNone_iff_eq_none.mp absent]
  · rename_i present
    have there : m.find k ≠ none := fun absent => present (Option.isNone_iff_eq_none.mpr absent)
    simp [find_update, there]

/-- Maps with the same lookups are the same. -/
theorem ext_find {m m' : SortedMap κ ν} (same : ∀ k, m.find k = m'.find k) : m = m' := by
  have members : ∀ e, e ∈ m.entries ↔ e ∈ m'.entries := by
    rintro ⟨k, v⟩
    rw [← find_eq_some, same, find_eq_some]
  have nodup : ∀ m : SortedMap κ ν, m.entries.Nodup := fun m =>
    m.sorted.imp fun less same => absurd (same ▸ less) (lt_irrefl _)
  have perm : m.entries.Perm m'.entries := (List.perm_ext_iff_of_nodup (nodup m) (nodup m')).mpr members
  have entries : m.entries = m'.entries :=
    perm.eq_of_pairwise (fun a b _ _ less more => absurd (less.trans more) (lt_irrefl _)) m.sorted m'.sorted
  cases m
  cases m'
  cases entries
  rfl

/-- The entries of a list, assigned one after another. -/
def assignAll (m : SortedMap κ ν) (entries : List (κ × ν)) : SortedMap κ ν :=
  entries.foldl (fun m e => m.assign e.1 e.2) m

theorem find_assignAll {entries : List (κ × ν)} (distinct : (entries.map Prod.fst).Nodup)
    (m : SortedMap κ ν) (k : κ) (v : ν) : (m.assignAll entries).find k = some v ↔
      (k, v) ∈ entries ∨ (k ∉ entries.map Prod.fst ∧ m.find k = some v) := by
  induction entries generalizing m with
  | nil => simp [assignAll]
  | cons e rest ih =>
    obtain ⟨fresh, others⟩ := List.nodup_cons.mp distinct
    have assigned := ih others (m.assign e.1 e.2)
    rw [find_assign] at assigned
    rw [assignAll, List.foldl_cons]
    refine assigned.trans ?_
    by_cases same : k = e.1
    · subst same
      have absent : ∀ w, (e.1, w) ∉ rest := fun w there => fresh (List.mem_map.mpr ⟨_, there, rfl⟩)
      simp [fresh, absent, Prod.ext_iff, eq_comm]
    · simp [same, Prod.ext_iff]

/-- A map of entries with distinct keys is determined by them. -/
theorem assignAll_empty {entries : List (κ × ν)} (distinct : (entries.map Prod.fst).Nodup) (k : κ) (v : ν) :
    (empty.assignAll entries).find k = some v ↔ (k, v) ∈ entries := by
  rw [find_assignAll distinct]
  simp [empty, find_eq]

theorem assignAll_perm {entries entries' : List (κ × ν)} (distinct : (entries.map Prod.fst).Nodup)
    (perm : entries.Perm entries') : empty.assignAll entries = empty.assignAll entries' := by
  refine ext_find fun k => Option.ext fun v => ?_
  rw [assignAll_empty distinct, assignAll_empty ((perm.map Prod.fst).nodup_iff.mp distinct), perm.mem_iff]

/-- The map holds just the entries that were assigned. -/
theorem entries_assignAll {entries : List (κ × ν)} (distinct : (entries.map Prod.fst).Nodup) :
    (empty.assignAll entries).entries.Perm entries := by
  refine (List.perm_ext_iff_of_nodup ?_ ?_).mpr fun e => ?_
  · exact (empty.assignAll entries).sorted.imp fun less same => absurd (same ▸ less) (lt_irrefl _)
  · exact List.Nodup.of_map _ distinct
  · rw [← find_eq_some, assignAll_empty distinct]

/-! ### Sums over the entries -/

/-- The sum of what the entries weigh. -/
def total (weight : κ × ν → Int) (m : SortedMap κ ν) : Int := (m.entries.map weight).sum

theorem total_eq (weight : κ × ν → Int) (m : SortedMap κ ν) : m.total weight = (m.entries.map weight).sum := rfl

theorem total_emplace (weight : κ × ν → Int) (absent : m.find k = none) :
    (m.emplace k v).total weight = weight (k, v) + m.total weight := by
  have sums := ((emplace_perm (v := v) absent).map weight).sum_eq
  simpa [total_eq] using sums

theorem total_erase (weight : κ × ν → Int) (there : m.find k = some v) :
    m.total weight = weight (k, v) + (m.erase k).total weight := by
  have sums := ((erase_perm there).map weight).sum_eq
  simpa [total_eq] using sums

theorem total_update (weight : κ × ν → Int) {w : ν} (there : m.find k = some w) :
    (m.update k v).total weight + weight (k, w) = weight (k, v) + m.total weight := by
  have sums := ((update_perm (v := v) there).map weight).sum_eq
  rw [total_erase weight there]
  simp only [List.map_cons, List.sum_cons] at sums
  simp only [total_eq] at sums ⊢
  omega

theorem total_nonneg (weight : κ × ν → Int) (nonneg : ∀ e ∈ m.entries, 0 ≤ weight e) :
    0 ≤ m.total weight := by
  refine List.sum_nonneg fun x member => ?_
  obtain ⟨e, there, rfl⟩ := List.mem_map.mp member
  exact nonneg e there

theorem total_zero (weight : κ × ν → Int) (zero : ∀ e ∈ m.entries, weight e = 0) :
    m.total weight = 0 := by
  rw [total_eq, List.map_congr_left zero]
  simp

end SortedMap
