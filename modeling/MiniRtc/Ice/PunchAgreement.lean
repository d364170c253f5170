import MiniRtc.Ice.PunchHello

/-! What both sides agree to (punch_scheduler.cpp): a plan aims at the mappings of the two HELLOs, its
budget suits both sides, and either side computes it. -/
namespace MiniRtc.Ice.Punch
open Wire

/-! ### Numbers and fields -/

theorem number_cases {j : Json} {low high : Nat} (valid : number j low high = true) :
    ∃ v : BitVec 64, (j = .integer v ∨ j = .unsigned v) ∧ low ≤ v.toNat ∧ v.toNat ≤ high := by
  unfold number at valid
  split at valid
  · rename_i v
    simp only [Bool.and_eq_true, decide_eq_true_eq] at valid
    exact ⟨v, Or.inl rfl, valid.1.2, valid.2⟩
  · rename_i v
    simp only [Bool.and_eq_true, decide_eq_true_eq] at valid
    exact ⟨v, Or.inr rfl, valid⟩
  · exact absurd valid Bool.false_ne_true

theorem number_uint {j : Json} {low high : Nat} (valid : number j low high = true) (small : high < 2 ^ 32) :
    low ≤ j.uint ∧ j.uint ≤ high := by
  obtain ⟨v, form, least, most⟩ := number_cases valid
  have whole : v.toNat % 2 ^ 32 = v.toNat := Nat.mod_eq_of_lt (by omega)
  rcases form with rfl | rfl
  · simp only [Json.uint, whole]
    exact ⟨least, most⟩
  · simp only [Json.uint, whole]
    exact ⟨least, most⟩

theorem number_ofNat {n low high : Nat} (least : low ≤ n) (most : n ≤ high) (small : high < 2 ^ 64) :
    number (.unsigned (BitVec.ofNat 64 n)) low high = true := by
  have whole : n % 2 ^ 64 = n := Nat.mod_eq_of_lt (by omega)
  simp only [number, BitVec.toNat_ofNat, whole, Bool.and_eq_true, decide_eq_true_eq]
  exact ⟨least, most⟩

theorem uint_ofNat {n : Nat} (small : n < 2 ^ 32) : (Json.unsigned (BitVec.ofNat 64 n)).uint = n := by
  simp only [Json.uint, BitVec.toNat_ofNat]
  omega

variable {float : BitVec 64 → List Char}

theorem number_width {j : Json} {low high : Nat} (valid : number j low high = true) :
    Json.width (j.dump float) ≤ 20 := by
  obtain ⟨v, rfl | rfl, -⟩ := number_cases valid
  · exact Json.width_integer v
  · exact Json.width_unsigned v

theorem string_width {j : Json} {low high : Nat} (valid : string j low high = true) :
    Json.width (j.dump float) ≤ 2 + 6 * high := by
  unfold string at valid
  split at valid
  · rename_i s
    simp only [Bool.and_eq_true, decide_eq_true_eq] at valid
    have most := Json.width_dumpString s
    rw [Json.dump]
    omega
  · exact absurd valid Bool.false_ne_true

/-- An object with just these fields. -/
theorem fields_object {j : Json} {names : List String} (distinct : names.Nodup) (valid : fields j names = true) :
    ∃ entries, j = .object entries ∧ (entries.map Prod.fst).Perm names := by
  simp only [fields, Bool.and_eq_true, decide_eq_true_eq, List.all_eq_true] at valid
  obtain ⟨⟨object, size⟩, all⟩ := valid
  unfold Json.isObject at object
  split at object
  · rename_i entries
    refine ⟨entries, rfl, ?_⟩
    have inside : names ⊆ entries.map Prod.fst := by
      intro name member
      obtain ⟨value, found⟩ := Option.isSome_iff_exists.mp (all name member)
      simp only [Json.at?, Json.find, Option.map_eq_some_iff] at found
      obtain ⟨entry, here, -⟩ := found
      have key := List.find?_some here
      have same : entry.1 = name := of_decide_eq_true key
      rw [← same]
      exact List.mem_map_of_mem (List.mem_of_find?_eq_some here)
    have length : (entries.map Prod.fst).length ≤ names.length := by
      rw [List.length_map]
      exact size.le
    exact ((List.subperm_of_subset distinct inside).perm_of_length_le length).symm
  · exact absurd object Bool.false_ne_true

theorem find_none {entries : List (String × Json)} {name : String} (absent : name ∉ entries.map Prod.fst) :
    Json.find entries name = none := by
  rw [Json.find, Option.map_eq_none_iff, List.find?_eq_none]
  intro entry member same
  exact absent (of_decide_eq_true same ▸ List.mem_map_of_mem member)

theorem find_map {entries : List (String × Json)} (g : String × Json → Json) (name : String) :
    Json.find (entries.map fun f => (f.1, g f)) name =
      ((entries.find? fun f => decide (f.1 = name)).map fun f => g f) := by
  rw [Json.find, List.find?_map, Option.map_map]
  rfl

theorem find_key {entries : List (String × Json)} (distinct : (entries.map Prod.fst).Nodup) {entry : String × Json}
    (member : entry ∈ entries) : (entries.find? fun f => decide (f.1 = entry.1)) = some entry := by
  cases found : entries.find? fun f => decide (f.1 = entry.1) with
  | none => exact absurd (decide_eq_true rfl) (List.find?_eq_none.mp found entry member)
  | some other =>
    have key := List.find?_some found
    have same : other.1 = entry.1 := of_decide_eq_true key
    rw [List.inj_on_of_nodup_map distinct (List.mem_of_find?_eq_some found) member same]

/-! ### The budget -/

def budgetNames : List String := budgetNumbers.map Prod.fst

theorem budgetNames_nodup : budgetNames.Nodup := by decide

theorem budget_number {j : Json} (valid : budget j = true) {name : String} {low high : Nat}
    (member : (name, low, high) ∈ budgetNumbers) : number (j.item name) low high = true := by
  simp only [budget, Bool.and_eq_true, List.all_eq_true] at valid
  exact valid.2 _ member

theorem budget_fields {j : Json} (valid : budget j = true) : fields j budgetNames = true := by
  simp only [budget, Bool.and_eq_true] at valid
  exact valid.1

/-- The number that both sides agree to. -/
def agreedNumber (offer answer : Json) (name : String) : Nat :=
  if name = "ice_finish_reserve_ms" then max (offer.item name).uint (answer.item name).uint
  else min (offer.item name).uint (answer.item name).uint

theorem agreedNumber_comm (offer answer : Json) (name : String) :
    agreedNumber offer answer name = agreedNumber answer offer name := by
  rw [agreedNumber, agreedNumber, max_comm, min_comm]

/-- A merged budget, entry by entry. -/
theorem mergeBudget_item {offer answer : Json} (valid : budget offer = true) (name : String) :
    (mergeBudget offer answer).item name =
      if name ∈ budgetNames then .unsigned (BitVec.ofNat 64 (agreedNumber offer answer name)) else .null := by
  obtain ⟨entries, rfl, perm⟩ := fields_object budgetNames_nodup (budget_fields valid)
  have merged : (mergeBudget (.object entries) answer).item name =
      ((entries.find? fun f => decide (f.1 = name)).map fun f => Json.unsigned (BitVec.ofNat 64
        (if f.1 = "ice_finish_reserve_ms" then max f.2.uint (answer.item f.1).uint
          else min f.2.uint (answer.item f.1).uint))).getD .null := by
    rw [mergeBudget, Json.item, Json.at?]
    simp only
    rw [find_map (fun f => Json.unsigned (BitVec.ofNat 64 (if f.1 = "ice_finish_reserve_ms" then
      max f.2.uint (answer.item f.1).uint else min f.2.uint (answer.item f.1).uint)))]
  rw [merged]
  cases found : entries.find? fun f => decide (f.1 = name) with
  | none =>
    have absent : name ∉ budgetNames := by
      intro member
      obtain ⟨entry, inside, same⟩ := List.mem_map.mp (perm.mem_iff.mpr member)
      exact List.find?_eq_none.mp found entry inside (decide_eq_true same)
    rw [if_neg absent]
    rfl
  | some entry =>
    have key := List.find?_some found
    have same : entry.1 = name := of_decide_eq_true key
    have member : name ∈ budgetNames :=
      perm.mem_iff.mp (same ▸ List.mem_map_of_mem (List.mem_of_find?_eq_some found))
    have value : (Json.object entries).item name = entry.2 := by
      rw [Json.item, Json.at?, Json.find, found]
      rfl
    rw [if_pos member, agreedNumber, value, Option.map_some, Option.getD_some, same]

theorem numbers_small : ∀ entry ∈ budgetNumbers, entry.2.2 < 2 ^ 32 := by decide

theorem agreedNumber_mem {offer answer : Json} (valid : budget offer = true) (valid' : budget answer = true)
    {name : String} {low high : Nat} (member : (name, low, high) ∈ budgetNumbers) :
    low ≤ agreedNumber offer answer name ∧ agreedNumber offer answer name ≤ high := by
  have small : high < 2 ^ 32 := numbers_small _ member
  obtain ⟨least, most⟩ := number_uint (budget_number valid member) small
  obtain ⟨least', most'⟩ := number_uint (budget_number valid' member) small
  unfold agreedNumber
  split
  · exact ⟨least.trans (le_max_left _ _), max_le most most'⟩
  · exact ⟨le_min least least', (min_le_left _ _).trans most⟩

theorem mergeBudget_uint {offer answer : Json} (valid : budget offer = true) (valid' : budget answer = true)
    {name : String} {low high : Nat} (member : (name, low, high) ∈ budgetNumbers) :
    ((mergeBudget offer answer).item name).uint = agreedNumber offer answer name := by
  have inside : name ∈ budgetNames := List.mem_map_of_mem member
  have small : high < 2 ^ 32 := numbers_small _ member
  have most := (agreedNumber_mem valid valid' member).2
  rw [mergeBudget_item valid, if_pos inside]
  exact uint_ofNat (by omega)

/-- The merged budget satisfies the schema of a budget. -/
theorem mergeBudget_valid {offer answer : Json} (valid : budget offer = true) (valid' : budget answer = true) :
    budget (mergeBudget offer answer) = true := by
  obtain ⟨entries, rfl, perm⟩ := fields_object budgetNames_nodup (budget_fields valid)
  have items := @mergeBudget_item _ answer valid
  simp only [budget, Bool.and_eq_true, List.all_eq_true]
  constructor
  · simp only [fields, Bool.and_eq_true, decide_eq_true_eq, List.all_eq_true]
    refine ⟨⟨rfl, ?_⟩, fun name member => ?_⟩
    · have length := perm.length_eq
      rw [List.length_map] at length
      simp only [mergeBudget, Json.size, List.length_map]
      exact length
    · have known := items name
      have inside : name ∈ budgetNames := member
      rw [if_pos inside] at known
      unfold Json.contains
      cases found : (mergeBudget (.object entries) answer).at? name with
      | none =>
        rw [Json.item, found] at known
        cases known
      | some value => rfl
  · rintro ⟨name, low, high⟩ member
    have inside : name ∈ budgetNames := List.mem_map_of_mem member
    obtain ⟨least, most⟩ := agreedNumber_mem valid valid' member
    have small : high < 2 ^ 32 := numbers_small _ member
    rw [items name, if_pos inside]
    change number _ low high = true
    exact number_ofNat least most (by omega)

/-! ### The digests -/

theorem hexDigit_mem {n : Nat} (small : n < 16) :
    (('0' ≤ Json.hexDigit n && Json.hexDigit n ≤ '9') || ('a' ≤ Json.hexDigit n && Json.hexDigit n ≤ 'f')) = true ∧
      Json.Plain (Json.hexDigit n) := by
  have all : ∀ n < 16, (('0' ≤ Json.hexDigit n && Json.hexDigit n ≤ '9') ||
      ('a' ≤ Json.hexDigit n && Json.hexDigit n ≤ 'f')) = true ∧ Json.Plain (Json.hexDigit n) := by decide
  exact all n small

theorem digest_text (sha : Bytes → Block 32) (bytes : Bytes) :
    (digest sha bytes).toList.length = 64 ∧ ∀ c ∈ (digest sha bytes).toList,
      (('0' ≤ c && c ≤ '9') || ('a' ≤ c && c ≤ 'f')) = true ∧ Json.Plain c := by
  rw [digest, String.toList_ofList]
  constructor
  · have pairs : ∀ l : Bytes, (l.flatMap fun c : Byte =>
        [Json.hexDigit (c >>> 4).toNat, Json.hexDigit (c &&& 15).toNat]).length = 2 * l.length := by
      intro l
      induction l with
      | nil => rfl
      | cons c l ih =>
        rw [List.flatMap_cons, List.length_append, ih, List.length_cons, List.length_cons, List.length_cons]
        simp only [List.length_nil]
        omega
    rw [pairs, (sha bytes).size]
  · intro c member
    obtain ⟨octet, -, inside⟩ := List.mem_flatMap.mp member
    have bound := octet.isLt
    have high : (octet >>> 4).toNat < 16 := by
      rw [BitVec.toNat_ushiftRight, Nat.shiftRight_eq_div_pow]
      omega
    have low : (octet &&& 15).toNat < 16 := by
      rw [BitVec.toNat_and]
      exact lt_of_le_of_lt Nat.and_le_right (by decide)
    rcases List.mem_cons.mp inside with rfl | inside
    · exact hexDigit_mem high
    · rw [List.mem_singleton.mp inside]
      exact hexDigit_mem low

theorem digest_valid (sha : Bytes → Block 32) (bytes : Bytes) : hexDigest (.string (digest sha bytes)) = true := by
  obtain ⟨length, all⟩ := digest_text sha bytes
  have size : (digest sha bytes).utf8ByteSize = 64 := by
    rw [Json.utf8ByteSize_eq, Json.width_ascii fun c member => Json.utf8Size_lt (all c member).2.2.1, length]
  have printable : (digest sha bytes).toList.contains (Char.ofNat 0) = false := by
    refine Bool.eq_false_of_not_eq_true fun member => ?_
    have plain := (all _ (List.contains_iff_mem.mp member)).2.1
    exact absurd plain (by decide)
  simp only [hexDigest, string, size, printable, Bool.and_eq_true, List.all_eq_true]
  exact ⟨⟨⟨by decide, by decide⟩, rfl⟩, fun c member => (all c member).1⟩

theorem digest_width (sha : Bytes → Block 32) (bytes : Bytes) :
    Json.width ((Json.string (digest sha bytes)).dump float) = 66 := by
  obtain ⟨length, all⟩ := digest_text sha bytes
  rw [Json.dump, Json.width_dumpString_plain fun c member => (all c member).2, length]

/-! ### HELLOs -/

/-- What the schema says of a HELLO. -/
structure Hello (h : Json) : Prop where
  budget : budget (h.item "budget") = true
  remaining : number (h.item "remaining_ms") 1 30000 = true
  samples : ∃ samples, h.item "samples" = .array samples ∧ ∀ v ∈ samples, sample v = true

theorem hello_of_schema {h : Json} (valid : schema .hello h = true) : Hello h := by
  rw [schema, if_pos rfl] at valid
  simp only [Bool.and_eq_true] at valid
  obtain ⟨⟨⟨⟨⟨-, budget⟩, remaining⟩, -⟩, -⟩, samples⟩ := valid
  refine ⟨budget, remaining, ?_⟩
  split at samples
  · rename_i items found
    simp only [Bool.and_eq_true, List.all_eq_true] at samples
    exact ⟨items, found, samples.2⟩
  · exact absurd samples Bool.false_ne_true

theorem sample_endpoint {v : Json} (valid : sample v = true) :
    ip (v.item "ip") = true ∧ number (v.item "port") 1 65535 = true := by
  simp only [sample, Bool.and_eq_true] at valid
  obtain ⟨⟨⟨⟨⟨⟨-, -⟩, -⟩, ip⟩, port⟩, -⟩, -⟩ := valid
  exact ⟨ip, port⟩

theorem ip_string {j : Json} (valid : ip j = true) : string j 7 15 = true := by
  simp only [ip, Bool.and_eq_true] at valid
  exact valid.1

/-- One side shows one port, the other side several. -/
structure Sides (float : BitVec 64 → List Char) (offer answer : Json) (anchorOffer : Bool) : Prop where
  offered : ControlPayload float .hello offer ≠ []
  answered : ControlPayload float .hello answer ≠ []
  mode : (offer.item "mode").text = (answer.item "mode").text
  anchor : ClassifyHello (if anchorOffer then offer else answer) = .stableObserved
  pool : ClassifyHello (if anchorOffer then answer else offer) = .dependentObserved

theorem Sides.swap {offer answer : Json} {anchorOffer : Bool} (sides : Sides float offer answer anchorOffer) :
    Sides float answer offer (!anchorOffer) := by
  refine ⟨sides.answered, sides.offered, sides.mode.symm, ?_, ?_⟩
  · cases anchorOffer with
    | true => exact sides.anchor
    | false => exact sides.anchor
  · cases anchorOffer with
    | true => exact sides.pool
    | false => exact sides.pool

theorem makePunchPlan_sides {sha : Bytes → Block 32} {offer answer : Json} {anchorOffer : Bool}
    (sides : Sides float offer answer anchorOffer) :
    MakePunchPlan float sha offer answer = planFor float sha offer answer anchorOffer := by
  have sane : ¬(ControlPayload float .hello offer = [] ∨ ControlPayload float .hello answer = [] ∨
      (offer.item "mode").text ≠ (answer.item "mode").text) := by
    rintro (h | h | h)
    · exact sides.offered h
    · exact sides.answered h
    · exact h sides.mode
  rw [MakePunchPlan, if_neg sane]
  have anchor := sides.anchor
  have pool := sides.pool
  cases anchorOffer with
  | true => rw [if_pos ⟨anchor, pool⟩]
  | false =>
    have other : ¬(ClassifyHello offer = .stableObserved ∧ ClassifyHello answer = .dependentObserved) := by
      rintro ⟨stable, -⟩
      rw [if_neg Bool.false_ne_true] at pool
      rw [pool] at stable
      exact absurd stable (by decide)
    rw [if_neg other, if_pos ⟨anchor, pool⟩]

theorem makePunchPlan_some {sha : Bytes → Block 32} {offer answer plan : Json}
    (made : MakePunchPlan float sha offer answer = some plan) :
    ∃ anchorOffer, Sides float offer answer anchorOffer ∧ planFor float sha offer answer anchorOffer = some plan := by
  unfold MakePunchPlan at made
  split at made
  · exact absurd made (by simp)
  rename_i sane
  rw [not_or, not_or, not_not] at sane
  obtain ⟨first, second, mode⟩ := sane
  split at made
  · rename_i classes
    exact ⟨true, ⟨first, second, mode, classes.1, classes.2⟩, made⟩
  split at made
  · rename_i classes
    exact ⟨false, ⟨first, second, mode, classes.1, classes.2⟩, made⟩
  · exact absurd made (by simp)

/-- The first sample of a HELLO that can be classified. -/
theorem first_sample {h : Json} (whole : ControlPayload float .hello h ≠ []) (known : ClassifyHello h ≠ .unknown) :
    ∃ v samples, h.item "samples" = .array (v :: samples) ∧ sample v = true := by
  obtain ⟨samples, found, valid⟩ := (hello_of_schema (controlPayload_schema whole)).samples
  have many := (usable_of_classify known).count.1
  simp only [helloSnapshot, found, Json.items, List.length_map] at many
  cases samples with
  | nil => exact absurd many (by decide)
  | cons v samples => exact ⟨v, samples, found, valid v List.mem_cons_self⟩

/-! ### The plan -/

theorem sub32_eq {x y : Nat} (order : y ≤ x) (small : x < 2 ^ 32) : sub32 x y = x - y := by
  unfold sub32
  omega

theorem remaining_mem {h : Json} (hello : Hello h) : 1 ≤ (h.item "remaining_ms").uint ∧ (h.item "remaining_ms").uint ≤ 30000 :=
  number_uint hello.remaining (by decide)

/-- The fields of a plan. -/
theorem planJson_item (sha : Bytes → Block 32) (offer answer budget : Json) (duration : Nat) (anchorOffer : Bool) :
    let plan := planJson float sha offer answer budget duration anchorOffer
    plan.item "anchor" = .string (if anchorOffer then "offer" else "answer") ∧
    (plan.item "anchor_endpoint").item "ip" =
      (((if anchorOffer then offer else answer).item "samples").items.headD .null).item "ip" ∧
    (plan.item "anchor_endpoint").item "port" =
      (((if anchorOffer then offer else answer).item "samples").items.headD .null).item "port" ∧
    plan.item "peer_ip" = (((if anchorOffer then answer else offer).item "samples").items.headD .null).item "ip" ∧
    plan.item "budget" = budget ∧
    plan.item "duration_ms" = .unsigned (BitVec.ofNat 64 duration) ∧
    plan.item "offer_hello" = .string (digest sha (ControlPayload float .hello offer)) ∧
    plan.item "answer_hello" = .string (digest sha (ControlPayload float .hello answer)) := by
  simp [planJson, Json.item, Json.at?, Json.find]

/-- What a plan is made of. -/
structure Parts (offer answer budget : Json) (duration : Nat) : Prop where
  offer : ∃ v samples, offer.item "samples" = .array (v :: samples) ∧ sample v = true
  answer : ∃ v samples, answer.item "samples" = .array (v :: samples) ∧ sample v = true
  budget : MiniRtc.Ice.Punch.budget budget = true
  duration : 1 ≤ duration ∧ duration ≤ 15000

theorem Parts.sides {offer answer budget : Json} {duration : Nat} (parts : Parts offer answer budget duration)
    (anchorOffer : Bool) :
    (∃ v, ((if anchorOffer then offer else answer).item "samples").items.headD .null = v ∧ sample v = true) ∧
      ∃ v, ((if anchorOffer then answer else offer).item "samples").items.headD .null = v ∧ sample v = true := by
  obtain ⟨v, samples, found, valid⟩ := parts.offer
  obtain ⟨v', samples', found', valid'⟩ := parts.answer
  have first : (offer.item "samples").items.headD .null = v := by rw [found]; rfl
  have second : (answer.item "samples").items.headD .null = v' := by rw [found']; rfl
  cases anchorOffer with
  | true => exact ⟨⟨v, first, valid⟩, ⟨v', second, valid'⟩⟩
  | false => exact ⟨⟨v', second, valid'⟩, ⟨v, first, valid⟩⟩

theorem planJson_schema (sha : Bytes → Block 32) {offer answer budget : Json} {duration : Nat}
    (parts : Parts offer answer budget duration) (anchorOffer : Bool) :
    schema .prepare (planJson float sha offer answer budget duration anchorOffer) = true := by
  obtain ⟨anchor, ip', port, peer, merged, time, first, second⟩ :=
    @planJson_item float sha offer answer budget duration anchorOffer
  obtain ⟨⟨v, here, valid⟩, ⟨v', here', valid'⟩⟩ := parts.sides anchorOffer
  obtain ⟨address, number'⟩ := sample_endpoint valid
  obtain ⟨address', -⟩ := sample_endpoint valid'
  rw [here] at ip' port
  rw [here'] at peer
  have named : fields (planJson float sha offer answer budget duration anchorOffer)
      ["anchor", "anchor_endpoint", "peer_ip", "budget", "duration_ms", "offer_hello", "answer_hello"] = true := by
    simp [fields, planJson, Json.isObject, Json.size, Json.contains, Json.at?, Json.find]
  have end' : fields ((planJson float sha offer answer budget duration anchorOffer).item "anchor_endpoint")
      ["ip", "port"] = true := by
    simp [fields, planJson, Json.item, Json.isObject, Json.size, Json.contains, Json.at?, Json.find]
  have side : ((planJson float sha offer answer budget duration anchorOffer).item "anchor").isString "offer" = true ∨
      ((planJson float sha offer answer budget duration anchorOffer).item "anchor").isString "answer" = true := by
    rw [anchor]
    cases anchorOffer with
    | true => exact Or.inl (by simp [Json.isString])
    | false => exact Or.inr (by simp [Json.isString])
  rw [schema, if_neg (by decide), if_pos rfl]
  simp only [endpoint, Bool.and_eq_true, Bool.or_eq_true]
  rw [ip', port, peer, merged, time, first, second]
  exact ⟨⟨⟨⟨⟨⟨⟨named, side⟩, ⟨end', address⟩, number'⟩, address'⟩, parts.budget⟩,
    number_ofNat parts.duration.1 parts.duration.2 (by decide)⟩, digest_valid sha _⟩, digest_valid sha _⟩

theorem budget_width {j : Json} (valid : budget j = true) : Json.width (j.dump float) ≤ 472 := by
  have numbers : ∀ name ∈ budgetNames, Json.width ((j.item name).dump float) ≤ 20 := by
    intro name member
    obtain ⟨⟨name, low, high⟩, inside, rfl⟩ := List.mem_map.mp member
    exact number_width (budget_number valid inside)
  obtain ⟨entries, rfl, perm⟩ := fields_object budgetNames_nodup (budget_fields valid)
  have keys : ∀ name ∈ budgetNames, Json.width (Json.dumpString name) ≤ 25 := by
    simp only [budgetNames, budgetNumbers, List.map_cons, List.map_nil, List.forall_mem_cons, Json.dumpString]
    repeat rw [String.toList_ofList]
    decide
  have distinct : (entries.map Prod.fst).Nodup := perm.nodup_iff.mpr budgetNames_nodup
  have each : ∀ width' ∈ entries.map (Json.fieldWidth float), width' ≤ 47 := by
    intro width' member
    obtain ⟨entry, inside, rfl⟩ := List.mem_map.mp member
    have name : entry.1 ∈ budgetNames := perm.mem_iff.mp (List.mem_map_of_mem inside)
    have value : (Json.object entries).item entry.1 = entry.2 := by
      rw [Json.item, Json.at?, Json.find, find_key distinct inside]
      rfl
    have key := keys _ name
    have number := numbers _ name
    rw [value] at number
    rw [Json.fieldWidth]
    omega
  have length : entries.length = 10 := by
    have same := perm.length_eq
    rwa [List.length_map] at same
  have sum := List.sum_le_card_nsmul _ _ each
  rw [List.length_map, length, smul_eq_mul] at sum
  have whole := @Json.width_object float entries
  omega

/-- A plan fits into a control packet. -/
theorem planJson_width (sha : Bytes → Block 32) {offer answer budget : Json} {duration : Nat}
    (parts : Parts offer answer budget duration) (anchorOffer : Bool) :
    Json.width ((planJson float sha offer answer budget duration anchorOffer).dump float) ≤ 1140 := by
  obtain ⟨⟨v, here, valid⟩, ⟨v', here', valid'⟩⟩ := parts.sides anchorOffer
  obtain ⟨address, number'⟩ := sample_endpoint valid
  obtain ⟨address', -⟩ := sample_endpoint valid'
  have endpointWidth := @Json.width_object float [("ip", v.item "ip"), ("port", v.item "port")]
  have whole := @Json.width_object float [
    ("anchor", .string (if anchorOffer then "offer" else "answer")),
    ("anchor_endpoint", .object [("ip", v.item "ip"), ("port", v.item "port")]),
    ("answer_hello", .string (digest sha (ControlPayload float .hello answer))),
    ("budget", budget),
    ("duration_ms", .unsigned (BitVec.ofNat 64 duration)),
    ("offer_hello", .string (digest sha (ControlPayload float .hello offer))),
    ("peer_ip", v'.item "ip")]
  have same : planJson float sha offer answer budget duration anchorOffer = .object [
      ("anchor", .string (if anchorOffer then "offer" else "answer")),
      ("anchor_endpoint", .object [("ip", v.item "ip"), ("port", v.item "port")]),
      ("answer_hello", .string (digest sha (ControlPayload float .hello answer))),
      ("budget", budget),
      ("duration_ms", .unsigned (BitVec.ofNat 64 duration)),
      ("offer_hello", .string (digest sha (ControlPayload float .hello offer))),
      ("peer_ip", v'.item "ip")] := by
    simp only [planJson, here, here']
  have keys : Json.width (Json.dumpString "anchor") = 8 ∧ Json.width (Json.dumpString "anchor_endpoint") = 17 ∧
      Json.width (Json.dumpString "answer_hello") = 14 ∧ Json.width (Json.dumpString "budget") = 8 ∧
      Json.width (Json.dumpString "duration_ms") = 13 ∧ Json.width (Json.dumpString "offer_hello") = 13 ∧
      Json.width (Json.dumpString "peer_ip") = 9 ∧ Json.width (Json.dumpString "ip") = 4 ∧
      Json.width (Json.dumpString "port") = 6 := by
    unfold Json.dumpString
    repeat rw [String.toList_ofList]
    decide
  obtain ⟨anchorKey, endpointKey, answerKey, budgetKey, durationKey, offerKey, peerKey, ipKey, portKey⟩ := keys
  have side : Json.width ((Json.string (if anchorOffer then "offer" else "answer")).dump float) ≤ 8 := by
    rw [Json.dump]
    cases anchorOffer with
    | true => decide
    | false => decide
  have ipWidth := @string_width float _ _ _ (ip_string address)
  have peerWidth := @string_width float _ _ _ (ip_string address')
  have portWidth := @number_width float _ _ _ number'
  have budgetWidth := @budget_width float _ parts.budget
  have durationWidth := @Json.width_unsigned float (BitVec.ofNat 64 duration)
  have offerWidth := @digest_width float sha (ControlPayload float .hello offer)
  have answerWidth := @digest_width float sha (ControlPayload float .hello answer)
  rw [same]
  simp only [List.map_cons, List.map_nil, List.sum_cons, List.sum_nil, Json.fieldWidth, anchorKey, endpointKey, answerKey,
    budgetKey, durationKey, offerKey, peerKey, ipKey, portKey, offerWidth, answerWidth] at whole endpointWidth
  omega

theorem planJson_payload (sha : Bytes → Block 32) {offer answer budget : Json} {duration : Nat}
    (parts : Parts offer answer budget duration) (anchorOffer : Bool) :
    ControlPayload float .prepare (planJson float sha offer answer budget duration anchorOffer) ≠ [] := by
  have width := @planJson_width float sha _ _ _ _ parts anchorOffer
  have valid := @planJson_schema float sha _ _ _ _ parts anchorOffer
  rw [ControlPayload, if_neg (by rw [valid]; exact Bool.noConfusion)]
  simp only
  rw [if_pos (by rw [Json.length_utf8]; exact width)]
  intro nothing
  have length := congrArg List.length nothing
  rw [Json.length_utf8, planJson, Json.dump, Json.width_cons] at length
  have positive := Char.utf8Size_pos (Char.ofNat 0x7b)
  rw [List.length_nil] at length
  omega

/-- The time that both sides leave. -/
def remainingBoth (offer answer : Json) : Nat := min (offer.item "remaining_ms").uint (answer.item "remaining_ms").uint

def agreedDuration (offer answer : Json) : Nat :=
  min (agreedNumber (offer.item "budget") (answer.item "budget") "round_duration_ms")
    (remainingBoth offer answer - agreedNumber (offer.item "budget") (answer.item "budget") "ice_finish_reserve_ms" - 3000)

/-- A plan, once the reserve and the round of the merged budget are known. -/
theorem planFor_merged (sha : Bytes → Block 32) {offer answer : Json} (anchorOffer : Bool) {reserve round : Nat}
    (kept : ((mergeBudget (offer.item "budget") (answer.item "budget")).item "ice_finish_reserve_ms").uint = reserve)
    (longest : ((mergeBudget (offer.item "budget") (answer.item "budget")).item "round_duration_ms").uint = round) :
    planFor float sha offer answer anchorOffer =
      if remainingBoth offer answer ≤ (reserve + 3000) % 2 ^ 32 then none
      else if ControlPayload float .prepare (planJson float sha offer answer
          (mergeBudget (offer.item "budget") (answer.item "budget"))
          (min round (sub32 (sub32 (remainingBoth offer answer) reserve) 3000)) anchorOffer) = [] then none
      else some (planJson float sha offer answer (mergeBudget (offer.item "budget") (answer.item "budget"))
        (min round (sub32 (sub32 (remainingBoth offer answer) reserve) 3000)) anchorOffer) := by
  rw [← kept, ← longest]
  simp only [planFor, remainingBoth]
  rfl

/-- The sides of a plan can be classified. -/
theorem Sides.known {offer answer : Json} {anchorOffer : Bool} (sides : Sides float offer answer anchorOffer) :
    ClassifyHello offer ≠ .unknown ∧ ClassifyHello answer ≠ .unknown := by
  have anchor := sides.anchor
  have pool := sides.pool
  cases anchorOffer with
  | true =>
    rw [if_pos rfl] at anchor pool
    rw [anchor, pool]
    exact ⟨by decide, by decide⟩
  | false =>
    rw [if_neg Bool.false_ne_true] at anchor pool
    rw [anchor, pool]
    exact ⟨by decide, by decide⟩

/-- A plan in plain numbers, without a wrap. -/
theorem planFor_eq {sha : Bytes → Block 32} {offer answer : Json} {anchorOffer : Bool}
    (sides : Sides float offer answer anchorOffer) :
    planFor float sha offer answer anchorOffer =
      if remainingBoth offer answer ≤
          agreedNumber (offer.item "budget") (answer.item "budget") "ice_finish_reserve_ms" + 3000 then none
      else some (planJson float sha offer answer (mergeBudget (offer.item "budget") (answer.item "budget"))
        (agreedDuration offer answer) anchorOffer) := by
  have first := hello_of_schema (controlPayload_schema sides.offered)
  have second := hello_of_schema (controlPayload_schema sides.answered)
  have reserved : ("ice_finish_reserve_ms", 3000, 15000) ∈ budgetNumbers := by decide
  have rounds : ("round_duration_ms", 1, 15000) ∈ budgetNumbers := by decide
  rw [planFor_merged sha anchorOffer (mergeBudget_uint first.budget second.budget reserved)
    (mergeBudget_uint first.budget second.budget rounds)]
  have parts : ∀ duration, 1 ≤ duration ∧ duration ≤ 15000 →
      Parts offer answer (mergeBudget (offer.item "budget") (answer.item "budget")) duration :=
    fun duration time => ⟨first_sample sides.offered sides.known.1, first_sample sides.answered sides.known.2,
      mergeBudget_valid first.budget second.budget, time⟩
  obtain ⟨-, reserveMost⟩ := agreedNumber_mem first.budget second.budget reserved
  obtain ⟨roundLeast, roundMost⟩ := agreedNumber_mem first.budget second.budget rounds
  have remainingMost : remainingBoth offer answer ≤ 30000 := (min_le_left _ _).trans (remaining_mem first).2
  unfold agreedDuration
  generalize agreedNumber (offer.item "budget") (answer.item "budget") "ice_finish_reserve_ms" = reserve at *
  generalize agreedNumber (offer.item "budget") (answer.item "budget") "round_duration_ms" = round at *
  generalize remainingBoth offer answer = remaining at *
  have limit : (reserve + 3000) % 2 ^ 32 = reserve + 3000 := by omega
  rw [limit]
  split
  · rfl
  rename_i enough
  have left : sub32 (sub32 remaining reserve) 3000 = remaining - reserve - 3000 := by
    have inner : sub32 remaining reserve = remaining - reserve := sub32_eq (by omega) (by omega)
    rw [inner]
    exact sub32_eq (by omega) (by omega)
  rw [left]
  exact if_neg (planJson_payload sha (parts _ (by omega)) anchorOffer)

end MiniRtc.Ice.Punch
