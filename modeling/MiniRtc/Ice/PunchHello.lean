import MiniRtc.Ice.PunchMapping

/-! What a HELLO says of a mapping (punch_scheduler.cpp): three samples at most classify it as all of
them do, and a plan aims at the mapping that they were taken of. -/
namespace MiniRtc.Ice.Punch
open Wire

/-! ### The classification -/

theorem rejected_mappedIp {socket generation : BitVec 64} {nowMs : Int} {maxAgeMs : Nat} {sample : PunchMappingSample}
    (accepted : sample.rejected socket generation nowMs maxAgeMs = false) : sample.mappedIp ≠ "" := by
  intro empty
  have nobody : isPublicIpv4ForPrediction "" = false := by decide
  simp only [PunchMappingSample.rejected, Bool.or_eq_false_iff, empty, nobody] at accepted
  exact absurd accepted.1.2 (by decide)

/-- The loop takes all samples, or it stops at one. -/
theorem observeSamples_some_iff {socket generation : BitVec 64} {nowMs : Int} {maxAgeMs : Nat}
    (samples : List PunchMappingSample) (ip : String) (servers : Finset String) (ports : Finset (BitVec 16))
    (r : Finset String × Finset (BitVec 16)) :
    observeSamples socket generation nowMs maxAgeMs samples ip servers ports = some r ↔
      (∀ a ∈ samples, a.rejected socket generation nowMs maxAgeMs = false) ∧
      (∀ a ∈ samples, ∀ b ∈ samples, a.mappedIp = b.mappedIp) ∧ (ip ≠ "" → ∀ a ∈ samples, a.mappedIp = ip) ∧
      r = (servers ∪ (samples.map PunchMappingSample.serverIp).toFinset,
        ports ∪ (samples.map PunchMappingSample.mappedPort).toFinset) := by
  induction samples generalizing ip servers ports with
  | nil =>
    rw [observeSamples, List.map_nil, List.map_nil, List.toFinset_nil, List.toFinset_nil, Finset.union_empty,
      Finset.union_empty, Option.some_inj]
    refine ⟨fun same => ⟨?_, ?_, fun _ => ?_, same.symm⟩, fun all => all.2.2.2.symm⟩
    · exact fun a member => absurd member List.not_mem_nil
    · exact fun a member => absurd member List.not_mem_nil
    · exact fun a member => absurd member List.not_mem_nil
  | cons first samples ih =>
    rw [observeSamples]
    by_cases rejected : first.rejected socket generation nowMs maxAgeMs = true
    · rw [if_pos rejected]
      refine ⟨fun none' => absurd none' (by simp), fun all => ?_⟩
      rw [all.1 first List.mem_cons_self] at rejected
      exact absurd rejected Bool.false_ne_true
    rw [if_neg rejected]
    have accepted := Bool.eq_false_of_not_eq_true rejected
    by_cases other : ip ≠ "" ∧ ip ≠ first.mappedIp
    · rw [if_pos other]
      refine ⟨fun none' => absurd none' (by simp), fun all => ?_⟩
      exact absurd (all.2.2.1 other.1 first List.mem_cons_self).symm other.2
    rw [if_neg other, ih]
    have known := rejected_mappedIp accepted
    have sets : (insert first.serverIp servers ∪ (samples.map PunchMappingSample.serverIp).toFinset,
        insert first.mappedPort ports ∪ (samples.map PunchMappingSample.mappedPort).toFinset) =
        (servers ∪ ((first :: samples).map PunchMappingSample.serverIp).toFinset,
          ports ∪ ((first :: samples).map PunchMappingSample.mappedPort).toFinset) := by
      simp only [List.map_cons, List.toFinset_cons, Finset.insert_union, Finset.union_insert]
    rw [sets]
    constructor
    · rintro ⟨taken, -, same, rfl⟩
      have alike : ∀ a ∈ first :: samples, a.mappedIp = first.mappedIp := List.forall_mem_cons.mpr ⟨rfl, same known⟩
      refine ⟨List.forall_mem_cons.mpr ⟨accepted, taken⟩, fun a ha b hb => (alike a ha).trans (alike b hb).symm,
        fun some' a ha => ?_, rfl⟩
      have here : ip = first.mappedIp := by
        by_contra apart
        exact other ⟨some', apart⟩
      rw [alike a ha, here]
    · rintro ⟨taken, same, -, rfl⟩
      refine ⟨fun a ha => taken a (List.mem_cons_of_mem _ ha), fun a ha b hb => ?_, fun _ a ha => ?_, rfl⟩
      · exact same a (List.mem_cons_of_mem _ ha) b (List.mem_cons_of_mem _ hb)
      · exact same a (List.mem_cons_of_mem _ ha) first List.mem_cons_self

/-- A snapshot that can be classified. -/
structure Usable (s : PunchMappingSnapshot) (generation : BitVec 64) (nowMs : Int) (maxAgeMs : Nat) : Prop where
  socket : s.socket ≠ 0
  epoch : generation ≠ 0 ∧ s.generation = generation
  base : s.localPort ≠ 0 ∧ validIpv4 s.localIp = true ∧ s.component = 1 ∧ s.foundation ≠ ""
  count : 2 ≤ s.samples.length ∧ s.samples.length ≤ 32
  accepted : ∀ a ∈ s.samples, a.rejected s.socket generation nowMs maxAgeMs = false
  ip : ∀ a ∈ s.samples, ∀ b ∈ s.samples, a.mappedIp = b.mappedIp
  servers : ∃ a ∈ s.samples, ∃ b ∈ s.samples, a.serverIp ≠ b.serverIp

/-- All samples show one port. -/
def OnePort (samples : List PunchMappingSample) : Prop := ∀ a ∈ samples, ∀ b ∈ samples, a.mappedPort = b.mappedPort

theorem card_lt_two {α β : Type} [DecidableEq β] (f : α → β) (l : List α) :
    (l.map f).toFinset.card < 2 ↔ ∀ a ∈ l, ∀ b ∈ l, f a = f b := by
  rw [Nat.lt_succ_iff, Finset.card_le_one]
  simp only [List.mem_toFinset, List.mem_map, forall_exists_index, and_imp, forall_apply_eq_imp_iff₂]

theorem classify_usable {s : PunchMappingSnapshot} {generation : BitVec 64} {nowMs : Int} {maxAgeMs : Nat}
    (usable : Usable s generation nowMs maxAgeMs) :
    (OnePort s.samples → ClassifyPunchMapping s generation nowMs maxAgeMs = .stableObserved) ∧
      (¬OnePort s.samples → ClassifyPunchMapping s generation nowMs maxAgeMs = .dependentObserved) := by
  have taken := (observeSamples_some_iff s.samples "" ∅ ∅ _).mpr
    ⟨usable.accepted, usable.ip, fun none' => absurd rfl none', rfl⟩
  have sound : ¬(s.socket = 0 ∨ generation = 0 ∨ s.generation ≠ generation ∨ s.localPort = 0 ∨
      validIpv4 s.localIp = false ∨ s.component ≠ 1 ∨ s.foundation = "" ∨ s.samples.length < 2 ∨
      32 < s.samples.length) := by
    rintro (h | h | h | h | h | h | h | h | h)
    · exact usable.socket h
    · exact usable.epoch.1 h
    · exact h usable.epoch.2
    · exact usable.base.1 h
    · rw [usable.base.2.1] at h
      exact Bool.noConfusion h
    · exact h usable.base.2.2.1
    · exact usable.base.2.2.2 h
    · exact absurd usable.count.1 (not_le.mpr h)
    · exact absurd usable.count.2 (not_le.mpr h)
  obtain ⟨a, ha, b, hb, apart⟩ := usable.servers
  have servers : ¬(∅ ∪ (s.samples.map PunchMappingSample.serverIp).toFinset).card < 2 := by
    rw [Finset.empty_union, card_lt_two]
    exact fun same => apart (same a ha b hb)
  have positive : 0 < (s.samples.map PunchMappingSample.mappedPort).toFinset.card :=
    Finset.card_pos.mpr ⟨a.mappedPort, List.mem_toFinset.mpr (List.mem_map_of_mem ha)⟩
  have ports : (∅ ∪ (s.samples.map PunchMappingSample.mappedPort).toFinset).card = 1 ↔ OnePort s.samples := by
    rw [Finset.empty_union, OnePort, ← card_lt_two]
    omega
  unfold ClassifyPunchMapping
  rw [if_neg sound, taken]
  simp only
  rw [if_neg servers]
  exact ⟨fun one => if_pos (ports.mpr one), fun many => if_neg (mt ports.mp many)⟩

theorem usable_of_classify {s : PunchMappingSnapshot} {generation : BitVec 64} {nowMs : Int} {maxAgeMs : Nat}
    (known : ClassifyPunchMapping s generation nowMs maxAgeMs ≠ .unknown) : Usable s generation nowMs maxAgeMs := by
  unfold ClassifyPunchMapping at known
  split at known
  · exact absurd rfl known
  rename_i sound
  simp only [not_or, ne_eq, not_not, Bool.not_eq_false, not_lt] at sound
  obtain ⟨socket, positive, same, port, address, component, foundation, many, few⟩ := sound
  split at known
  · exact absurd rfl known
  rename_i servers ports observed
  obtain ⟨accepted, ip, -, sets⟩ := (observeSamples_some_iff _ _ _ _ _).mp observed
  obtain ⟨rfl, rfl⟩ := Prod.mk.inj sets
  refine ⟨socket, ⟨positive, same⟩, ⟨port, address, component, foundation⟩, ⟨many, few⟩, accepted, ip, ?_⟩
  by_contra one
  push Not at one
  rw [if_pos (by rw [Finset.empty_union, card_lt_two]; exact one)] at known
  exact known rfl

theorem classify_stable_iff {s : PunchMappingSnapshot} {generation : BitVec 64} {nowMs : Int} {maxAgeMs : Nat} :
    ClassifyPunchMapping s generation nowMs maxAgeMs = .stableObserved ↔
      Usable s generation nowMs maxAgeMs ∧ OnePort s.samples := by
  constructor
  · intro stable
    have usable := usable_of_classify (by rw [stable]; decide)
    refine ⟨usable, ?_⟩
    by_contra many
    rw [(classify_usable usable).2 many] at stable
    exact absurd stable (by decide)
  · rintro ⟨usable, one⟩
    exact (classify_usable usable).1 one

/-! ### The selection -/

/-- What is selected comes from the samples; it has no more than three, a second server and a second
port wherever the samples have one. -/
structure Selects (samples selected : List PunchMappingSample) : Prop where
  subset : ∀ v ∈ selected, v ∈ samples
  few : selected.length ≤ 3
  servers : (∃ a ∈ samples, ∃ b ∈ samples, a.serverIp ≠ b.serverIp) →
    ∃ a ∈ selected, ∃ b ∈ selected, a.serverIp ≠ b.serverIp
  ports : OnePort selected → OnePort samples

theorem addServers_keeps (selected ordered : List PunchMappingSample) :
    selected <+: addServers selected ordered ∧ (∀ v ∈ addServers selected ordered, v ∈ selected ∨ v ∈ ordered) ∧
      (selected.length ≤ 3 → (addServers selected ordered).length ≤ 3) := by
  induction ordered generalizing selected with
  | nil => exact ⟨List.prefix_refl _, fun v member => Or.inl member, id⟩
  | cons v ordered ih =>
    rw [addServers]
    split
    · exact ⟨List.prefix_refl _, fun v member => Or.inl member, id⟩
    rename_i room
    split
    · obtain ⟨before, inside, most⟩ := ih (selected ++ [v])
      refine ⟨(List.prefix_append _ _).trans before, fun w member => ?_, fun _ => most ?_⟩
      · rcases inside w member with h | h
        · rcases List.mem_append.mp h with old | new
          · exact Or.inl old
          · rw [List.mem_singleton.mp new]
            exact Or.inr List.mem_cons_self
        · exact Or.inr (List.mem_cons_of_mem _ h)
      · rw [List.length_append, List.length_singleton]
        omega
    · obtain ⟨before, inside, most⟩ := ih selected
      exact ⟨before, fun w member => (inside w member).imp_right (List.mem_cons_of_mem _), most⟩

/-- A server that is not there yet is added while there is room. -/
theorem addServers_adds {selected ordered : List PunchMappingSample} (room : selected.length < 3)
    (new : ∃ v ∈ ordered, ∀ x ∈ selected, x.serverIp ≠ v.serverIp) :
    ∃ v ∈ addServers selected ordered, ∀ x ∈ selected, x.serverIp ≠ v.serverIp := by
  induction ordered with
  | nil =>
    obtain ⟨v, member, -⟩ := new
    exact absurd member List.not_mem_nil
  | cons first ordered ih =>
    rw [addServers, if_neg (not_le.mpr room)]
    split
    · rename_i fresh
      refine ⟨first, (addServers_keeps _ _).1.subset (List.mem_append_right _ List.mem_cons_self), fun x member => ?_⟩
      exact of_decide_eq_true (List.all_eq_true.mp fresh x member)
    · rename_i old
      obtain ⟨v, member, apart⟩ := new
      refine ih ⟨v, ?_, apart⟩
      rcases List.mem_cons.mp member with rfl | inside
      · exact absurd (List.all_eq_true.mpr fun x hx => decide_eq_true (apart x hx)) old
      · exact inside

theorem selectSamples_selects {samples : List PunchMappingSample} (some' : samples ≠ []) :
    Selects samples (selectSamples samples) := by
  have sorted := List.mergeSort_perm samples fun a b => decide (a.sequence.toNat ≤ b.sequence.toNat)
  unfold selectSamples
  simp only
  generalize samples.mergeSort (fun a b => decide (a.sequence.toNat ≤ b.sequence.toNat)) = ordered at *
  cases ordered with
  | nil => exact absurd (List.nil_perm.mp sorted) some'
  | cons first rest =>
    have contradicts : ∃ selected, contradiction (first :: rest) = selected ∧ first ∈ selected ∧ selected.length ≤ 2 ∧
        (∀ v ∈ selected, v ∈ first :: rest) ∧ (OnePort selected → OnePort (first :: rest)) := by
      unfold contradiction
      cases found : (first :: rest).find? fun v => decide (v.mappedPort ≠ first.mappedPort) with
      | none =>
        refine ⟨[first], by simp only [found], List.mem_singleton_self _, by simp, ?_, fun _ => ?_⟩
        · intro v member
          rw [List.mem_singleton.mp member]
          exact List.mem_cons_self
        · have same : ∀ v ∈ first :: rest, v.mappedPort = first.mappedPort := by
            intro v member
            have h := List.find?_eq_none.mp found v member
            simpa using h
          exact fun a ha b hb => (same a ha).trans (same b hb).symm
      | some v =>
        have member := List.mem_of_find?_eq_some found
        have other := List.find?_some found
        have apart : v.mappedPort ≠ first.mappedPort := of_decide_eq_true other
        refine ⟨[first, v], by simp only [found], List.mem_cons_self, le_rfl, ?_, fun one => ?_⟩
        · intro w inside
          rcases List.mem_cons.mp inside with rfl | inside
          · exact List.mem_cons_self
          · rw [List.mem_singleton.mp inside]
            exact member
        · exact absurd (one v (List.mem_cons_of_mem _ List.mem_cons_self) first List.mem_cons_self) apart
    obtain ⟨selected, same, here, few, inside, ports⟩ := contradicts
    rw [same]
    obtain ⟨before, all, most⟩ := addServers_keeps selected (first :: rest)
    have perm : ∀ v, v ∈ first :: rest ↔ v ∈ samples := fun v => sorted.mem_iff
    refine ⟨fun v member => ?_, most (by omega), fun two => ?_, fun one => ?_⟩
    · rcases all v member with old | new
      · exact (perm v).mp (inside v old)
      · exact (perm v).mp new
    · by_cases already : ∃ a ∈ selected, ∃ b ∈ selected, a.serverIp ≠ b.serverIp
      · obtain ⟨a, ha, b, hb, apart⟩ := already
        exact ⟨a, before.subset ha, b, before.subset hb, apart⟩
      · push Not at already
        -- One server so far, so that one of the two is new.
        obtain ⟨a, ha, b, hb, apart⟩ := two
        have new : ∃ v ∈ first :: rest, ∀ x ∈ selected, x.serverIp ≠ v.serverIp := by
          by_cases first' : a.serverIp = first.serverIp
          · refine ⟨b, (perm b).mpr hb, fun x hx => ?_⟩
            rw [already x hx first here, ← first']
            exact apart
          · refine ⟨a, (perm a).mpr ha, fun x hx => ?_⟩
            rw [already x hx first here]
            exact Ne.symm first'
        obtain ⟨v, member, fresh⟩ := addServers_adds (by omega) new
        exact ⟨first, before.subset here, v, member, fresh first here⟩
    · have smaller : OnePort selected := fun a ha b hb => one a (before.subset ha) b (before.subset hb)
      intro a ha b hb
      exact ports smaller a ((perm a).mpr ha) b ((perm b).mpr hb)

/-! ### What the peer reads -/

/-- A sample as the peer reads it. -/
def readSample (socket : BitVec 64) (nowMs : Int) (v : PunchMappingSample) : PunchMappingSample :=
  { v with socket, generation := 1, receivedMs := 15000 - (BitVec.ofInt 64 (nowMs - v.receivedMs)).toInt }

theorem helloSample_sampleJson (socket : BitVec 64) (nowMs : Int) (v : PunchMappingSample) :
    helloSample socket (sampleJson nowMs v) = readSample socket nowMs v := by
  simp [helloSample, sampleJson, readSample, Json.item, Json.at?, Json.find, Json.text, Json.bits]

theorem helloSnapshot_helloJson (s : PunchMappingSnapshot) (c : PunchConfig) (nowMs remainingMs : Int) (retry : Bool) :
    helloSnapshot (helloJson s c nowMs remainingMs retry) =
      { s with
        generation := 1
        component := 1
        samples := (selectSamples s.samples).map (readSample s.socket nowMs) } := by
  simp [helloSnapshot, helloJson, Json.item, Json.at?, Json.find, Json.text, Json.bits, Json.items,
    helloSample_sampleJson]

theorem age_read {age : Int} (positive : 0 ≤ age) (small : age ≤ 15000) : (BitVec.ofInt 64 age).toInt = age := by
  rw [BitVec.toInt_ofInt]
  exact Int.bmod_eq_of_le (by omega) (by omega)

theorem accepted_age {socket generation : BitVec 64} {nowMs : Int} {maxAgeMs : Nat} {a : PunchMappingSample}
    (accepted : a.rejected socket generation nowMs maxAgeMs = false) :
    0 ≤ nowMs - a.receivedMs ∧ nowMs - a.receivedMs ≤ maxAgeMs := by
  simp only [PunchMappingSample.rejected, Bool.or_eq_false_iff, decide_eq_false_iff_not, not_lt] at accepted
  omega

/-- A sample that the sender can use can be used by the peer. -/
theorem readSample_accepted {socket generation : BitVec 64} {nowMs : Int} {maxAgeMs : Nat} {a : PunchMappingSample}
    (small : maxAgeMs ≤ 15000) (accepted : a.rejected socket generation nowMs maxAgeMs = false) :
    (readSample socket nowMs a).rejected socket 1 15000 15000 = false := by
  obtain ⟨positive, most⟩ := accepted_age accepted
  have age := age_read positive (by omega)
  simp only [PunchMappingSample.rejected, Bool.or_eq_false_iff, decide_eq_false_iff_not, not_lt, readSample, age] at accepted ⊢
  obtain ⟨⟨⟨⟨-, server⟩, serverPort⟩, mapped⟩, port⟩ := accepted
  exact ⟨⟨⟨⟨⟨⟨⟨fun h => h rfl, fun h => h rfl⟩, by omega⟩, by omega⟩, server⟩, serverPort⟩, mapped⟩, port⟩

/-- The peer can classify what is selected, and sees one port where there is one. -/
theorem read_usable {s : PunchMappingSnapshot} {generation : BitVec 64} {nowMs : Int} {maxAgeMs : Nat}
    (small : maxAgeMs ≤ 15000) (usable : Usable s generation nowMs maxAgeMs) :
    Usable { s with
        generation := 1
        component := 1
        samples := (selectSamples s.samples).map (readSample s.socket nowMs) } 1 15000 15000 ∧
      (OnePort ((selectSamples s.samples).map (readSample s.socket nowMs)) ↔ OnePort s.samples) := by
  have some' : s.samples ≠ [] := by
    intro none'
    have many := usable.count.1
    rw [none'] at many
    exact absurd many (by decide)
  have selects := selectSamples_selects some'
  obtain ⟨a, ha, b, hb, apart⟩ := selects.servers usable.servers
  refine ⟨⟨usable.socket, ⟨by decide, rfl⟩, ⟨usable.base.1, usable.base.2.1, rfl, usable.base.2.2.2⟩, ?_, ?_, ?_, ?_⟩, ?_⟩
  · have few := selects.few
    have many : 2 ≤ (selectSamples s.samples).length := by
      obtain ⟨i, hi, first⟩ := List.getElem_of_mem ha
      obtain ⟨j, hj, second⟩ := List.getElem_of_mem hb
      have different : i ≠ j := by
        rintro rfl
        exact apart (congrArg _ (first.symm.trans second))
      omega
    simp only [List.length_map]
    omega
  · intro v member
    obtain ⟨w, inside, rfl⟩ := List.mem_map.mp member
    exact readSample_accepted small (usable.accepted w (selects.subset w inside))
  · intro v hv w hw
    obtain ⟨x, hx, rfl⟩ := List.mem_map.mp hv
    obtain ⟨y, hy, rfl⟩ := List.mem_map.mp hw
    exact usable.ip x (selects.subset x hx) y (selects.subset y hy)
  · exact ⟨_, List.mem_map_of_mem ha, _, List.mem_map_of_mem hb, apart⟩
  · constructor
    · intro one
      refine selects.ports fun v hv w hw => ?_
      exact one (readSample s.socket nowMs v) (List.mem_map_of_mem hv) (readSample s.socket nowMs w)
        (List.mem_map_of_mem hw)
    · intro one v hv w hw
      obtain ⟨x, hx, rfl⟩ := List.mem_map.mp hv
      obtain ⟨y, hy, rfl⟩ := List.mem_map.mp hw
      exact one x (selects.subset x hx) y (selects.subset y hy)

/-- What a HELLO reports of a snapshot. -/
structure Reports (s : PunchMappingSnapshot) (mapping : PunchMapping) (h : Json) : Prop where
  samples : ∃ samples, h.item "samples" = .array samples ∧ 2 ≤ samples.length ∧ samples.length ≤ 3 ∧
    ∀ v ∈ samples, 0 ≤ ((v.item "age_ms").bits 64).toInt ∧ ((v.item "age_ms").bits 64).toInt ≤ 15000
  schema : schema .hello h = true
  mapping : ClassifyHello h = mapping

variable {float : BitVec 64 → List Char}

theorem controlPayload_schema {kind : Kind} {j : Json} (some' : ControlPayload float kind j ≠ []) :
    schema kind j = true := by
  unfold ControlPayload at some'
  split at some'
  · exact absurd rfl some'
  · rename_i valid
    exact Bool.eq_true_of_not_eq_false valid

theorem punchHello_some {s : PunchMappingSnapshot} {c : PunchConfig} {generation : BitVec 64} {nowMs remainingMs : Int}
    {retry : Bool} {h : Json} (made : PunchHello float s c generation nowMs remainingMs retry = some h) :
    c.mappingSampleMaxAgeMs ≤ 15000 ∧ Usable s generation nowMs c.mappingSampleMaxAgeMs ∧
      ControlPayload float .hello h ≠ [] ∧ h = helloJson s c nowMs remainingMs retry := by
  unfold PunchHello at made
  split at made
  · exact absurd made (by simp)
  rename_i sane
  split at made
  · exact absurd made (by simp)
  rename_i whole
  cases Option.some.inj made
  simp only [not_or, Bool.not_eq_false] at sane
  have valid := sane.2.1
  simp only [PunchConfig.validate, Bool.and_eq_true, decide_eq_true_eq] at valid
  exact ⟨by omega, usable_of_classify sane.2.2.2.2, whole, rfl⟩

theorem punchHello_reports {s : PunchMappingSnapshot} {c : PunchConfig} {generation : BitVec 64}
    {nowMs remainingMs : Int} {retry : Bool} {h : Json}
    (made : PunchHello float s c generation nowMs remainingMs retry = some h) :
    Reports s (ClassifyPunchMapping s generation nowMs c.mappingSampleMaxAgeMs) h := by
  obtain ⟨small, usable, whole, rfl⟩ := punchHello_some made
  obtain ⟨usable', ports⟩ := read_usable small usable
  refine ⟨⟨(selectSamples s.samples).map (sampleJson nowMs), rfl, ?_, ?_, fun v member => ?_⟩,
    controlPayload_schema whole, ?_⟩
  · have many := usable'.count.1
    rwa [List.length_map] at many ⊢
  · have some' : s.samples ≠ [] := List.ne_nil_of_length_pos (by have := usable.count.1; omega)
    rw [List.length_map]
    exact (selectSamples_selects some').few
  · obtain ⟨w, inside, rfl⟩ := List.mem_map.mp member
    have some' : s.samples ≠ [] := List.ne_nil_of_length_pos (by have := usable.count.1; omega)
    obtain ⟨positive, most⟩ := accepted_age (usable.accepted w ((selectSamples_selects some').subset w inside))
    have read : ((sampleJson nowMs w).item "age_ms").bits 64 = BitVec.ofInt 64 (nowMs - w.receivedMs) := by
      simp [sampleJson, Json.item, Json.at?, Json.find, Json.bits]
    rw [read, age_read positive (by omega)]
    omega
  · rw [ClassifyHello, helloSnapshot_helloJson]
    by_cases one : OnePort s.samples
    · rw [(classify_usable usable').1 (ports.mpr one), (classify_usable usable).1 one]
    · rw [(classify_usable usable').2 (mt ports.mp one), (classify_usable usable).2 one]

end MiniRtc.Ice.Punch
