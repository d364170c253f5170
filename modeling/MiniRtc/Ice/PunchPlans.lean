import MiniRtc.Ice.PunchAgreement

/-! The plans that two sides agree to (punch_scheduler.cpp, punch_runtime.cpp): where a plan aims, and
what it promises of the budget to both. -/
namespace MiniRtc.Ice.Punch
open Wire

variable {float : BitVec 64 → List Char} {sha : Bytes → Block 32} {offer answer plan : Json}

/-! ### The plan that is made -/

/-- A plan with the side it anchors, in plain numbers. -/
theorem makePunchPlan_eq {anchorOffer : Bool} (sides : Sides float offer answer anchorOffer) :
    MakePunchPlan float sha offer answer =
      if remainingBoth offer answer ≤
          agreedNumber (offer.item "budget") (answer.item "budget") "ice_finish_reserve_ms" + 3000 then none
      else some (planJson float sha offer answer (mergeBudget (offer.item "budget") (answer.item "budget"))
        (agreedDuration offer answer) anchorOffer) := by
  rw [makePunchPlan_sides sides, planFor_eq sides]

/-- What there is to a plan that is made. -/
structure Made (float : BitVec 64 → List Char) (sha : Bytes → Block 32) (offer answer plan : Json) (anchorOffer : Bool) :
    Prop where
  sides : Sides float offer answer anchorOffer
  enough : agreedNumber (offer.item "budget") (answer.item "budget") "ice_finish_reserve_ms" + 3000 <
    remainingBoth offer answer
  plan : plan = planJson float sha offer answer (mergeBudget (offer.item "budget") (answer.item "budget"))
    (agreedDuration offer answer) anchorOffer

theorem makePunchPlan_made (some' : MakePunchPlan float sha offer answer = some plan) :
    ∃ anchorOffer, Made float sha offer answer plan anchorOffer := by
  obtain ⟨anchorOffer, sides, -⟩ := makePunchPlan_some some'
  rw [makePunchPlan_eq sides] at some'
  split at some'
  · exact absurd some' (by simp)
  rename_i enough
  exact ⟨anchorOffer, sides, not_le.mp enough, (Option.some.inj some').symm⟩

theorem remainingBoth_comm (offer answer : Json) : remainingBoth offer answer = remainingBoth answer offer :=
  min_comm _ _

theorem agreedDuration_comm (offer answer : Json) : agreedDuration offer answer = agreedDuration answer offer := by
  rw [agreedDuration, agreedDuration, remainingBoth_comm, agreedNumber_comm (offer.item "budget"),
    agreedNumber_comm (offer.item "budget")]

/-- The sides change places, and the plan anchors the other side of the two. -/
theorem Made.swap {anchorOffer : Bool} (made : Made float sha offer answer plan anchorOffer) :
    MakePunchPlan float sha answer offer =
      some (planJson float sha answer offer (mergeBudget (answer.item "budget") (offer.item "budget"))
        (agreedDuration offer answer) (!anchorOffer)) := by
  have enough := made.enough
  rw [makePunchPlan_eq made.sides.swap, remainingBoth_comm, agreedNumber_comm, agreedDuration_comm answer offer]
  exact if_neg (not_le.mpr enough)

/-! ### The samples that a plan aims at -/

/-- A HELLO that was made of a snapshot, with the mapping that the snapshot then had. -/
def HelloOf (float : BitVec 64 → List Char) (s : PunchMappingSnapshot) (mapping : PunchMapping) (h : Json) : Prop :=
  ∃ (c : PunchConfig) (generation : BitVec 64) (nowMs remainingMs : Int) (retry : Bool),
    PunchHello float s c generation nowMs remainingMs retry = some h ∧
      mapping = ClassifyPunchMapping s generation nowMs c.mappingSampleMaxAgeMs

variable {s : PunchMappingSnapshot} {mapping : PunchMapping} {h : Json}

theorem HelloOf.reports (hello : HelloOf float s mapping h) : Reports s mapping h := by
  obtain ⟨c, generation, nowMs, remainingMs, retry, made, rfl⟩ := hello
  exact punchHello_reports made

/-- The first sample of a HELLO shows the address that all samples of the snapshot show, and the port
of a stable mapping. -/
theorem HelloOf.first (hello : HelloOf float s mapping h) :
    (∀ a ∈ s.samples, (((h.item "samples").items.headD .null).item "ip") = .string a.mappedIp) ∧
      (mapping = .stableObserved → ∀ a ∈ s.samples,
        (((h.item "samples").items.headD .null).item "port") = .unsigned (a.mappedPort.setWidth 64)) := by
  obtain ⟨c, generation, nowMs, remainingMs, retry, made, rfl⟩ := hello
  obtain ⟨-, usable, -, rfl⟩ := punchHello_some made
  have some' : s.samples ≠ [] := List.ne_nil_of_length_pos (by have := usable.count.1; omega)
  have selects := selectSamples_selects some'
  obtain ⟨first, inside, -⟩ := selects.servers usable.servers
  have head : ∃ v ∈ s.samples, ((helloJson s c nowMs remainingMs retry).item "samples").items.headD .null =
      sampleJson nowMs v := by
    have items : ((helloJson s c nowMs remainingMs retry).item "samples").items =
        (selectSamples s.samples).map (sampleJson nowMs) := rfl
    have subset := selects.subset
    rw [items]
    cases chosen : selectSamples s.samples with
    | nil =>
      rw [chosen] at inside
      exact absurd inside List.not_mem_nil
    | cons v rest =>
      rw [chosen] at subset
      exact ⟨v, subset v List.mem_cons_self, rfl⟩
  obtain ⟨v, member, same⟩ := head
  rw [same]
  constructor
  · intro a ha
    rw [usable.ip a ha v member]
    rfl
  · intro stable a ha
    rw [(classify_stable_iff.mp stable).2 a ha v member]
    rfl

/-- A plan aims at the mappings that two snapshots show. -/
structure Aims (plan : Json) (anchor pool : PunchMappingSnapshot) : Prop where
  endpoint : ∀ a ∈ anchor.samples, (plan.item "anchor_endpoint").item "ip" = .string a.mappedIp ∧
    (plan.item "anchor_endpoint").item "port" = .unsigned (a.mappedPort.setWidth 64)
  peer : ∀ a ∈ pool.samples, plan.item "peer_ip" = .string a.mappedIp

theorem Made.aims {anchorOffer : Bool} {s s' : PunchMappingSnapshot} {mapping mapping' : PunchMapping}
    (made : Made float sha offer answer plan anchorOffer) (hello : HelloOf float s mapping offer)
    (hello' : HelloOf float s' mapping' answer) :
    plan.item "anchor" = .string (if anchorOffer then "offer" else "answer") ∧
      Aims plan (if anchorOffer then s else s') (if anchorOffer then s' else s) := by
  obtain ⟨anchor, ip', port, peer, -⟩ := @planJson_item float sha offer answer
    (mergeBudget (offer.item "budget") (answer.item "budget")) (agreedDuration offer answer) anchorOffer
  rw [← made.plan] at anchor ip' port peer
  have stable := made.sides.anchor
  refine ⟨anchor, ?_, ?_⟩
  · intro a member
    rw [ip', port]
    cases anchorOffer with
    | true =>
      rw [if_pos rfl, hello.reports.mapping] at stable
      exact ⟨hello.first.1 a member, hello.first.2 stable a member⟩
    | false =>
      rw [if_neg Bool.false_ne_true, hello'.reports.mapping] at stable
      exact ⟨hello'.first.1 a member, hello'.first.2 stable a member⟩
  · intro a member
    rw [peer]
    cases anchorOffer with
    | true => exact hello'.first.1 a member
    | false => exact hello.first.1 a member

/-! ### Two sides with a plan -/

/-- Two servers see a socket at these two ports. -/
def observed (p q : BitVec 16) : PunchMappingSnapshot where
  socket := 3
  generation := 9
  localIp := "10.0.0.2"
  foundation := "1"
  localPort := 5000
  samples := [⟨3, 9, "74.125.1.1", "8.8.4.4", 3478, p, 990, 1⟩, ⟨3, 9, "74.125.1.2", "8.8.4.4", 3478, q, 995, 2⟩]

def observedHello (p q : BitVec 16) : Json := .object [
  ("base", .object [
    ("component", .unsigned 1),
    ("foundation", .string "1"),
    ("ip", .string "10.0.0.2"),
    ("port", .unsigned 5000),
    ("socket", .unsigned 3)]),
  ("budget", PunchBudgetJson {}),
  ("mode", .string "pool-wide"),
  ("remaining_ms", .integer 20000),
  ("samples", .array ((observed p q).samples.map (sampleJson 1000)))]

/-- SHA-256 of the two HELLOs below. -/
def observedDigest (bytes : Bytes) : Block 32 :=
  if bytes = ControlPayload (fun _ => []) .hello (observedHello 4000 4000) then
    ⟨[33, 127, 21, 218, 213, 2, 215, 75, 11, 85, 153, 48, 26, 134, 227, 168, 70, 24, 14, 111, 75, 43, 144, 144, 31, 101,
      101, 152, 108, 170, 51, 33], rfl⟩
  else
    ⟨[0, 210, 16, 59, 200, 220, 58, 16, 16, 207, 75, 98, 224, 176, 174, 133, 116, 197, 234, 40, 94, 60, 241, 183, 87, 82,
      145, 116, 187, 129, 15, 133], rfl⟩

theorem observed_usable {p q : BitVec 16} (hp : p ≠ 0) (hq : q ≠ 0) : Usable (observed p q) 9 1000 15000 := by
  have accepted : ∀ server ∈ ["74.125.1.1", "74.125.1.2"], ∀ port : BitVec 16, port ≠ 0 →
      ∀ receivedMs ∈ [(990 : Int), 995], ∀ sequence,
      (⟨3, 9, server, "8.8.4.4", 3478, port, receivedMs, sequence⟩ : PunchMappingSample).rejected 3 9 1000 15000 =
        false := by
    intro server member port positive receivedMs time sequence
    have reachable : isPublicIpv4ForPrediction server = true ∧ isPublicIpv4ForPrediction "8.8.4.4" = true := by
      revert server
      decide +kernel
    have recent : receivedMs ≤ 1000 ∧ 1000 - receivedMs ≤ 15000 := by
      revert receivedMs
      decide
    simp [PunchMappingSample.rejected, reachable.1, reachable.2, recent.1, recent.2]
    exact positive
  refine ⟨show (3 : BitVec 64) ≠ 0 by decide, ⟨by decide, rfl⟩, ⟨show (5000 : BitVec 16) ≠ 0 by decide,
    show validIpv4 "10.0.0.2" = true by decide +kernel, rfl, show "1" ≠ "" by decide⟩, ?_, ?_, ?_, ?_⟩
  · exact ⟨le_rfl, show 2 ≤ 32 by decide⟩
  · refine List.forall_mem_cons.mpr ⟨?_, List.forall_mem_singleton.mpr ?_⟩
    · exact accepted _ (by simp) _ hp _ (by simp) _
    · exact accepted _ (by simp) _ hq _ (by simp) _
  · exact List.forall_mem_cons.mpr ⟨List.forall_mem_cons.mpr ⟨rfl, List.forall_mem_singleton.mpr rfl⟩,
      List.forall_mem_singleton.mpr (List.forall_mem_cons.mpr ⟨rfl, List.forall_mem_singleton.mpr rfl⟩)⟩
  · exact ⟨_, List.mem_cons_self, _, List.mem_cons_of_mem _ List.mem_cons_self,
      show "74.125.1.1" ≠ "74.125.1.2" by decide⟩

theorem observedHello_eq (p q : BitVec 16) : helloJson (observed p q) {} 1000 20000 false = observedHello p q := by
  have sorted : (observed p q).samples.mergeSort (fun a b => decide (a.sequence.toNat ≤ b.sequence.toNat)) =
      (observed p q).samples := by
    apply List.mergeSort_of_pairwise
    simp [observed]
  have selected : selectSamples (observed p q).samples = (observed p q).samples := by
    unfold selectSamples
    rw [sorted]
    simp only
    by_cases same : q = p
    · simp [observed, contradiction, addServers, same]
    · simp [observed, contradiction, addServers, same]
  rw [helloJson, selected]
  rfl

theorem observed_payload {h : Json} (valid : schema .hello h = true) (width : Json.width (h.dump fun _ => []) = 566) :
    ControlPayload (fun _ => []) .hello h ≠ [] := by
  rw [ControlPayload, if_neg (by rw [valid]; exact Bool.noConfusion)]
  simp only
  rw [if_pos (by rw [Json.length_utf8, width]; decide)]
  intro nothing
  have length := congrArg List.length nothing
  rw [Json.length_utf8, width] at length
  exact absurd length (by decide)

theorem observed_widths : Json.width ((observedHello 4000 4000).dump fun _ => []) = 566 ∧
    Json.width ((observedHello 5001 5002).dump fun _ => []) = 566 := by
  simp only [observedHello, observed, sampleJson, PunchBudgetJson, Json.dump, Json.dumpFields, Json.dumpItems,
    Json.dumpString, List.map_cons, List.map_nil]
  repeat rw [String.toList_ofList]
  decide +kernel

theorem observed_hello {p q : BitVec 16} (hp : p ≠ 0) (hq : q ≠ 0)
    (whole : ControlPayload (fun _ => []) .hello (observedHello p q) ≠ []) :
    PunchHello (fun _ => []) (observed p q) {} 9 1000 20000 false = some (observedHello p q) := by
  have known : ClassifyPunchMapping (observed p q) 9 1000 15000 ≠ .unknown := by
    by_cases one : OnePort (observed p q).samples
    · rw [(classify_usable (observed_usable hp hq)).1 one]
      decide
    · rw [(classify_usable (observed_usable hp hq)).2 one]
      decide
  rw [PunchHello, if_neg, observedHello_eq, if_neg whole]
  rintro (off | invalid | late | long | unknown)
  · exact absurd off (by decide)
  · exact absurd invalid (by decide)
  · exact absurd late (by decide)
  · exact absurd long (by decide)
  · exact known unknown

/-- One side has a stable mapping, the other side has not. -/
theorem observed_hellos :
    HelloOf (fun _ => []) (observed 4000 4000) .stableObserved (observedHello 4000 4000) ∧
      HelloOf (fun _ => []) (observed 5001 5002) .dependentObserved (observedHello 5001 5002) ∧
      Sides (fun _ => []) (observedHello 4000 4000) (observedHello 5001 5002) true := by
  have offered := observed_payload (h := observedHello 4000 4000) (by decide +kernel) observed_widths.1
  have answered := observed_payload (h := observedHello 5001 5002) (by decide +kernel) observed_widths.2
  have stable : ClassifyPunchMapping (observed 4000 4000) 9 1000 15000 = .stableObserved :=
    (classify_usable (observed_usable (by decide) (by decide))).1 (by unfold OnePort; decide)
  have dependent : ClassifyPunchMapping (observed 5001 5002) 9 1000 15000 = .dependentObserved :=
    (classify_usable (observed_usable (by decide) (by decide))).2 (by unfold OnePort; decide)
  have first : HelloOf (fun _ => []) (observed 4000 4000) .stableObserved (observedHello 4000 4000) :=
    ⟨{}, 9, 1000, 20000, false, observed_hello (by decide) (by decide) offered, stable.symm⟩
  have second : HelloOf (fun _ => []) (observed 5001 5002) .dependentObserved (observedHello 5001 5002) :=
    ⟨{}, 9, 1000, 20000, false, observed_hello (by decide) (by decide) answered, dependent.symm⟩
  exact ⟨first, second, offered, answered, rfl, first.reports.mapping, second.reports.mapping⟩

theorem observed_plan : MakePunchPlan (fun _ => []) observedDigest (observedHello 4000 4000) (observedHello 5001 5002) =
    some (planJson (fun _ => []) observedDigest (observedHello 4000 4000) (observedHello 5001 5002)
      (mergeBudget (PunchBudgetJson {}) (PunchBudgetJson {})) 10000 true) := by
  have enough : ¬remainingBoth (observedHello 4000 4000) (observedHello 5001 5002) ≤
      agreedNumber ((observedHello 4000 4000).item "budget") ((observedHello 5001 5002).item "budget")
        "ice_finish_reserve_ms" + 3000 := by
    decide +kernel
  have duration : agreedDuration (observedHello 4000 4000) (observedHello 5001 5002) = 10000 := by
    decide +kernel
  rw [makePunchPlan_eq observed_hellos.2.2, if_neg enough, duration]
  rfl

/-! ### Where a plan aims -/

/-- A HELLO reports the mapping of its snapshot, and a plan aims at what the two snapshots show. -/
theorem hello_keeps_mapping (float : BitVec 64 → List Char) (sha : Bytes → Block 32) :
    (∀ (s : PunchMappingSnapshot) (c : PunchConfig) (generation : BitVec 64) (nowMs remainingMs : Int) (retry : Bool)
      (h : Json), PunchHello float s c generation nowMs remainingMs retry = some h →
      Reports s (ClassifyPunchMapping s generation nowMs c.mappingSampleMaxAgeMs) h) ∧
    ∀ (s s' : PunchMappingSnapshot) (mapping mapping' : PunchMapping) (offer answer plan : Json),
      HelloOf float s mapping offer → HelloOf float s' mapping' answer →
      MakePunchPlan float sha offer answer = some plan →
      (plan.item "anchor" = .string "offer" ∧ mapping = .stableObserved ∧ mapping' = .dependentObserved ∧ Aims plan s s') ∨
        (plan.item "anchor" = .string "answer" ∧ mapping = .dependentObserved ∧ mapping' = .stableObserved ∧
          Aims plan s' s) := by
  constructor
  · intro s c generation nowMs remainingMs retry h made
    exact punchHello_reports made
  · intro s s' mapping mapping' offer answer plan hello hello' some'
    obtain ⟨anchorOffer, made⟩ := makePunchPlan_made some'
    have aims := made.aims hello hello'
    have anchor := made.sides.anchor
    have pool := made.sides.pool
    cases anchorOffer with
    | true =>
      rw [if_pos rfl] at anchor pool
      rw [hello.reports.mapping] at anchor
      rw [hello'.reports.mapping] at pool
      exact Or.inl ⟨aims.1, anchor, pool, aims.2⟩
    | false =>
      rw [if_neg Bool.false_ne_true] at anchor pool
      rw [hello'.reports.mapping] at anchor
      rw [hello.reports.mapping] at pool
      exact Or.inr ⟨aims.1, pool, anchor, aims.2⟩

theorem hello_keeps_mapping_observed : Aims (planJson (fun _ => []) observedDigest (observedHello 4000 4000)
    (observedHello 5001 5002) (mergeBudget (PunchBudgetJson {}) (PunchBudgetJson {})) 10000 true)
    (observed 4000 4000) (observed 5001 5002) := by
  rcases (hello_keeps_mapping (fun _ => []) observedDigest).2 _ _ _ _ _ _ _ observed_hellos.1 observed_hellos.2.1
    observed_plan with made | swapped
  · exact made.2.2.2
  · exact absurd swapped.2.1 (by decide)

/-! ### What a plan promises -/

/-- The number as the sender of the JSON means it, which `uint` cuts to 32 bits. -/
def number64 : Json → Nat
  | .integer v | .unsigned v => v.toNat
  | _ => 0

theorem uint_whole {j : Json} {low high : Nat} (valid : number j low high = true) (small : high < 2 ^ 32) :
    j.uint = number64 j := by
  obtain ⟨v, form, -, most⟩ := number_cases valid
  have whole : v.toNat % 2 ^ 32 = v.toNat := Nat.mod_eq_of_lt (by omega)
  rcases form with rfl | rfl
  · exact whole
  · exact whole

theorem budget_whole {j : Json} (valid : budget j = true) {name : String} (member : name ∈ budgetNames) :
    (j.item name).uint = number64 (j.item name) := by
  obtain ⟨⟨name, low, high⟩, inside, rfl⟩ := List.mem_map.mp member
  exact uint_whole (budget_number valid inside) (numbers_small _ inside)

theorem mode_eq {h h' : Json} (valid : schema .hello h = true) (valid' : schema .hello h' = true)
    (same : (h.item "mode").text = (h'.item "mode").text) : h.item "mode" = h'.item "mode" := by
  have string : ∀ {h : Json}, schema .hello h = true → h.item "mode" = .string (h.item "mode").text := by
    intro h valid
    rw [schema, if_pos rfl] at valid
    simp only [Bool.and_eq_true, Bool.or_eq_true] at valid
    obtain ⟨⟨⟨-, mode⟩, -⟩, -⟩ := valid
    cases found : h.item "mode" with
    | string text => rfl
    | _ =>
      rw [found] at mode
      simp [Json.isString] at mode
  rw [string valid, string valid', same]

/-- The numbers of a configuration that takes a valid budget over are in range. -/
theorem agreedConfig_valid {plan : Json} {config : PunchConfig} (valid : config.validate = true)
    (sound : budget (plan.item "budget") = true) (time : number (plan.item "duration_ms") 1 15000 = true) :
    (Context.agreedConfig config plan).validate = true := by
  have inside : ∀ {name : String} {low high : Nat}, (name, low, high) ∈ budgetNumbers →
      low ≤ ((plan.item "budget").item name).uint ∧ ((plan.item "budget").item name).uint ≤ high :=
    fun member => number_uint (budget_number sound member) (numbers_small _ member)
  have sockets := inside (show ("pool_size", 1, 128) ∈ budgetNumbers by decide)
  have ports := inside (show ("target_port_count", 1, 1024) ∈ budgetNumbers by decide)
  have rate := inside (show ("probe_pps", 1, 200) ∈ budgetNumbers by decide)
  have burst := inside (show ("burst_packets", 1, 8) ∈ budgetNumbers by decide)
  have rounds := inside (show ("pool_probe_rounds", 1, 3) ∈ budgetNumbers by decide)
  have reserve := inside (show ("ice_finish_reserve_ms", 3000, 15000) ∈ budgetNumbers by decide)
  have probes := inside (show ("probe_packet_budget", 1, 1024) ∈ budgetNumbers by decide)
  have controls := inside (show ("control_packet_budget", 1, 48) ∈ budgetNumbers by decide)
  have promoted := inside (show ("promoted_endpoint_limit", 1, 8) ∈ budgetNumbers by decide)
  have duration := number_uint time (by decide)
  simp only [PunchConfig.validate, Bool.and_eq_true, decide_eq_true_eq] at valid ⊢
  simp only [Context.agreedConfig]
  omega

theorem one_le_probeLimit {config : PunchConfig} (valid : config.validate = true) (ackReserve : Nat) :
    1 ≤ PunchProbeBudget.ProbeLimit config ackReserve := by
  simp only [PunchConfig.validate, Bool.and_eq_true, decide_eq_true_eq] at valid
  have positive : 1 ≤ config.probePacketBudget := by omega
  unfold PunchProbeBudget.ProbeLimit
  omega

/-- What a plan promises to both sides. -/
structure Agreed (float : BitVec 64 → List Char) (sha : Bytes → Block 32) (offer answer plan : Json) : Prop where
  hellos : ∀ h ∈ [offer, answer], schema .hello h = true ∧ ControlPayload float .hello h ≠ []
  mode : offer.item "mode" = answer.item "mode"
  sides : (ClassifyHello offer = .stableObserved ∧ ClassifyHello answer = .dependentObserved ∧
      plan.item "anchor" = .string "offer") ∨
    (ClassifyHello offer = .dependentObserved ∧ ClassifyHello answer = .stableObserved ∧
      plan.item "anchor" = .string "answer")
  smaller : ∀ h ∈ [offer, answer], ∀ name ∈ budgetNames, name ≠ "ice_finish_reserve_ms" →
    number64 ((plan.item "budget").item name) ≤ number64 ((h.item "budget").item name)
  reserve : ∀ h ∈ [offer, answer], number64 ((h.item "budget").item "ice_finish_reserve_ms") ≤
    number64 ((plan.item "budget").item "ice_finish_reserve_ms")
  rounds : ∀ h ∈ [offer, answer], 1 ≤ number64 (plan.item "duration_ms") ∧
    number64 (plan.item "duration_ms") ≤ number64 ((h.item "budget").item "round_duration_ms")
  finish : ∀ h ∈ [offer, answer], number64 (plan.item "duration_ms") +
    number64 ((plan.item "budget").item "ice_finish_reserve_ms") + 3000 ≤ number64 (h.item "remaining_ms")
  /-- Nothing is cut to 32 bits, and no sum or difference wraps. -/
  whole : (∀ j ∈ [offer.item "budget", answer.item "budget", plan.item "budget"], ∀ name ∈ budgetNames,
      (j.item name).uint = number64 (j.item name)) ∧
    (∀ j ∈ [offer.item "remaining_ms", answer.item "remaining_ms", plan.item "duration_ms"], j.uint = number64 j) ∧
    number64 ((plan.item "budget").item "ice_finish_reserve_ms") + 3000 < 2 ^ 32 ∧
    number64 (plan.item "duration_ms") = min (number64 ((plan.item "budget").item "round_duration_ms"))
      (min (number64 (offer.item "remaining_ms")) (number64 (answer.item "remaining_ms")) -
        number64 ((plan.item "budget").item "ice_finish_reserve_ms") - 3000)
  prepare : schema .prepare plan = true
  config : ∀ config : PunchConfig, config.validate = true → (Context.agreedConfig config plan).validate = true ∧
    ∀ ackReserve, 1 ≤ PunchProbeBudget.ProbeLimit (Context.agreedConfig config plan) ackReserve
  swapped : ∃ plan', MakePunchPlan float sha answer offer = some plan' ∧
    (∀ name, (plan'.item "budget").item name = (plan.item "budget").item name) ∧
    budget (plan'.item "budget") = true ∧ plan'.item "duration_ms" = plan.item "duration_ms" ∧
    (plan'.item "anchor" = .string "answer" ↔ plan.item "anchor" = .string "offer") ∧
    (plan'.item "anchor_endpoint").item "ip" = (plan.item "anchor_endpoint").item "ip" ∧
    (plan'.item "anchor_endpoint").item "port" = (plan.item "anchor_endpoint").item "port" ∧
    plan'.item "peer_ip" = plan.item "peer_ip"

/-- The numbers of a plan that is made, each below the bound of its field. -/
theorem Made.numbers {anchorOffer : Bool} (made : Made float sha offer answer plan anchorOffer) :
    budget (plan.item "budget") = true ∧
      (∀ name ∈ budgetNames, number64 ((plan.item "budget").item name) =
        agreedNumber (offer.item "budget") (answer.item "budget") name) ∧
      number64 (plan.item "duration_ms") = agreedDuration offer answer ∧
      number (plan.item "duration_ms") 1 15000 = true ∧
      1 ≤ agreedDuration offer answer ∧ agreedDuration offer answer ≤ 15000 := by
  have first := hello_of_schema (controlPayload_schema made.sides.offered)
  have second := hello_of_schema (controlPayload_schema made.sides.answered)
  have merged := mergeBudget_valid first.budget second.budget
  obtain ⟨roundLeast, roundMost⟩ := agreedNumber_mem first.budget second.budget
    (show ("round_duration_ms", 1, 15000) ∈ budgetNumbers by decide)
  have enough := made.enough
  have time : 1 ≤ agreedDuration offer answer ∧ agreedDuration offer answer ≤ 15000 := by
    unfold agreedDuration
    omega
  obtain ⟨-, -, -, -, budget', duration, -⟩ := @planJson_item float sha offer answer
    (mergeBudget (offer.item "budget") (answer.item "budget")) (agreedDuration offer answer) anchorOffer
  rw [← made.plan] at budget' duration
  rw [budget', duration]
  have counted := number_ofNat time.1 time.2 (show 15000 < 2 ^ 64 by decide)
  refine ⟨merged, fun name member => ?_, ?_, counted, time⟩
  · obtain ⟨⟨name, low, high⟩, inside, rfl⟩ := List.mem_map.mp member
    rw [← budget_whole merged member, mergeBudget_uint first.budget second.budget inside]
  · rw [← uint_whole counted (by decide)]
    exact uint_ofNat (by omega)

theorem Made.agreed {anchorOffer : Bool} (made : Made float sha offer answer plan anchorOffer) :
    Agreed float sha offer answer plan := by
  have valid := controlPayload_schema made.sides.offered
  have valid' := controlPayload_schema made.sides.answered
  have first := hello_of_schema valid
  have second := hello_of_schema valid'
  obtain ⟨sound, agreed, duration, counted, least, most⟩ := made.numbers
  have mine : ∀ name ∈ budgetNames, ((offer.item "budget").item name).uint = number64 ((offer.item "budget").item name) :=
    fun name member => budget_whole first.budget member
  have theirs : ∀ name ∈ budgetNames,
      ((answer.item "budget").item name).uint = number64 ((answer.item "budget").item name) :=
    fun name member => budget_whole second.budget member
  have reserved : "ice_finish_reserve_ms" ∈ budgetNames := by decide
  have round : "round_duration_ms" ∈ budgetNames := by decide
  have left : (offer.item "remaining_ms").uint = number64 (offer.item "remaining_ms") :=
    uint_whole first.remaining (by decide)
  have left' : (answer.item "remaining_ms").uint = number64 (answer.item "remaining_ms") :=
    uint_whole second.remaining (by decide)
  have both : remainingBoth offer answer =
      min (number64 (offer.item "remaining_ms")) (number64 (answer.item "remaining_ms")) := by
    rw [remainingBoth, left, left']
  have enough := made.enough
  have most' := (agreedNumber_mem first.budget second.budget
    (show ("ice_finish_reserve_ms", 3000, 15000) ∈ budgetNumbers by decide)).2
  have formula : agreedDuration offer answer = min (number64 ((plan.item "budget").item "round_duration_ms"))
      (remainingBoth offer answer - number64 ((plan.item "budget").item "ice_finish_reserve_ms") - 3000) := by
    rw [agreedDuration, agreed _ reserved, agreed _ round]
  have prepared : schema .prepare plan = true := by
    rw [made.plan]
    exact planJson_schema sha ⟨first_sample made.sides.offered made.sides.known.1,
      first_sample made.sides.answered made.sides.known.2, mergeBudget_valid first.budget second.budget, least, most⟩ _
  have side := (@planJson_item float sha offer answer (mergeBudget (offer.item "budget") (answer.item "budget"))
    (agreedDuration offer answer) anchorOffer).1
  rw [← made.plan] at side
  exact {
    hellos := List.forall_mem_cons.mpr ⟨⟨valid, made.sides.offered⟩, List.forall_mem_singleton.mpr
      ⟨valid', made.sides.answered⟩⟩
    mode := mode_eq valid valid' made.sides.mode
    sides := by
      have anchor := made.sides.anchor
      have pool := made.sides.pool
      cases anchorOffer with
      | true => exact Or.inl ⟨anchor, pool, side⟩
      | false => exact Or.inr ⟨pool, anchor, side⟩
    smaller := by
      intro h member name inside other
      rw [agreed name inside, agreedNumber, if_neg other, mine name inside, theirs name inside]
      rcases List.mem_cons.mp member with rfl | member
      · exact min_le_left _ _
      · rw [List.mem_singleton.mp member]
        exact min_le_right _ _
    reserve := by
      intro h member
      rw [agreed _ reserved, agreedNumber, if_pos rfl, mine _ reserved, theirs _ reserved]
      rcases List.mem_cons.mp member with rfl | member
      · exact le_max_left _ _
      · rw [List.mem_singleton.mp member]
        exact le_max_right _ _
    rounds := by
      intro h member
      have below : agreedDuration offer answer ≤
          agreedNumber (offer.item "budget") (answer.item "budget") "round_duration_ms" := min_le_left _ _
      rw [agreedNumber, if_neg (by decide), mine _ round, theirs _ round] at below
      rw [duration]
      refine ⟨least, below.trans ?_⟩
      rcases List.mem_cons.mp member with rfl | member
      · exact min_le_left _ _
      · rw [List.mem_singleton.mp member]
        exact min_le_right _ _
    finish := by
      intro h member
      have fits : agreedDuration offer answer + number64 ((plan.item "budget").item "ice_finish_reserve_ms") + 3000 ≤
          remainingBoth offer answer := by
        rw [formula, agreed _ reserved]
        omega
      rw [duration]
      refine fits.trans ?_
      rw [both]
      rcases List.mem_cons.mp member with rfl | member
      · exact min_le_left _ _
      · rw [List.mem_singleton.mp member]
        exact min_le_right _ _
    whole := by
      have cut : (plan.item "duration_ms").uint = number64 (plan.item "duration_ms") := uint_whole counted (by decide)
      refine ⟨?_, ?_, ?_, ?_⟩
      · exact List.forall_mem_cons.mpr ⟨mine, List.forall_mem_cons.mpr ⟨theirs, List.forall_mem_singleton.mpr
          fun name member => budget_whole sound member⟩⟩
      · exact List.forall_mem_cons.mpr ⟨left, List.forall_mem_cons.mpr ⟨left', List.forall_mem_singleton.mpr cut⟩⟩
      · rw [agreed _ reserved]
        omega
      · rw [duration, formula, both]
    prepare := prepared
    config := by
      intro config sane
      have accepted := agreedConfig_valid sane sound counted
      exact ⟨accepted, one_le_probeLimit accepted⟩
    swapped := by
      refine ⟨_, made.swap, ?_⟩
      obtain ⟨anchor, address, port, peer, merged, time, -⟩ := @planJson_item float sha offer answer
        (mergeBudget (offer.item "budget") (answer.item "budget")) (agreedDuration offer answer) anchorOffer
      obtain ⟨anchor', address', port', peer', merged', time', -⟩ := @planJson_item float sha answer offer
        (mergeBudget (answer.item "budget") (offer.item "budget")) (agreedDuration offer answer) (!anchorOffer)
      rw [made.plan, anchor, address, port, peer, merged, time, anchor', address', port', peer', merged', time']
      refine ⟨fun name => ?_, mergeBudget_valid second.budget first.budget, rfl, ?_⟩
      · rw [mergeBudget_item second.budget, mergeBudget_item first.budget, agreedNumber_comm]
      · cases anchorOffer with
        | true => exact ⟨⟨fun _ => rfl, fun _ => rfl⟩, rfl, rfl, rfl⟩
        | false =>
          have apart : Json.string "offer" ≠ .string "answer" := by simp
          exact ⟨⟨fun same => absurd same apart, fun same => absurd same.symm apart⟩, rfl, rfl, rfl⟩ }

/-- A plan keeps to the limits of both sides, and both compute it. -/
theorem makePunchPlan_agreed (float : BitVec 64 → List Char) (sha : Bytes → Block 32) {offer answer plan : Json}
    (some' : MakePunchPlan float sha offer answer = some plan) : Agreed float sha offer answer plan := by
  obtain ⟨anchorOffer, made⟩ := makePunchPlan_made some'
  exact made.agreed

theorem makePunchPlan_agreed_observed : Agreed (fun _ => []) observedDigest (observedHello 4000 4000)
    (observedHello 5001 5002) (planJson (fun _ => []) observedDigest (observedHello 4000 4000) (observedHello 5001 5002)
      (mergeBudget (PunchBudgetJson {}) (PunchBudgetJson {})) 10000 true) :=
  makePunchPlan_agreed (fun _ => []) observedDigest observed_plan

end MiniRtc.Ice.Punch
