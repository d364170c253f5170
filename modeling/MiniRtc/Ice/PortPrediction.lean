import MiniRtc.Lib.SortedMap

/-! The prediction of the peer's ports from the ports that its candidates were seen at (nat_traversal.h). -/
namespace MiniRtc.Ice.RemotePortPredictor

/-- The ports of one public address of the peer and one of its sockets. -/
structure Group where
  observed : List Nat := []
  predicted : Finset Nat := ∅
deriving DecidableEq

structure Predictor where
  groups : SortedMap String Group := .empty
  predictions : Nat := 0

def kMaxPredictions : Nat := 32

def evenFrom (step : Int) (previous : Nat) : List Nat → Bool
  | [] => true
  | next :: rest => (next : Int) - previous = step && evenFrom step next rest

/-- The step between the ports if it is always the same and not too long, otherwise 0. -/
def observedStep : List Nat → Int
  | first :: second :: third :: rest =>
    let step : Int := second - first
    let step := if evenFrom step second (third :: rest) then step else 0
    if step < -64 ∨ 64 < step then 0 else step
  | _ => 0

/-- Without a step the neighbours of the port, above and below by turns. -/
def offset (step : Int) (i : Nat) : Int :=
  if step ≠ 0 then step * i else ((i + 1) / 2 : Nat) * if i % 2 = 1 then 1 else -1

structure Prediction where
  result : List Nat := []
  predicted : Finset Nat
  predictions : Nat

def predictNext (observed : List Nat) (port : Nat) (step : Int) (p : Prediction) (i : Nat) : Prediction :=
  let candidate : Int := port + offset step i
  if candidate < 1024 ∨ 65535 < candidate ∨ candidate.toNat ∈ observed ∨ candidate.toNat ∈ p.predicted then p
  else
    { result := p.result ++ [candidate.toNat]
      predicted := insert candidate.toNat p.predicted
      predictions := p.predictions + 1 }

/-- The loop from `i` on, for as many times as are left. -/
def predictFrom (observed : List Nat) (port : Nat) (step : Int) : Nat → Nat → Prediction → Prediction
  | 0, _, p => p
  | left + 1, i, p =>
    if p.predictions < kMaxPredictions then
      predictFrom observed port step left (i + 1) (predictNext observed port step p i)
    else p

/-- What is done for the group of the port: the result, the group and the number of predictions afterwards. -/
def Group.observe (state : Group) (predictions port : Nat) : List Nat × Group × Nat :=
  if port ∈ state.observed ∨ 8 ≤ state.observed.length then ([], state, predictions)
  else
    let observed := state.observed ++ [port]
    if observed.length < 2 ∨ kMaxPredictions ≤ predictions then ([], { state with observed }, predictions)
    else
      let p := predictFrom observed port (observedStep observed) 8 1 { predicted := state.predicted, predictions }
      (p.result, { observed, predicted := p.predicted }, p.predictions)

def Predictor.observe (s : Predictor) (group : String) (port : Nat) : List Nat × Predictor :=
  if port = 0 ∨ s.groups.find group = none ∧ 8 ≤ s.groups.entries.length then ([], s)
  else
    let groups := s.groups.emplace group {}
    let (result, state, predictions) := ((groups.find group).getD {}).observe s.predictions port
    (result, { groups := groups.update group state, predictions })

/-! ### The loop -/

section Loop

variable {observed : List Nat} {port : Nat} {step : Int} {before : Finset Nat} {start : Nat} {p : Prediction}

/-- What the loop keeps. `before` and `start` are the predictions it begins with. -/
structure Prediction.Sound (observed : List Nat) (port : Nat) (step : Int) (before : Finset Nat) (start : Nat)
    (p : Prediction) : Prop where
  range : ∀ q ∈ p.result, 1024 ≤ q ∧ q ≤ 65535
  unobserved : ∀ q ∈ p.result, q ∉ observed
  unpredicted : ∀ q ∈ p.result, q ∉ before
  nodup : p.result.Nodup
  predicted : ∀ q, q ∈ p.predicted ↔ q ∈ before ∨ q ∈ p.result
  count : p.predictions = start + p.result.length
  most : p.predictions ≤ kMaxPredictions
  offsets : ∀ q ∈ p.result, ∃ i, 1 ≤ i ∧ i ≤ 8 ∧ (q : Int) = port + offset step i

theorem Prediction.Sound.begin (few : start ≤ kMaxPredictions) :
    Prediction.Sound observed port step before start { predicted := before, predictions := start } := by
  constructor <;> simp [few]

theorem Prediction.Sound.next (sound : p.Sound observed port step before start) {i : Nat} (first : 1 ≤ i)
    (last : i ≤ 8) (more : p.predictions < kMaxPredictions) :
    (predictNext observed port step p i).Sound observed port step before start := by
  unfold predictNext
  dsimp only
  split
  · exact sound
  · rename_i free
    simp only [not_or, not_lt] at free
    obtain ⟨low, high, unobserved, unpredicted⟩ := free
    have new := (sound.predicted _).not.mp unpredicted
    rw [not_or] at new
    have grown : ∀ {q}, q ∈ p.result ++ [((port : Int) + offset step i).toNat] →
        q ∈ p.result ∨ q = ((port : Int) + offset step i).toNat := fun mem => by simpa using mem
    constructor
    · intro q mem
      rcases grown mem with old | rfl
      · exact sound.range q old
      · omega
    · intro q mem
      rcases grown mem with old | rfl
      · exact sound.unobserved q old
      · exact unobserved
    · intro q mem
      rcases grown mem with old | rfl
      · exact sound.unpredicted q old
      · exact new.1
    · exact List.nodup_append_comm.mp (List.nodup_cons.mpr ⟨new.2, sound.nodup⟩)
    · intro q
      simp only [Finset.mem_insert, sound.predicted, List.mem_append, List.mem_singleton]
      tauto
    · simp only [sound.count, List.length_append, List.length_singleton]
      omega
    · exact more
    · intro q mem
      rcases grown mem with old | rfl
      · exact sound.offsets q old
      · exact ⟨i, first, last, by omega⟩

theorem Prediction.Sound.from (sound : p.Sound observed port step before start) {left i : Nat} (first : 1 ≤ i)
    (last : i + left = 9) : (predictFrom observed port step left i p).Sound observed port step before start := by
  induction left generalizing i p with
  | zero => exact sound
  | succ left ih =>
    rw [predictFrom]
    split
    · exact ih (sound.next first (by omega) ‹_›) (by omega) (by omega)
    · exact sound

end Loop

/-! ### One call -/

/-- What a call does for the group of its port. The port is noted, unless it was before or the group is full. -/
structure Group.Step (old : Group) (start port : Nat) (result : List Nat) (new : Group) (predictions : Nat) :
    Prop where
  noted : new.observed = old.observed ∧ (port ∈ old.observed ∨ 8 ≤ old.observed.length) ∧ result = [] ∨
    new.observed = old.observed ++ [port] ∧ old.observed.length < 8
  sound : Prediction.Sound new.observed port (observedStep new.observed) old.predicted start
    ⟨result, new.predicted, predictions⟩

theorem Group.observe_step (old : Group) {start : Nat} (few : start ≤ kMaxPredictions) (port : Nat) :
    Group.Step old start port (old.observe start port).1 (old.observe start port).2.1 (old.observe start port).2.2 := by
  unfold Group.observe
  split
  · rename_i known
    exact ⟨.inl ⟨rfl, known, rfl⟩, .begin few⟩
  · rename_i unknown
    rw [not_or, not_le] at unknown
    dsimp only
    split
    · exact ⟨.inr ⟨rfl, unknown.2⟩, .begin few⟩
    · exact ⟨.inr ⟨rfl, unknown.2⟩, (Prediction.Sound.begin few).from (le_refl 1) rfl⟩

/-- What a call that is not ignored does: a step for its group, and the other groups are as they were. -/
structure Predictor.Moved (s : Predictor) (group : String) (port : Nat) (new : Group) : Prop where
  step : Group.Step ((s.groups.find group).getD {}) s.predictions port (s.observe group port).1 new
    (s.observe group port).2.predictions
  find : ∀ k, (s.observe group port).2.groups.find k = if k = group then some new else s.groups.find k
  free : s.groups.find group = none → s.groups.entries.length < 8
  grows : s.groups.entries.length ≤ (s.observe group port).2.groups.entries.length
  room : s.groups.entries.length ≤ 8 → (s.observe group port).2.groups.entries.length ≤ 8

theorem Predictor.observe_cases (s : Predictor) (few : s.predictions ≤ kMaxPredictions) (group : String) (port : Nat) :
    s.observe group port = ([], s) ∧ (port = 0 ∨ s.groups.find group = none ∧ 8 ≤ s.groups.entries.length) ∨
    ∃ new, s.Moved group port new := by
  by_cases ignored : port = 0 ∨ s.groups.find group = none ∧ 8 ≤ s.groups.entries.length
  · exact .inl ⟨if_pos ignored, ignored⟩
  · have free : s.groups.find group = none → s.groups.entries.length < 8 := by
      intro absent
      by_contra full
      exact ignored (.inr ⟨absent, not_lt.mp full⟩)
    have state : (s.groups.emplace group {}).find group = some ((s.groups.find group).getD {}) := by
      rw [SortedMap.find_emplace]
      cases s.groups.find group <;> simp
    have step := ((s.groups.find group).getD {}).observe_step few port
    have done : s.observe group port =
        ((((s.groups.find group).getD {}).observe s.predictions port).1,
          { groups := (s.groups.emplace group {}).update group
              (((s.groups.find group).getD {}).observe s.predictions port).2.1
            predictions := (((s.groups.find group).getD {}).observe s.predictions port).2.2 }) := by
      rw [observe, if_neg ignored]
      dsimp only
      rw [state]
      rfl
    refine .inr ⟨_, by rw [done]; exact step, fun k => ?_, free, ?_, fun most => ?_⟩
    · rw [done]
      dsimp only
      rw [SortedMap.find_update, state, SortedMap.find_emplace]
      by_cases same : k = group <;> simp [same]
    · rw [done, SortedMap.update, List.length_map]
      cases there : s.groups.find group with
      | none =>
        rw [(SortedMap.emplace_perm there).length_eq]
        exact Nat.le_succ _
      | some old => rw [SortedMap.emplace_present there]
    · rw [done, SortedMap.update, List.length_map]
      cases there : s.groups.find group with
      | none =>
        rw [(SortedMap.emplace_perm there).length_eq]
        exact free there
      | some old =>
        rw [SortedMap.emplace_present there]
        exact most

/-! ### Steps between the ports -/

theorem evenFrom_iff {step : Int} {previous : Nat} {rest : List Nat} :
    evenFrom step previous rest = true ↔ (previous :: rest).IsChain fun a b : Nat => (b : Int) - a = step := by
  induction rest generalizing previous with
  | nil => simp [evenFrom]
  | cons next rest ih => rw [evenFrom, Bool.and_eq_true, decide_eq_true_eq, ih, List.isChain_cons_cons]

theorem observedStep_even {observed : List Nat} {step : Int} (long : 3 ≤ observed.length)
    (even : observed.IsChain fun a b : Nat => (b : Int) - a = step) (low : -64 ≤ step) (high : step ≤ 64) :
    observedStep observed = step := by
  rcases observed with _ | ⟨first, _ | ⟨second, _ | ⟨third, rest⟩⟩⟩
  · simp at long
  · simp at long
  · simp at long
  · obtain ⟨same, others⟩ := List.isChain_cons_cons.mp even
    have all := evenFrom_iff.mpr others
    rw [observedStep, same, if_pos all, if_neg (by omega)]

/-! ### Runs -/

/-- A call and what it returned. -/
structure Observation where
  group : String
  port : Nat
  result : List Nat

structure History where
  state : Predictor := {}
  log : List Observation := []

def History.observe (h : History) (call : String × Nat) : History where
  state := (h.state.observe call.1 call.2).2
  log := h.log ++ [⟨call.1, call.2, (h.state.observe call.1 call.2).1⟩]

def history (calls : List (String × Nat)) : History := calls.foldl History.observe {}

def returned (group : String) (log : List Observation) : List Nat :=
  (log.filter fun o => o.group = group).flatMap Observation.result

theorem returned_concat (group : String) (log : List Observation) (o : Observation) :
    returned group (log ++ [o]) = returned group log ++ if o.group = group then o.result else [] := by
  by_cases same : o.group = group <;> simp [returned, List.filter_append, same]

/-- What every run keeps. A port that was given for a group is among its observed ports unless these are full, and a
group that is missing came when there was no room. -/
structure Kept (h : History) : Prop where
  groups : h.state.groups.entries.length ≤ 8
  sizes : ∀ g known, h.state.groups.find g = some known → known.observed.length ≤ 8
  predicted : ∀ g, ∀ q ∈ returned g h.log, ∃ known, h.state.groups.find g = some known ∧ q ∈ known.predicted
  noted : ∀ o ∈ h.log, o.port = 0 ∨ h.state.groups.find o.group = none ∧ 8 ≤ h.state.groups.entries.length ∨
    ∃ known, h.state.groups.find o.group = some known ∧ (o.port ∈ known.observed ∨ 8 ≤ known.observed.length)
  count : h.state.predictions = (h.log.flatMap Observation.result).length
  most : h.state.predictions ≤ kMaxPredictions
  range : ∀ o ∈ h.log, ∀ q ∈ o.result, 1024 ≤ q ∧ q ≤ 65535
  nodup : ∀ g, (returned g h.log).Nodup

theorem kept_start : Kept {} := by
  constructor <;> simp [returned, SortedMap.empty, SortedMap.find, kMaxPredictions]

section Steps

variable {h : History} {group : String} {port : Nat}

/-- A call that is ignored is noted as one. -/
theorem Kept.ignored (kept : Kept h) (same : h.state.observe group port = ([], h.state))
    (why : port = 0 ∨ h.state.groups.find group = none ∧ 8 ≤ h.state.groups.entries.length) :
    Kept (h.observe (group, port)) := by
  have state : (h.observe (group, port)).state = h.state := by simp [History.observe, same]
  have log : (h.observe (group, port)).log = h.log ++ [⟨group, port, []⟩] := by simp [History.observe, same]
  have results : ∀ g, returned g (h.observe (group, port)).log = returned g h.log := by
    intro g
    rw [log, returned_concat]
    simp
  constructor
  · rw [state]
    exact kept.groups
  · rw [state]
    exact kept.sizes
  · intro g
    rw [results, state]
    exact kept.predicted g
  · intro o mem
    rw [log] at mem
    rw [state]
    rcases List.mem_append.mp mem with old | new
    · exact kept.noted o old
    · rw [List.mem_singleton.mp new]
      exact why.imp_right .inl
  · rw [state, log, List.flatMap_append]
    simpa using kept.count
  · rw [state]
    exact kept.most
  · intro o mem
    rw [log] at mem
    rcases List.mem_append.mp mem with old | new
    · exact kept.range o old
    · rw [List.mem_singleton.mp new]
      simp
  · intro g
    rw [results]
    exact kept.nodup g

/-- The ports that were returned for a group are among the predicted ones of the group. -/
theorem Kept.returned_predicted (kept : Kept h) {q : Nat} (mem : q ∈ returned group h.log) :
    q ∈ ((h.state.groups.find group).getD {}).predicted := by
  obtain ⟨known, there, predicted⟩ := kept.predicted group q mem
  rw [there]
  exact predicted

theorem Group.Step.short {old new : Group} {start predictions : Nat} {result : List Nat}
    (step : Group.Step old start port result new predictions) (short : old.observed.length ≤ 8) :
    new.observed.length ≤ 8 := by
  rcases step.noted with ⟨same, -⟩ | ⟨grown, room⟩
  · rw [same]
    exact short
  · rw [grown, List.length_append, List.length_singleton]
    omega

theorem Group.Step.held {old new : Group} {start predictions : Nat} {result : List Nat}
    (step : Group.Step old start port result new predictions) {q : Nat}
    (held : q ∈ old.observed ∨ 8 ≤ old.observed.length) : q ∈ new.observed ∨ 8 ≤ new.observed.length := by
  rcases step.noted with ⟨same, -⟩ | ⟨grown, room⟩
  · rw [same]
    exact held
  · rw [grown]
    exact .inl (List.mem_append_left _ (held.resolve_right (by omega)))

theorem Group.Step.here {old new : Group} {start predictions : Nat} {result : List Nat}
    (step : Group.Step old start port result new predictions) : port ∈ new.observed ∨ 8 ≤ new.observed.length := by
  rcases step.noted with ⟨same, known, -⟩ | ⟨grown, -⟩
  · rw [same]
    exact known
  · rw [grown]
    exact .inl (by simp)

theorem Kept.moved (kept : Kept h) {new : Group} (moved : h.state.Moved group port new) :
    Kept (h.observe (group, port)) := by
  obtain ⟨step, find, free, grows, room⟩ := moved
  have short : ((h.state.groups.find group).getD {}).observed.length ≤ 8 := by
    cases there : h.state.groups.find group with
    | none => simp
    | some old => exact kept.sizes group old there
  have log : (h.observe (group, port)).log = h.log ++ [⟨group, port, (h.state.observe group port).1⟩] := rfl
  have results : ∀ g, returned g (h.observe (group, port)).log =
      returned g h.log ++ if group = g then (h.state.observe group port).1 else [] := by
    intro g
    rw [log, returned_concat]
  constructor
  · exact room kept.groups
  · intro g known there
    rw [History.observe, find] at there
    split at there
    · cases there
      exact step.short short
    · exact kept.sizes g known there
  · intro g q mem
    rw [results] at mem
    by_cases same : group = g
    · subst same
      rw [if_pos rfl] at mem
      refine ⟨new, by rw [History.observe, find, if_pos rfl], (step.sound.predicted q).mpr ?_⟩
      exact (List.mem_append.mp mem).imp_left kept.returned_predicted
    · rw [if_neg same, List.append_nil] at mem
      rw [History.observe, find, if_neg (Ne.symm same)]
      exact kept.predicted g q mem
  · intro o mem
    rw [log] at mem
    rw [History.observe, find]
    rcases List.mem_append.mp mem with old | last
    · by_cases same : o.group = group
      · rw [if_pos same]
        rcases kept.noted o old with zero | ⟨absent, full⟩ | ⟨known, there, held⟩
        · exact .inl zero
        · rw [same] at absent
          exact absurd (free absent) (not_lt.mpr full)
        · rw [same] at there
          rw [there] at step
          exact .inr (.inr ⟨new, rfl, step.held held⟩)
      · rw [if_neg same]
        rcases kept.noted o old with zero | ⟨absent, full⟩ | known
        · exact .inl zero
        · exact .inr (.inl ⟨absent, full.trans grows⟩)
        · exact .inr (.inr known)
    · rw [List.mem_singleton.mp last, if_pos rfl]
      exact .inr (.inr ⟨new, rfl, step.here⟩)
  · rw [log, List.flatMap_append, List.length_append, ← kept.count, List.flatMap_singleton]
    exact step.sound.count
  · exact step.sound.most
  · intro o mem
    rw [log] at mem
    rcases List.mem_append.mp mem with old | last
    · exact kept.range o old
    · rw [List.mem_singleton.mp last]
      exact step.sound.range
  · intro g
    rw [results]
    by_cases same : group = g
    · subst same
      rw [if_pos rfl]
      refine (kept.nodup group).append step.sound.nodup fun q old last => ?_
      exact step.sound.unpredicted q last (kept.returned_predicted old)
    · rw [if_neg same, List.append_nil]
      exact kept.nodup g

theorem Kept.observe (kept : Kept h) (call : String × Nat) : Kept (h.observe call) := by
  rcases h.state.observe_cases kept.most call.1 call.2 with ⟨same, why⟩ | ⟨new, moved⟩
  · exact kept.ignored same why
  · exact kept.moved moved

end Steps

theorem history_kept (calls : List (String × Nat)) : Kept (history calls) := by
  induction calls using List.reverseRecOn with
  | nil => exact kept_start
  | append_singleton calls call ih =>
    rw [history, List.foldl_append]
    exact ih.observe call

/-- The groups, their ports and the predictions are bounded in every run. A returned port is new to its group, and it
follows the last port in the step of the ports when these have one. -/
theorem predictions_bounded (calls : List (String × Nat)) :
    ((history calls).state.groups.entries.length ≤ 8 ∧
      ∀ e ∈ (history calls).state.groups.entries, e.2.observed.length ≤ 8) ∧
    ((history calls).log.flatMap Observation.result).length ≤ 32 ∧
    (∀ o ∈ (history calls).log, ∀ q ∈ o.result, 1024 ≤ q ∧ q ≤ 65535) ∧
    (∀ group, (returned group (history calls).log).Nodup) ∧
    ∀ group port,
      (∀ q ∈ ((history calls).state.observe group port).1,
        q ≠ port ∧ ∀ o ∈ (history calls).log, o.group = group → o.port ≠ q) ∧
      ∀ known step, ((history calls).state.observe group port).2.groups.find group = some known →
        3 ≤ known.observed.length → known.observed.IsChain (fun a b : Nat => (b : Int) - a = step) →
        step ≠ 0 → -64 ≤ step → step ≤ 64 → ∀ q ∈ ((history calls).state.observe group port).1,
          ∃ last ∈ known.observed.getLast?, ∃ i : Nat, 1 ≤ i ∧ i ≤ 8 ∧ (q : Int) = last + i * step := by
  have kept := history_kept calls
  generalize history calls = h at kept ⊢
  refine ⟨⟨kept.groups, fun e mem => kept.sizes e.1 e.2 (SortedMap.find_eq_some.mpr mem)⟩, ?_, kept.range, kept.nodup,
    fun group port => ?_⟩
  · rw [← kept.count]
    exact kept.most
  · rcases h.state.observe_cases kept.most group port with ⟨same, -⟩ | ⟨new, moved⟩
    · rw [same]
      simp
    · have noted : ∀ q ∈ (h.state.observe group port).1,
          new.observed = ((h.state.groups.find group).getD {}).observed ++ [port] ∧
            ((h.state.groups.find group).getD {}).observed.length < 8 := by
        intro q mem
        rcases moved.step.noted with ⟨-, -, none⟩ | grown
        · rw [none] at mem
          cases mem
        · exact grown
      constructor
      · intro q mem
        obtain ⟨grown, free⟩ := noted q mem
        have unobserved := moved.step.sound.unobserved q mem
        have range := moved.step.sound.range q mem
        rw [grown, List.mem_append, List.mem_singleton, not_or] at unobserved
        refine ⟨unobserved.2, fun o there same equal => ?_⟩
        rcases kept.noted o there with zero | ⟨absent, full⟩ | ⟨known, find, held⟩
        · omega
        · rw [same] at absent
          exact absurd (moved.free absent) (not_lt.mpr full)
        · rw [same] at find
          rw [find, Option.getD_some] at unobserved free
          rcases held with old | full
          · exact unobserved.1 (equal ▸ old)
          · omega
      · intro known step find long even other low high q mem
        obtain ⟨grown, -⟩ := noted q mem
        rw [moved.find, if_pos rfl] at find
        cases find
        obtain ⟨i, first, last, place⟩ := moved.step.sound.offsets q mem
        refine ⟨port, by simp [grown], i, first, last, ?_⟩
        rw [place, observedStep_even long even low high, offset, if_pos other, mul_comm]

end MiniRtc.Ice.RemotePortPredictor
