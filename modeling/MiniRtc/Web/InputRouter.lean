import MiniRtc.Lib.Bytes
import MiniRtc.Lib.Json

/-! `WebInputRouter` (web_input_router.h).
A reliable control message opens an epoch; motion of an epoch is delivered after the control
that opened it and before the next one, whatever order the two channels arrive in. The lock
is held over a whole call, so a run is a sequence of calls. -/
namespace MiniRtc.Web
open Wire

/-- The calls into the JSON library. -/
structure JsonLibrary where
  parse : Bytes → Option Json
  dump : Json → Bytes
  casts : Json.Casts

namespace WebInputRouter

def maxMessageSize : Nat := 4096
def maxSafeInteger : Nat := 9007199254740991

/-- An input with its tags. -/
structure Action where
  json : Json
  epoch : Nat
  seq : Nat

/-- What `deliver_` was called with, and the input that it came from: the code passes the
text on, the rest is history. `action` is `none` for an input without tags. -/
structure Delivery where
  text : Bytes
  motion : Bool
  action : Option Action

end WebInputRouter

open WebInputRouter

/-- `pending_` is null or an action whose tags were read before it was stored. -/
structure WebInputRouter where
  upgraded : Bool := false
  epoch : Nat := 0
  sequence : Nat := 0
  controlSequence : Nat := 0
  pending : Option Action := none

namespace WebInputRouter

variable (lib : JsonLibrary)

/-- The test that turns motion away, or `none` where it throws. -/
def notMotion (action : Json) : Option Bool := do
  let type ← action.valueInt lib.casts "type" (-1)
  if type ≠ 0 ∨ !action.contains "mouse" then return true
  let flag ← (← action.at? "mouse").valueInt lib.casts "flag" (-1)
  return flag ≠ 0

/-- The tags of an action, or `none` where the checks return or throw. -/
def readTags (action : Json) (motion : Bool) : Option Action := do
  let epoch ← (← action.at? "_input_epoch").getUint64 lib.casts
  let seq ← (← action.at? "_input_seq").getUint64 lib.casts
  if maxSafeInteger < epoch.toNat ∨ seq.toNat = 0 ∨ maxSafeInteger < seq.toNat then none
  else if motion ∧ notMotion lib action ≠ some false then none
  else some ⟨action, epoch.toNat, seq.toNat⟩

/-- The branch for motion, after the checks. -/
def deliverMotion (r : WebInputRouter) (message : Bytes) (a : Action) :
    WebInputRouter × List Delivery :=
  if a.epoch < r.epoch ∨ a.seq ≤ r.sequence then (r, [])
  else if r.epoch < a.epoch then
    match r.pending with
    | some p => if p.seq < a.seq then ({ r with pending := some a }, []) else (r, [])
    | none => ({ r with pending := some a }, [])
  else ({ r with sequence := a.seq }, [⟨message, true, some a⟩])

/-- The motion that was waiting for the epoch of a control message. -/
def releasePending (r : WebInputRouter) : WebInputRouter × List Delivery :=
  match r.pending with
  | some p =>
    if p.epoch ≤ r.epoch then
      if p.epoch = r.epoch ∧ r.sequence < p.seq then
        ({ r with sequence := p.seq, pending := none }, [⟨lib.dump p.json, true, some p⟩])
      else ({ r with pending := none }, [])
    else (r, [])
  | none => (r, [])

/-- The branch for control messages, after the checks. -/
def deliverControl (r : WebInputRouter) (message : Bytes) (a : Action) :
    WebInputRouter × List Delivery :=
  if a.epoch ≤ r.epoch ∨ a.seq ≤ r.controlSequence then (r, [])
  else
    let r := { r with epoch := a.epoch, sequence := a.seq, controlSequence := a.seq }
    let (r, released) := r.releasePending lib
    (r, ⟨message, false, some a⟩ :: released)

/-- `Deliver` of a message that is parsed already. -/
def deliverParsed (r : WebInputRouter) (message : Bytes) (motion : Bool) (action : Json) :
    WebInputRouter × List Delivery :=
  if !action.isObject then (r, [])
  else if !action.contains "_input_epoch" ∨ !action.contains "_input_seq" then
    (r, if !motion ∧ !r.upgraded then [⟨message, motion, none⟩] else [])
  else
    match readTags lib action motion with
    | none => (r, [])
    | some a =>
      let r := { r with upgraded := true }
      if motion then r.deliverMotion message a else r.deliverControl lib message a

/-- `Deliver` of a text. What is no JSON is discarded, which is no object. -/
def deliver (r : WebInputRouter) (message : Bytes) (motion : Bool) :
    WebInputRouter × List Delivery :=
  if maxMessageSize < message.length then (r, [])
  else
    match lib.parse message with
    | some action => r.deliverParsed lib message motion action
    | none => (r, [])

/-- The two overloads of `Deliver`. -/
inductive Call where
  | text (message : Bytes) (motion : Bool)
  | parsed (message : Bytes) (motion : Bool) (action : Json)

def Call.message : Call → Bytes
  | text message _ | parsed message _ _ => message

def Call.motion : Call → Bool
  | text _ motion | parsed _ motion _ => motion

def Call.apply (r : WebInputRouter) : Call → WebInputRouter × List Delivery
  | text message motion => r.deliver lib message motion
  | parsed message motion action => r.deliverParsed lib message motion action

/-- The tags of a call that is a well-formed tagged object. -/
def Call.tags : Call → Option Action
  | text message motion =>
    if maxMessageSize < message.length then none
    else (lib.parse message).bind fun action => readTags lib action motion
  | parsed _ motion action => readTags lib action motion

/-- A sequence of calls, with everything that was delivered. -/
def run (r : WebInputRouter) : List Call → WebInputRouter × List Delivery
  | [] => (r, [])
  | c :: rest =>
    let (r, first) := c.apply lib r
    let (r, later) := run r rest
    (r, first ++ later)

/-! ### Turns
What the router is for: an action opens an epoch, and motion is only for the epoch that is
open and behind everything delivered in it. -/

structure Turn where
  epoch : Nat := 0
  sequence : Nat := 0

inductive Turn.Step : Turn → Delivery → Turn → Prop where
  | untagged {t d} (untagged : d.action = none) : Step t d t
  | motion {t d a} (tagged : d.action = some a) (moves : d.motion = true)
      (open_ : a.epoch = t.epoch) (fresh : t.sequence < a.seq) : Step t d { t with sequence := a.seq }
  | control {t d a} (tagged : d.action = some a) (acts : d.motion = false)
      (opens : t.epoch < a.epoch) : Step t d ⟨a.epoch, a.seq⟩

inductive Turn.Follows (start : Turn) : List Delivery → Turn → Prop where
  | nil : Follows start [] start
  | snoc {out t d u} : Follows start out t → Turn.Step t d u → Follows start (out ++ [d]) u

/-- Epochs do not fall, sequence numbers grow within an epoch, every action opens a new one. -/
def InOrder (d d' : Delivery) : Prop :=
  ∀ a ∈ d.action, ∀ a' ∈ d'.action, a.epoch ≤ a'.epoch ∧ (a.epoch = a'.epoch → a.seq < a'.seq) ∧
    (d.motion = false → d'.motion = false → a.epoch < a'.epoch)

/-- The text and the tags of a tagged message from the control channel. -/
def Delivery.control (d : Delivery) : Option (Bytes × Action) :=
  if d.motion then none else d.action.map fun a => (d.text, a)

def Call.control (c : Call) : Option (Bytes × Action) :=
  if c.motion then none else (c.tags lib).map fun a => (c.message, a)

def controls (out : List Delivery) : List (Bytes × Action) := out.filterMap Delivery.control

def lastControlEpoch (out : List Delivery) : Option Nat :=
  (controls out).getLast?.map fun c => c.2.epoch

/-- What holds of deliveries that follow the turns, from the first one on. -/
structure Ordered (out : List Delivery) (t : Turn) : Prop where
  passed : ∀ d ∈ out, ∀ a ∈ d.action, a.epoch ≤ t.epoch ∧ (a.epoch = t.epoch → a.seq ≤ t.sequence)
  inOrder : out.Pairwise InOrder
  opened : (lastControlEpoch out).getD 0 = t.epoch
  underControl : ∀ before d after, out = before ++ d :: after → d.motion = true → ∀ a ∈ d.action,
    1 ≤ a.epoch → lastControlEpoch before = some a.epoch

@[simp] theorem controls_append (out later : List Delivery) :
    controls (out ++ later) = controls out ++ controls later := by
  simp [controls]

theorem Turn.Follows.append {s t u : Turn} {out later : List Delivery} (first : Follows s out t)
    (second : Follows t later u) : Follows s (out ++ later) u := by
  induction second with
  | nil => simpa using first
  | snoc _ step ih =>
    rw [← List.append_assoc]
    exact .snoc ih step

theorem Turn.Follows.single {t u : Turn} {d : Delivery} (step : Step t d u) : Follows t [d] u :=
  .snoc .nil step

/-- A delivery that comes last is under the same action as one before it. -/
theorem underControl_snoc {out : List Delivery} {d : Delivery} (ordered : ∀ before e after,
      out = before ++ e :: after → e.motion = true → ∀ a ∈ e.action, 1 ≤ a.epoch →
        lastControlEpoch before = some a.epoch)
    (last : d.motion = true → ∀ a ∈ d.action, 1 ≤ a.epoch → lastControlEpoch out = some a.epoch)
    (before : List Delivery) (e : Delivery) (after : List Delivery)
    (split : out ++ [d] = before ++ e :: after) (moves : e.motion = true) (a : Action)
    (tagged : a ∈ e.action) (positive : 1 ≤ a.epoch) : lastControlEpoch before = some a.epoch := by
  rcases List.eq_nil_or_concat after with none | ⟨rest, x, some⟩
  · subst none
    obtain ⟨rfl, same⟩ := List.append_inj' split rfl
    cases List.cons.inj same |>.1
    exact last moves a tagged positive
  · subst some
    rw [List.concat_eq_append, ← List.cons_append, ← List.append_assoc] at split
    obtain ⟨rfl, _⟩ := List.append_inj' split rfl
    exact ordered before e rest rfl moves a tagged positive

theorem Turn.Follows.ordered {out : List Delivery} {t : Turn} (follows : Follows {} out t) :
    Ordered out t := by
  induction follows with
  | nil => exact ⟨by simp, .nil, rfl, by simp⟩
  | @snoc out t d u _ step ih =>
    obtain ⟨passed, inOrder, opened, under⟩ := ih
    cases step with
    | untagged untagged =>
      have same : controls (out ++ [d]) = controls out := by
        simp [controls, Delivery.control, untagged]
      refine ⟨?_, ?_, ?_, underControl_snoc under (by simp [untagged])⟩
      · intro e member a tagged
        rcases List.mem_append.mp member with old | new
        · exact passed e old a tagged
        · rw [List.mem_singleton.mp new, untagged] at tagged
          cases tagged
      · refine List.pairwise_append.mpr ⟨inOrder, List.pairwise_singleton _ _, ?_⟩
        intro e _ e' new a _ a' tagged
        rw [List.mem_singleton.mp new, untagged] at tagged
        cases tagged
      · rw [lastControlEpoch, same]
        exact opened
    | @motion a tagged moves now fresh =>
      have same : controls (out ++ [d]) = controls out := by
        simp [controls, Delivery.control, moves]
      refine ⟨?_, ?_, ?_, underControl_snoc under ?_⟩
      · intro e member b there
        rcases List.mem_append.mp member with old | new
        · obtain ⟨low, less⟩ := passed e old b there
          exact ⟨low, fun equal => Nat.le_of_lt (Nat.lt_of_le_of_lt (less equal) fresh)⟩
        · rw [List.mem_singleton.mp new, tagged] at there
          cases there
          exact ⟨Nat.le_of_eq now, fun _ => Nat.le_refl _⟩
      · refine List.pairwise_append.mpr ⟨inOrder, List.pairwise_singleton _ _, ?_⟩
        intro e old e' new b there b' there'
        rw [List.mem_singleton.mp new] at there' ⊢
        rw [tagged] at there'
        cases there'
        obtain ⟨low, less⟩ := passed e old b there
        refine ⟨by omega, fun equal => ?_, by simp [moves]⟩
        exact Nat.lt_of_le_of_lt (less (equal.trans now)) fresh
      · rw [lastControlEpoch, same]
        exact opened
      · intro _ b there positive
        rw [tagged] at there
        cases there
        cases found : lastControlEpoch out with
        | none => rw [found] at opened; simp at opened; omega
        | some e => rw [found] at opened; simp at opened; rw [opened, now]
    | @control a tagged acts opens =>
      have more : controls (out ++ [d]) = controls out ++ [(d.text, a)] := by
        simp [controls, Delivery.control, acts, tagged]
      refine ⟨?_, ?_, ?_, underControl_snoc under (by simp [acts])⟩
      · intro e member b there
        rcases List.mem_append.mp member with old | new
        · obtain ⟨low, _⟩ := passed e old b there
          exact ⟨by simp only; omega, fun equal => by simp only at equal; omega⟩
        · rw [List.mem_singleton.mp new, tagged] at there
          cases there
          exact ⟨Nat.le_refl _, fun _ => Nat.le_refl _⟩
      · refine List.pairwise_append.mpr ⟨inOrder, List.pairwise_singleton _ _, ?_⟩
        intro e old e' new b there b' there'
        rw [List.mem_singleton.mp new] at there' ⊢
        rw [tagged] at there'
        cases there'
        obtain ⟨low, _⟩ := passed e old b there
        exact ⟨by omega, fun equal => by omega, fun _ _ => by omega⟩
      · simp [lastControlEpoch, more]

/-! ### The router takes turns -/

def turn (r : WebInputRouter) : Turn := ⟨r.epoch, r.sequence⟩

theorem deliverMotion_follows (r : WebInputRouter) (message : Bytes) (a : Action) :
    Turn.Follows r.turn (r.deliverMotion message a).2 (r.deliverMotion message a).1.turn := by
  unfold deliverMotion
  split
  · exact .nil
  · rename_i current
    split
    · split
      · split <;> exact .nil
      · exact .nil
    · exact .single (.motion rfl rfl (show a.epoch = r.epoch by omega)
        (show r.sequence < a.seq by omega))

theorem releasePending_follows (r : WebInputRouter) :
    Turn.Follows r.turn (r.releasePending lib).2 (r.releasePending lib).1.turn := by
  unfold releasePending
  split
  · split
    · split
      · rename_i now
        exact .single (.motion rfl rfl now.1 now.2)
      · exact .nil
    · exact .nil
  · exact .nil

theorem deliverControl_follows (r : WebInputRouter) (message : Bytes) (a : Action) :
    Turn.Follows r.turn (r.deliverControl lib message a).2
      (r.deliverControl lib message a).1.turn := by
  unfold deliverControl
  split
  · exact .nil
  · rename_i new
    have opens : Turn.Step r.turn ⟨message, false, some a⟩ ⟨a.epoch, a.seq⟩ :=
      .control rfl rfl (show r.epoch < a.epoch by omega)
    have later := releasePending_follows lib
      { r with epoch := a.epoch, sequence := a.seq, controlSequence := a.seq }
    exact (Turn.Follows.single opens).append later

/-- Tags are read from an object that has them. -/
theorem readTags_some {action : Json} {motion : Bool} {a : Action}
    (tagged : readTags lib action motion = some a) :
    action.isObject = true ∧ action.contains "_input_epoch" = true ∧
      action.contains "_input_seq" = true := by
  simp only [readTags, Option.bind_eq_bind, Option.bind_eq_some_iff] at tagged
  obtain ⟨epoch, hasEpoch, _, _, seq, hasSeq, _⟩ := tagged
  refine ⟨?_, by rw [Json.contains, hasEpoch]; rfl, by rw [Json.contains, hasSeq]; rfl⟩
  cases action <;> first | rfl | cases hasEpoch

theorem readTags_seq {action : Json} {motion : Bool} {a : Action}
    (tagged : readTags lib action motion = some a) : 0 < a.seq := by
  simp only [readTags, Option.bind_eq_bind, Option.bind_eq_some_iff] at tagged
  obtain ⟨_, _, _, _, seq, _, v, _, checked⟩ := tagged
  split at checked
  · cases checked
  · rename_i inRange
    split at checked
    · cases checked
    · cases checked
      show 0 < v.toNat
      omega

theorem Call.tags_seq {c : Call} {a : Action} (tagged : c.tags lib = some a) : 0 < a.seq := by
  cases c with
  | parsed message motion action => exact readTags_seq lib tagged
  | text message motion =>
    simp only [Call.tags] at tagged
    split at tagged
    · cases tagged
    · obtain ⟨action, _, read⟩ := Option.bind_eq_some_iff.mp tagged
      exact readTags_seq lib read

/-- A call with tags upgrades the session and takes one of the two branches. -/
theorem apply_of_tags (r : WebInputRouter) {c : Call} {a : Action} (tagged : c.tags lib = some a) :
    c.apply lib r = if c.motion then { r with upgraded := true }.deliverMotion c.message a
      else { r with upgraded := true }.deliverControl lib c.message a := by
  have parsed (message : Bytes) (motion : Bool) (action : Json)
      (read : readTags lib action motion = some a) :
      r.deliverParsed lib message motion action =
        if motion then { r with upgraded := true }.deliverMotion message a
        else { r with upgraded := true }.deliverControl lib message a := by
    obtain ⟨object, hasEpoch, hasSeq⟩ := readTags_some lib read
    simp [deliverParsed, object, hasEpoch, hasSeq, read]
  cases c with
  | parsed message motion action => exact parsed message motion action tagged
  | text message motion =>
    simp only [Call.tags] at tagged
    split at tagged
    · cases tagged
    · rename_i fits
      obtain ⟨action, known, read⟩ := Option.bind_eq_some_iff.mp tagged
      simp only [Call.apply, deliver, if_neg fits, known]
      exact parsed message motion action read

/-- Any other call changes nothing. -/
theorem apply_of_no_tags (r : WebInputRouter) {c : Call} (untagged : c.tags lib = none) :
    (c.apply lib r).1 = r ∧ ∀ d ∈ (c.apply lib r).2, d.action = none ∧ r.upgraded = false := by
  have parsed (message : Bytes) (motion : Bool) (action : Json)
      (unread : readTags lib action motion = none) :
      (r.deliverParsed lib message motion action).1 = r ∧
        ∀ d ∈ (r.deliverParsed lib message motion action).2, d.action = none ∧ r.upgraded = false := by
    unfold deliverParsed
    split
    · simp
    · split
      · refine ⟨rfl, ?_⟩
        split
        · rename_i legacy
          simp only [Bool.not_eq_true', List.mem_singleton] at legacy ⊢
          rintro d rfl
          exact ⟨rfl, by simpa using legacy.2⟩
        · simp
      · simp [unread]
  cases c with
  | parsed message motion action => exact parsed message motion action untagged
  | text message motion =>
    simp only [Call.apply, deliver]
    split
    · simp
    · rename_i fits
      simp only [Call.tags, if_neg fits] at untagged
      split
      · rename_i action known
        rw [known] at untagged
        exact parsed message motion action untagged
      · simp

theorem apply_follows (r : WebInputRouter) (c : Call) :
    Turn.Follows r.turn (c.apply lib r).2 (c.apply lib r).1.turn := by
  cases tags : c.tags lib with
  | some a =>
    rw [apply_of_tags lib r tags]
    split
    · exact deliverMotion_follows { r with upgraded := true } c.message a
    · exact deliverControl_follows lib { r with upgraded := true } c.message a
  | none =>
    obtain ⟨same, untagged⟩ := apply_of_no_tags lib r tags
    rw [same]
    generalize (c.apply lib r).2 = out at untagged
    induction out using List.reverseRecOn with
    | nil => exact .nil
    | append_singleton out d ih =>
      exact .snoc (ih fun e there => untagged e (List.mem_append_left _ there))
        (.untagged (untagged d (by simp)).1)

theorem run_follows (r : WebInputRouter) (calls : List Call) :
    Turn.Follows r.turn (run lib r calls).2 (run lib r calls).1.turn := by
  induction calls generalizing r with
  | nil => exact .nil
  | cons c rest ih => exact (apply_follows lib r c).append (ih _)

theorem run_append (r : WebInputRouter) (calls later : List Call) :
    run lib r (calls ++ later) =
      ((run lib (run lib r calls).1 later).1,
        (run lib r calls).2 ++ (run lib (run lib r calls).1 later).2) := by
  induction calls generalizing r with
  | nil => rfl
  | cons c rest ih => simp only [List.cons_append, run, ih, List.append_assoc]

/-! ### The upgrade -/

theorem upgraded_deliverMotion (r : WebInputRouter) (message : Bytes) (a : Action) :
    (r.deliverMotion message a).1.upgraded = r.upgraded := by
  unfold deliverMotion
  repeat' split
  all_goals rfl

theorem upgraded_releasePending (r : WebInputRouter) :
    (r.releasePending lib).1.upgraded = r.upgraded := by
  unfold releasePending
  repeat' split
  all_goals rfl

theorem upgraded_deliverControl (r : WebInputRouter) (message : Bytes) (a : Action) :
    (r.deliverControl lib message a).1.upgraded = r.upgraded := by
  unfold deliverControl
  split
  · rfl
  · exact upgraded_releasePending lib _

theorem upgraded_of_tags (r : WebInputRouter) {c : Call} {a : Action}
    (tagged : c.tags lib = some a) : (c.apply lib r).1.upgraded = true := by
  rw [apply_of_tags lib r tagged]
  split
  · exact upgraded_deliverMotion { r with upgraded := true } c.message a
  · exact upgraded_deliverControl lib { r with upgraded := true } c.message a

theorem upgraded_apply (r : WebInputRouter) (c : Call) (upgraded : r.upgraded = true) :
    (c.apply lib r).1.upgraded = true := by
  cases tags : c.tags lib with
  | some a => exact upgraded_of_tags lib r tags
  | none => rw [(apply_of_no_tags lib r tags).1, upgraded]

theorem action_deliverMotion (r : WebInputRouter) (message : Bytes) (a : Action) :
    ∀ d ∈ (r.deliverMotion message a).2, d.action.isSome := by
  unfold deliverMotion
  repeat' split
  all_goals simp

theorem action_releasePending (r : WebInputRouter) :
    ∀ d ∈ (r.releasePending lib).2, d.action.isSome := by
  unfold releasePending
  repeat' split
  all_goals simp

theorem action_deliverControl (r : WebInputRouter) (message : Bytes) (a : Action) :
    ∀ d ∈ (r.deliverControl lib message a).2, d.action.isSome := by
  unfold deliverControl
  split
  · simp
  · intro d member
    rcases List.mem_cons.mp member with rfl | released
    · rfl
    · exact action_releasePending lib _ d released

/-- After the upgrade everything that is delivered is tagged. -/
theorem action_of_upgraded (r : WebInputRouter) (calls : List Call) (upgraded : r.upgraded = true) :
    ∀ d ∈ (run lib r calls).2, d.action.isSome := by
  induction calls generalizing r with
  | nil => simp [run]
  | cons c rest ih =>
    intro d member
    rcases List.mem_append.mp member with first | later
    · have first : d ∈ (c.apply lib r).2 := first
      cases tags : c.tags lib with
      | some a =>
        rw [apply_of_tags lib r tags] at first
        split at first
        · exact action_deliverMotion _ c.message a d first
        · exact action_deliverControl lib _ c.message a d first
      | none =>
        have legacy := ((apply_of_no_tags lib r tags).2 d first).2
        rw [upgraded] at legacy
        cases legacy
    · exact ih _ (upgraded_apply lib r c upgraded) d later

/-! ### The control channel -/

/-- A control message that is ahead of the counters. -/
def Ahead (r : WebInputRouter) (a : Action) : Prop := r.epoch < a.epoch ∧ r.controlSequence < a.seq

theorem controls_deliverMotion (r : WebInputRouter) (message : Bytes) (a : Action) :
    controls (r.deliverMotion message a).2 = [] ∧
      (r.deliverMotion message a).1.epoch = r.epoch ∧
        (r.deliverMotion message a).1.controlSequence = r.controlSequence := by
  unfold deliverMotion
  repeat' split
  all_goals simp [controls, Delivery.control]

theorem controls_releasePending (r : WebInputRouter) :
    controls (r.releasePending lib).2 = [] ∧ (r.releasePending lib).1.epoch = r.epoch ∧
      (r.releasePending lib).1.controlSequence = r.controlSequence := by
  unfold releasePending
  repeat' split
  all_goals simp [controls, Delivery.control]

theorem controls_deliverControl (r : WebInputRouter) (message : Bytes) {a : Action}
    (ahead : Ahead r a) :
    controls (r.deliverControl lib message a).2 = [(message, a)] ∧
      (r.deliverControl lib message a).1.epoch = a.epoch ∧
        (r.deliverControl lib message a).1.controlSequence = a.seq := by
  obtain ⟨later, greater⟩ := ahead
  unfold deliverControl
  rw [if_neg (by omega)]
  obtain ⟨none, epoch, sequence⟩ := controls_releasePending lib
    { r with epoch := a.epoch, sequence := a.seq, controlSequence := a.seq }
  refine ⟨?_, epoch, sequence⟩
  simpa [controls, Delivery.control] using none

/-- A call that is no control message leaves the counters of the control channel alone. -/
theorem controls_apply_none (r : WebInputRouter) {c : Call} (other : c.control lib = none) :
    controls (c.apply lib r).2 = [] ∧ (c.apply lib r).1.epoch = r.epoch ∧
      (c.apply lib r).1.controlSequence = r.controlSequence := by
  cases tags : c.tags lib with
  | some a =>
    simp only [Call.control, tags, Option.map_some] at other
    split at other
    · rename_i moves
      rw [apply_of_tags lib r tags, if_pos moves]
      exact controls_deliverMotion { r with upgraded := true } c.message a
    · cases other
  | none =>
    obtain ⟨same, untagged⟩ := apply_of_no_tags lib r tags
    rw [same]
    refine ⟨List.filterMap_eq_nil_iff.mpr fun d member => ?_, rfl, rfl⟩
    simp [Delivery.control, (untagged d member).1]

theorem controls_apply_some (r : WebInputRouter) {c : Call} {message : Bytes} {a : Action}
    (action : c.control lib = some (message, a)) (ahead : Ahead r a) :
    controls (c.apply lib r).2 = [(message, a)] ∧ (c.apply lib r).1.epoch = a.epoch ∧
      (c.apply lib r).1.controlSequence = a.seq := by
  unfold Call.control at action
  split at action
  · cases action
  · rename_i acts
    obtain ⟨b, tags, same⟩ := Option.map_eq_some_iff.mp action
    cases same
    rw [apply_of_tags lib r tags, if_neg acts]
    exact controls_deliverControl lib { r with upgraded := true } c.message ahead

/-- Control messages that carry growing tags are all delivered. -/
theorem controls_run (r : WebInputRouter) (calls : List Call)
    (growing : (calls.filterMap (Call.control lib)).Pairwise fun c c' =>
      c.2.epoch < c'.2.epoch ∧ c.2.seq < c'.2.seq)
    (ahead : ∀ c ∈ calls.filterMap (Call.control lib), Ahead r c.2) :
    controls (run lib r calls).2 = calls.filterMap (Call.control lib) := by
  induction calls generalizing r with
  | nil => rfl
  | cons c rest ih =>
    simp only [run, controls_append]
    cases action : c.control lib with
    | none =>
      rw [List.filterMap_cons_none action] at growing ahead ⊢
      obtain ⟨nothing, epoch, sequence⟩ := controls_apply_none lib r action
      rw [nothing, List.nil_append]
      apply ih _ growing
      intro c' member
      rw [Ahead, epoch, sequence]
      exact ahead c' member
    | some sent =>
      rw [List.filterMap_cons_some action] at growing ahead ⊢
      obtain ⟨first, growing⟩ := List.pairwise_cons.mp growing
      obtain ⟨one, epoch, sequence⟩ :=
        controls_apply_some lib r action (ahead sent List.mem_cons_self)
      rw [one, List.singleton_append]
      congr 1
      apply ih _ growing
      intro c' member
      rw [Ahead, epoch, sequence]
      exact first c' member

/-- The tagged messages come in order, motion only under the action that opened its epoch;
what is not a well-formed tagged object changes no later outcome; after an upgrade nothing
untagged is delivered; and no action of a client whose tags grow is lost. -/
theorem inputs_in_order (calls : List Call) :
    (run lib {} calls).2.Pairwise InOrder ∧
    (∀ before d after, (run lib {} calls).2 = before ++ d :: after → d.motion = true →
      ∀ a ∈ d.action, 1 ≤ a.epoch → lastControlEpoch before = some a.epoch) ∧
    (∀ before c after, calls = before ++ c :: after → c.tags lib = none →
      run lib (run lib {} (before ++ [c])).1 after = run lib (run lib {} before).1 after) ∧
    (∀ before c after, calls = before ++ c :: after → (c.tags lib).isSome →
      ∀ d ∈ (run lib (run lib {} (before ++ [c])).1 after).2, d.action.isSome) ∧
    ((calls.filterMap (Call.control lib)).Pairwise
        (fun c c' => c.2.epoch < c'.2.epoch ∧ c.2.seq < c'.2.seq) →
      (∀ c ∈ calls.filterMap (Call.control lib), 0 < c.2.epoch) →
        controls (run lib {} calls).2 = calls.filterMap (Call.control lib)) := by
  have ordered := (run_follows lib {} calls).ordered
  refine ⟨ordered.inOrder, ordered.underControl, ?_, ?_, ?_⟩
  · intro before c after _ untagged
    rw [run_append]
    simp only [run, (apply_of_no_tags lib _ untagged).1]
  · intro before c after _ tagged
    obtain ⟨a, tagged⟩ := Option.isSome_iff_exists.mp tagged
    rw [run_append]
    exact action_of_upgraded lib _ after (upgraded_of_tags lib _ tagged)
  · intro growing positive
    apply controls_run lib {} calls growing
    intro sent member
    refine ⟨positive sent member, ?_⟩
    obtain ⟨c, _, action⟩ := List.mem_filterMap.mp member
    unfold Call.control at action
    split at action
    · cases action
    · obtain ⟨a, tags, rfl⟩ := Option.map_eq_some_iff.mp action
      exact Call.tags_seq lib tags

end WebInputRouter

end MiniRtc.Web
