import MiniRtc.Fec.Tracker
import MiniRtc.Lib.LongestRun

/-! The tracker of feedback refines the log of its calls (fec_adaptation_controller.cpp): the packets
that it holds are those that the log leaves, each with what the log says of it. -/
namespace MiniRtc.Fec

namespace FecFeedbackTracker

/-! ### Pruning -/

theorem expire_cons (nowMs : Int) (r : Registration) (held : List Registration) :
    expire nowMs (r :: held) =
      if kMaxPackets < held.length + 1 ∨ 5000 < nowMs - r.nowMs ∨ nowMs < r.nowMs then expire nowMs held
      else r :: held := by
  unfold expire
  rw [List.length_cons]
  by_cases many : kMaxPackets < held.length + 1
  · have count : held.length + 1 - kMaxPackets = (held.length - kMaxPackets) + 1 := by omega
    rw [if_pos (Or.inl many), count, List.drop_succ_cons]
  · have few : held.length + 1 - kMaxPackets = 0 := by omega
    have few' : held.length - kMaxPackets = 0 := by omega
    rw [few, few', List.drop_zero, List.drop_zero, List.dropWhile_cons]
    by_cases old : 5000 < nowMs - r.nowMs ∨ nowMs < r.nowMs
    · rw [if_pos (decide_eq_true old), if_pos (Or.inr old)]
    · rw [if_neg (by simpa using old), if_neg (by rintro (h | h); exacts [many h, old h])]

theorem prune_map {f : Registration → Int × Packet} (sent : ∀ r, (f r).2.sentMs = r.nowMs) (nowMs : Int)
    (held : List Registration) : prune nowMs (held.map f) = (expire nowMs held).map f := by
  induction held with
  | nil => rfl
  | cons r held ih =>
    rw [expire_cons, List.map_cons, prune, List.length_map, sent]
    split
    · exact ih
    · rfl

theorem expire_suffix (nowMs : Int) (held : List Registration) : expire nowMs held <:+ held :=
  (List.dropWhile_suffix _).trans (List.drop_suffix _ _)

theorem length_expire (nowMs : Int) (held : List Registration) : (expire nowMs held).length ≤ kMaxPackets := by
  have dropped := (List.dropWhile_suffix (fun r : Registration => decide (5000 < nowMs - r.nowMs ∨ nowMs < r.nowMs))
    (l := held.drop (held.length - kMaxPackets))).length_le
  rw [List.length_drop] at dropped
  unfold expire
  omega

/-- What is held in order of its times was sent at most five seconds ago. -/
theorem expire_recent {nowMs : Int} {held : List Registration}
    (ordered : held.Pairwise fun older newer => older.nowMs ≤ newer.nowMs) :
    ∀ r ∈ expire nowMs held, nowMs - r.nowMs ≤ 5000 := by
  induction held with
  | nil => exact fun r member => absurd member List.not_mem_nil
  | cons first held ih =>
    obtain ⟨later, ordered⟩ := List.pairwise_cons.mp ordered
    rw [expire_cons]
    split
    · exact ih ordered
    · rename_i young
      have recent : nowMs - first.nowMs ≤ 5000 := by omega
      intro r member
      rcases List.mem_cons.mp member with rfl | inside
      · exact recent
      · have after' := later r inside
        omega

/-! ### What is live -/

theorem registers_cons (r : Registration) (log : List Call) :
    (Call.register r :: log).filterMap Call.registers = r :: log.filterMap Call.registers := rfl

theorem live_sublist (log : List Call) : (live log).Sublist (log.filterMap Call.registers).reverse := by
  induction log with
  | nil => exact List.Sublist.refl _
  | cons c log ih =>
    cases c with
    | register r =>
      rw [registers_cons, List.reverse_cons]
      exact (expire_suffix _ _).sublist.trans (ih.append_right _)
    | remove id => exact List.filter_sublist.trans ih
    | snapshot nowMs rttMs => exact (expire_suffix _ _).sublist.trans ih
    | reset => exact List.nil_sublist _
    | commit id => exact ih
    | feedback id received nowMs => exact ih

theorem Lawful.tail {c : Call} {log : List Call} (lawful : Lawful (c :: log)) : Lawful log := by
  cases c with
  | register r =>
    unfold Lawful at lawful
    rw [registers_cons] at lawful
    exact (List.pairwise_cons.mp lawful).2
  | remove id => exact lawful
  | snapshot nowMs rttMs => exact lawful
  | reset => exact lawful
  | commit id => exact lawful
  | feedback id received nowMs => exact lawful

theorem Lawful.live {log : List Call} (lawful : Lawful log) :
    (live log).Pairwise fun older newer => older.id < newer.id ∧ older.nowMs ≤ newer.nowMs :=
  (List.pairwise_reverse.mpr lawful).sublist (live_sublist log)

/-- A packet that is registered comes after those that are live. -/
theorem Lawful.fresh {r : Registration} {log : List Call} (lawful : Lawful (.register r :: log)) :
    ∀ older ∈ FecFeedbackTracker.live log, older.id < r.id := by
  unfold Lawful at lawful
  rw [registers_cons] at lawful
  intro older member
  exact ((List.pairwise_cons.mp lawful).1 older (List.mem_reverse.mp ((live_sublist log).subset member))).1

theorem Lawful.unique {log : List Call} (lawful : Lawful log) {r r' : Registration}
    (member : r ∈ FecFeedbackTracker.live log) (member' : r' ∈ FecFeedbackTracker.live log) (same : r.id = r'.id) :
    r = r' := by
  have distinct : (FecFeedbackTracker.live log).Pairwise fun older newer => older.id ≠ newer.id :=
    lawful.live.imp fun both => both.1.ne
  exact List.inj_on_of_nodup_map (List.pairwise_map.mpr distinct) member member' same

theorem length_live (log : List Call) : (live log).length ≤ kMaxPackets := by
  induction log with
  | nil => exact Nat.zero_le _
  | cons c log ih =>
    cases c with
    | register r => exact length_expire _ _
    | remove id => exact (List.length_filter_le _ _).trans ih
    | snapshot nowMs rttMs => exact length_expire _ _
    | reset => exact Nat.zero_le _
    | commit id => exact ih
    | feedback id received nowMs => exact ih

/-! ### What the log says of a packet -/

/-- The packet as the log describes it. -/
def packetOf (log : List Call) (r : Registration) : Packet :=
  { r.packet with
    firstFeedbackMs := (firstReport r.id log).getD (((reports r.id log).getLast?.map Prod.snd).getD (-1))
    generation := lastTelling r.id log
    committed := committed r.id log
    received := reportedReceived r.id log }

theorem firstReport_nonneg {id : Int} {log : List Call} {first : Int} (reported : firstReport id log = some first) :
    0 ≤ first := by
  have here := List.find?_some reported
  exact of_decide_eq_true here

/-- The mark for none is what is not a time of a report. -/
theorem firstFeedbackMs_nonneg (log : List Call) (r : Registration) :
    0 ≤ (packetOf log r).firstFeedbackMs ↔ firstReport r.id log ≠ none := by
  cases reported : firstReport r.id log with
  | some first =>
    simp only [packetOf, reported, Option.getD_some]
    exact ⟨fun _ => Option.some_ne_none _, fun _ => firstReport_nonneg reported⟩
  | none =>
    simp only [packetOf, reported, Option.getD_none]
    refine ⟨fun known => ?_, fun some' => absurd rfl some'⟩
    cases last : (reports r.id log).getLast? with
    | none =>
      rw [last] at known
      exact absurd known (by decide)
    | some report =>
      rw [last] at known
      have member : report.2 ∈ (reports r.id log).map Prod.snd :=
        List.mem_map_of_mem (List.mem_of_getLast? last)
      exact absurd (decide_eq_true known) (List.find?_eq_none.mp reported _ member)

theorem packetOf_congr {log log' : List Call} {r : Registration} (same : reports r.id log = reports r.id log')
    (told : lastTelling r.id log = lastTelling r.id log') (commits : committed r.id log = committed r.id log') :
    packetOf log r = packetOf log' r := by
  have first : firstReport r.id log = firstReport r.id log' :=
    congrArg (fun all => (all.map Prod.snd).find? fun nowMs => decide (0 ≤ nowMs)) same
  have received : reportedReceived r.id log = reportedReceived r.id log' := congrArg (fun all => all.any Prod.fst) same
  unfold packetOf
  rw [first, same, told, commits, received]

theorem reports_register (id : Int) (r : Registration) (log : List Call) :
    reports id (.register r :: log) = if r.id = id then [] else reports id log := rfl

theorem lastTelling_register (id : Int) (r : Registration) (log : List Call) :
    lastTelling id (.register r :: log) = if r.id = id then 0 else lastTelling id log := rfl

theorem committed_register (id : Int) (r : Registration) (log : List Call) :
    committed id (.register r :: log) = if r.id = id then false else committed id log := rfl

theorem packetOf_register {r r' : Registration} {log : List Call} (other : r'.id ≠ r.id) :
    packetOf (.register r :: log) r' = packetOf log r' := by
  refine packetOf_congr ?_ ?_ ?_
  · rw [reports_register, if_neg other.symm]
  · rw [lastTelling_register, if_neg other.symm]
  · rw [committed_register, if_neg other.symm]

theorem packetOf_registered (r : Registration) (log : List Call) : packetOf (.register r :: log) r = r.packet := by
  have none' : reports r.id (.register r :: log) = [] := by rw [reports_register, if_pos rfl]
  have untold : lastTelling r.id (.register r :: log) = 0 := by rw [lastTelling_register, if_pos rfl]
  have uncommitted : committed r.id (.register r :: log) = false := by rw [committed_register, if_pos rfl]
  unfold packetOf firstReport reportedReceived
  rw [none', untold, uncommitted]
  rfl

theorem packetOf_commit (id : Int) (log : List Call) (r : Registration) :
    packetOf (.commit id :: log) r =
      if r.id = id then { packetOf log r with committed := true } else packetOf log r := by
  have commits : committed r.id (.commit id :: log) = (id = r.id || committed r.id log) := rfl
  split
  · rename_i same
    rw [decide_eq_true same.symm, Bool.true_or] at commits
    exact congrArg (fun mark => { packetOf log r with committed := mark }) commits
  · rename_i other
    rw [decide_eq_false (Ne.symm other), Bool.false_or] at commits
    exact packetOf_congr rfl rfl commits

theorem reports_feedback_cases (id id' : Int) (received : Bool) (nowMs : Int) (log : List Call) :
    reports id (.feedback id' received nowMs :: log) =
      if id' = id then reports id log ++ [(received, nowMs)] else reports id log := rfl

theorem reports_feedback (id : Int) (received : Bool) (nowMs : Int) (log : List Call) :
    reports id (.feedback id received nowMs :: log) = reports id log ++ [(received, nowMs)] := by
  rw [reports_feedback_cases, if_pos rfl]

theorem lastTelling_feedback (id id' : Int) (received : Bool) (nowMs : Int) (log : List Call) :
    lastTelling id (.feedback id' received nowMs :: log) =
      if id' = id ∧ Tells id' received log then tellings log + 1 else lastTelling id log := rfl

/-- A report of another packet, or one that says nothing new. -/
theorem packetOf_feedback_other {id : Int} {log : List Call} {r : Registration} (other : r.id ≠ id) (received : Bool)
    (nowMs : Int) : packetOf (.feedback id received nowMs :: log) r = packetOf log r := by
  refine packetOf_congr ?_ ?_ rfl
  · rw [reports_feedback_cases, if_neg other.symm]
  · rw [lastTelling_feedback, if_neg fun both => other both.1.symm]

theorem firstReport_feedback (id : Int) (received : Bool) (nowMs : Int) (log : List Call) :
    firstReport id (.feedback id received nowMs :: log) =
      (firstReport id log).or (if 0 ≤ nowMs then some nowMs else none) := by
  rw [firstReport, reports_feedback, List.map_append, List.find?_append]
  congr 1
  by_cases known : 0 ≤ nowMs
  · rw [if_pos known]
    exact List.find?_cons_of_pos (decide_eq_true known)
  · rw [if_neg known]
    exact List.find?_cons_of_neg (by simpa using known)

theorem reportedReceived_feedback (id : Int) (received : Bool) (nowMs : Int) (log : List Call) :
    reportedReceived id (.feedback id received nowMs :: log) = (reportedReceived id log || received) := by
  rw [reportedReceived, reports_feedback, List.any_append]
  simp [reportedReceived]

theorem tells_iff {log : List Call} {r : Registration} (member : r ∈ live log) (received : Bool) :
    Tells r.id received log ↔
      ¬(0 ≤ (packetOf log r).firstFeedbackMs ∧ (received = false ∨ (packetOf log r).received = true)) := by
  rw [firstFeedbackMs_nonneg]
  have same : (packetOf log r).received = reportedReceived r.id log := rfl
  rw [same]
  unfold Tells
  constructor
  · rintro ⟨-, first | ⟨positive, unknown⟩⟩ ⟨some', old⟩
    · exact some' first
    · rw [positive, unknown] at old
      rcases old with h | h
      · exact absurd h (by decide)
      · exact absurd h (by decide)
  · intro new
    refine ⟨⟨r, member, rfl⟩, ?_⟩
    by_cases first : firstReport r.id log = none
    · exact Or.inl first
    · right
      have both := fun old => new ⟨first, old⟩
      refine ⟨?_, ?_⟩
      · exact Bool.eq_true_of_not_eq_false fun h => both (Or.inl h)
      · exact Bool.eq_false_of_not_eq_true fun h => both (Or.inr h)

theorem packetOf_feedback {log : List Call} {r : Registration} (member : r ∈ live log) (received : Bool) (nowMs : Int) :
    packetOf (.feedback r.id received nowMs :: log) r =
      if 0 ≤ (packetOf log r).firstFeedbackMs ∧ (received = false ∨ (packetOf log r).received = true) then packetOf log r
      else
        { packetOf log r with
          firstFeedbackMs := if (packetOf log r).firstFeedbackMs < 0 then nowMs else (packetOf log r).firstFeedbackMs
          received := (packetOf log r).received || received
          generation := tellings log + 1 } := by
  have known := firstFeedbackMs_nonneg log r
  have tells := tells_iff member received
  have telling : lastTelling r.id (.feedback r.id received nowMs :: log) =
      if Tells r.id received log then tellings log + 1 else lastTelling r.id log := by
    rw [lastTelling_feedback]
    simp only [true_and]
  have others : committed r.id (.feedback r.id received nowMs :: log) = committed r.id log := rfl
  have last : ((reports r.id (.feedback r.id received nowMs :: log)).getLast?.map Prod.snd).getD (-1) = nowMs := by
    rw [reports_feedback, List.getLast?_append]
    rfl
  by_cases new : Tells r.id received log
  · rw [if_neg (tells.mp new)]
    unfold packetOf
    rw [telling, if_pos new, others, last, firstReport_feedback, reportedReceived_feedback]
    cases first : firstReport r.id log with
    | some time =>
      have positive := firstReport_nonneg first
      simp only [Option.some_or, Option.getD_some, if_neg (not_lt.mpr positive)]
    | none =>
      have negative : (packetOf log r).firstFeedbackMs < 0 := not_le.mp fun h => known.mp h first
      simp only [packetOf, first, Option.getD_none] at negative
      simp only [Option.none_or, Option.getD_none, if_pos negative]
      split <;> rfl
  · have old := not_not.mp (mt tells.mpr new)
    rw [if_pos old]
    have some' := known.mp old.1
    obtain ⟨time, first⟩ := Option.ne_none_iff_exists'.mp some'
    unfold packetOf
    rw [telling, if_neg new, others, firstReport_feedback, reportedReceived_feedback, first]
    have same : (reportedReceived r.id log || received) = reportedReceived r.id log := by
      rcases old.2 with lost | positive
      · rw [lost, Bool.or_false]
      · have positive' : reportedReceived r.id log = true := positive
        rw [positive', Bool.true_or]
    simp only [Option.some_or, Option.getD_some, same]

/-! ### The refinement -/

theorem insertOrAssign_last {id : Int} (p : Packet) {packets : List (Int × Packet)} (later : ∀ entry ∈ packets, entry.1 < id) :
    insertOrAssign id p packets = packets ++ [(id, p)] := by
  induction packets with
  | nil => rfl
  | cons entry packets ih =>
    obtain ⟨less, rest⟩ := List.forall_mem_cons.mp later
    rw [insertOrAssign, if_neg (not_lt.mpr less.le), if_neg less.ne', ih rest, List.cons_append]

/-- The packets of a log. -/
def entries (log : List Call) : List (Int × Packet) := (live log).map fun r => (r.id, packetOf log r)

theorem lookup_entries {held : List Registration} (f : Registration → Packet)
    (distinct : held.Pairwise fun r r' => r.id ≠ r'.id) {r : Registration} (member : r ∈ held) :
    (held.map fun r => (r.id, f r)).lookup r.id = some (f r) := by
  induction held with
  | nil => exact absurd member List.not_mem_nil
  | cons first held ih =>
    obtain ⟨others, distinct⟩ := List.pairwise_cons.mp distinct
    rw [List.map_cons]
    rcases List.mem_cons.mp member with rfl | inside
    · exact List.lookup_cons_self
    · have other : (r.id == first.id) = false := beq_false_of_ne (others r inside).symm
      rw [List.lookup_cons, other]
      exact ih distinct inside

theorem lookup_none {held : List Registration} (f : Registration → Packet) {id : Int} (absent : ∀ r ∈ held, r.id ≠ id) :
    (held.map fun r => (r.id, f r)).lookup id = none := by
  refine List.lookup_eq_none_iff.mpr fun entry member => ?_
  obtain ⟨r, inside, rfl⟩ := List.mem_map.mp member
  exact bne_iff_ne.mpr (absent r inside).symm

/-- The tracker holds what the log leaves. -/
structure Holds (log : List Call) (s : FecFeedbackTracker) : Prop where
  packets : s.packets = entries log
  generation : s.generation = tellings log

theorem register_holds {log : List Call} {s : FecFeedbackTracker} {r : Registration} (lawful : Lawful (.register r :: log))
    (holds : Holds log s) : Holds (.register r :: log) (s.register r) := by
  have fresh := lawful.fresh
  refine ⟨?_, holds.generation⟩
  have later : ∀ entry ∈ entries log, entry.1 < r.id := by
    intro entry member
    obtain ⟨older, inside, rfl⟩ := List.mem_map.mp member
    exact fresh older inside
  have others : entries log = (live log).map fun r' => (r'.id, packetOf (.register r :: log) r') := by
    refine List.map_congr_left fun older inside => ?_
    rw [packetOf_register (fresh older inside).ne]
  have all : insertOrAssign r.id r.packet s.packets =
      (live log ++ [r]).map fun r' => (r'.id, packetOf (.register r :: log) r') := by
    rw [holds.packets, insertOrAssign_last _ later, List.map_append, others, List.map_singleton, packetOf_registered]
  rw [register, all]
  exact prune_map (fun _ => rfl) r.nowMs (live log ++ [r])

theorem commit_holds {log : List Call} {s : FecFeedbackTracker} (holds : Holds log s) (id : Int) :
    Holds (.commit id :: log) (s.commit id) := by
  refine ⟨?_, holds.generation⟩
  rw [commit, holds.packets, entries, modify, List.map_map]
  refine List.map_congr_left fun r _ => ?_
  simp only [Function.comp, packetOf_commit]
  split <;> rfl

theorem packetOf_remove (id : Int) (log : List Call) (r : Registration) : packetOf (.remove id :: log) r = packetOf log r :=
  rfl

theorem packetOf_snapshot (nowMs rttMs : Int) (log : List Call) (r : Registration) :
    packetOf (.snapshot nowMs rttMs :: log) r = packetOf log r := rfl

theorem remove_holds {log : List Call} {s : FecFeedbackTracker} (holds : Holds log s) (id : Int) :
    Holds (.remove id :: log) (s.remove id) := by
  refine ⟨?_, holds.generation⟩
  rw [remove, holds.packets, entries, List.filter_map]
  rfl

theorem snapshot_holds {log : List Call} {s : FecFeedbackTracker} (holds : Holds log s) (nowMs rttMs : Int) :
    Holds (.snapshot nowMs rttMs :: log) (s.snapshot nowMs rttMs).2 := by
  refine ⟨?_, holds.generation⟩
  rw [snapshot, holds.packets]
  exact prune_map (fun _ => rfl) nowMs (live log)

theorem tellings_feedback (id : Int) (received : Bool) (nowMs : Int) (log : List Call) :
    tellings (.feedback id received nowMs :: log) = if Tells id received log then tellings log + 1 else tellings log := rfl

theorem feedback_holds {log : List Call} {s : FecFeedbackTracker} (lawful : Lawful log) (holds : Holds log s) (id : Int)
    (received : Bool) (nowMs : Int) : Holds (.feedback id received nowMs :: log) (s.feedback id received nowMs) := by
  have distinct : (live log).Pairwise fun r r' => r.id ≠ r'.id := lawful.live.imp fun both => both.1.ne
  unfold feedback
  rw [holds.packets]
  by_cases held : ∃ r ∈ live log, r.id = id
  · obtain ⟨r, member, rfl⟩ := held
    have found : (entries log).lookup r.id = some (packetOf log r) := lookup_entries (packetOf log) distinct member
    rw [found]
    simp only
    by_cases old : 0 ≤ (packetOf log r).firstFeedbackMs ∧ (received = false ∨ (packetOf log r).received = true)
    · rw [if_pos old]
      refine ⟨?_, ?_⟩
      · rw [holds.packets]
        refine List.map_congr_left fun r' inside => ?_
        by_cases same : r'.id = r.id
        · obtain rfl := lawful.unique inside member same
          rw [packetOf_feedback member, if_pos old]
        · rw [packetOf_feedback_other same]
      · rw [holds.generation, tellings_feedback, if_neg (not_not.mpr old ∘ (tells_iff member received).mp)]
    · rw [if_neg old]
      refine ⟨?_, ?_⟩
      · rw [entries, modify, List.map_map]
        refine List.map_congr_left fun r' inside => ?_
        simp only [Function.comp]
        by_cases same : r'.id = r.id
        · obtain rfl := lawful.unique inside member same
          rw [if_pos rfl, packetOf_feedback member, if_neg old, holds.generation]
        · rw [if_neg same, packetOf_feedback_other same]
      · rw [tellings_feedback, if_pos ((tells_iff member received).mpr old), holds.generation]
  · have absent : ∀ r ∈ live log, r.id ≠ id := fun r member same => held ⟨r, member, same⟩
    have nothing : (entries log).lookup id = none := lookup_none (packetOf log) absent
    rw [nothing]
    refine ⟨?_, ?_⟩
    · rw [holds.packets]
      refine List.map_congr_left fun r inside => ?_
      rw [packetOf_feedback_other (absent r inside)]
    · rw [holds.generation, tellings_feedback, if_neg (fun tells => held tells.1)]

/-- After every log the tracker holds what the log leaves. -/
theorem after_holds {log : List Call} (lawful : Lawful log) : Holds log (after log) := by
  induction log with
  | nil => exact ⟨rfl, rfl⟩
  | cons c log ih =>
    have before := ih lawful.tail
    cases c with
    | register r => exact register_holds lawful before
    | commit id => exact commit_holds before id
    | remove id => exact remove_holds before id
    | feedback id received nowMs => exact feedback_holds lawful.tail before id received nowMs
    | snapshot nowMs rttMs => exact snapshot_holds before nowMs rttMs
    | reset => exact ⟨rfl, congrArg (· + 1) before.generation⟩

end FecFeedbackTracker

end MiniRtc.Fec
