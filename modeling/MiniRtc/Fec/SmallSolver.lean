import MiniRtc.Fec.SmallRs

/-! The solver of small blocks on any coefficients and any symbols (rs_small.cpp): it solves the system
of the repairs that it takes just when the part of the coefficients that belongs to it is invertible,
and it writes to the missing sources alone. -/
namespace MiniRtc.Fec

open Wire RowReduction Gf256

variable {k r size : Nat} {rows : Coefficients} {seen : List Bool} {symbols : FecSymbols}

/-- The repairs that are taken: the first that are seen, as many as sources are missing. -/
def takenRepairs (k r : Nat) (seen : List Bool) : List Nat := (seenRepairs k r seen).take (missingSources k seen).length

/-- The coefficients of the missing sources in the repairs that are taken. -/
def solverMatrix (rows : Coefficients) (k r : Nat) (seen : List Bool) :
    Matrix (Fin (missingSources k seen).length) (Fin (missingSources k seen).length) Gf256 :=
  Matrix.of fun i j => ofByte (rows ((takenRepairs k r seen).getD i 0) ((missingSources k seen).getD j 0))

/-- The equations of the repairs that are taken. -/
def Equations (rows : Coefficients) (k r : Nat) (seen : List Bool) (symbols sources : FecSymbols) : Prop :=
  ∀ id ∈ takenRepairs k r seen, word (symbolAt symbols (k + id)) = combination rows sources id (List.range k)

theorem mem_takenRepairs {id : Nat} (member : id ∈ takenRepairs k r seen) : id < r ∧ seen.getD (k + id) false = true := by
  obtain ⟨below, came⟩ := List.mem_filter.mp (List.mem_of_mem_take member)
  exact ⟨List.mem_range.mp below, came⟩

/-- As many symbols as sources leave a repair for each source that is missing. -/
theorem enough_repairs (slots : seen.length = k + r) (enough : k ≤ seen.count true) :
    (missingSources k seen).length ≤ (seenRepairs k r seen).length := by
  have listed : seen = (List.range (k + r)).map fun i => seen.getD i false := by
    refine List.ext_getElem (by simp [slots]) fun i hi _ => ?_
    simp [hi]
  have count : seen.count true = ((List.range (k + r)).filter fun i => seen.getD i false).length := by
    conv_lhs => rw [listed]
    rw [List.count, List.countP_map, List.countP_eq_length_filter]
    congr 1
    exact List.filter_congr fun i _ => by simp
  have repairs : ((List.range r).filter ((fun id => seen.getD id false) ∘ (k + ·))).length =
      (seenRepairs k r seen).length := rfl
  rw [count, List.range_add, List.filter_append, List.length_append, List.filter_map, List.length_map, repairs] at enough
  have parts := List.length_eq_length_filter_add (l := List.range k) fun id => seen.getD id false
  rw [List.length_range] at parts
  have missing : (missingSources k seen).length = ((List.range k).filter fun id => !seen.getD id false).length := rfl
  omega

theorem length_takenRepairs (enough : (missingSources k seen).length ≤ (seenRepairs k r seen).length) :
    (takenRepairs k r seen).length = (missingSources k seen).length := by
  rw [takenRepairs, List.length_take]
  omega

/-- What is left of a repair, as a vector. -/
theorem word_subtractKnown (rows : Coefficients) (length : symbols.length = k + r) (sized : Sized size symbols) {id : Nat}
    (below : id < r) : word (subtractKnown rows k seen symbols id) = word (symbolAt symbols (k + id)) +
      combination rows symbols id ((List.range k).filter fun col => seen.getD col false) := by
  rw [subtractKnown_eq]
  refine (word_foldl (rows id) _ (fun col member => ?_) (sized _ (by omega))).2
  have inside := List.mem_range.mp (List.mem_filter.mp member).1
  exact sized col (by omega)

/-- Sources that agree with the seen ones satisfy the equations if the missing ones solve the system. -/
theorem equations_iff (rows : Coefficients) (length : symbols.length = k + r) (sized : Sized size symbols)
    (taken : (takenRepairs k r seen).length = (missingSources k seen).length) {sources : FecSymbols}
    (agree : ∀ col < k, seen.getD col false = true → symbolAt sources col = symbolAt symbols col) :
    Equations rows k r seen symbols sources ↔
      System.Solves (missingSources k seen).length
        ⟨fun i j => ofByte (rows ((takenRepairs k r seen).getD i 0) ((missingSources k seen).getD j 0)),
          fun i => word (subtractKnown rows k seen symbols ((takenRepairs k r seen).getD i 0))⟩
        fun j => word (symbolAt sources ((missingSources k seen).getD j 0)) := by
  have known : ∀ id, combination rows sources id ((List.range k).filter fun col => seen.getD col false) =
      combination rows symbols id ((List.range k).filter fun col => seen.getD col false) := by
    intro id
    refine congrArg List.sum (List.map_congr_left fun col member => ?_)
    obtain ⟨inside, here⟩ := List.mem_filter.mp member
    rw [agree col (List.mem_range.mp inside) here]
  have split : ∀ id, combination rows sources id (List.range k) =
      combination rows symbols id ((List.range k).filter fun col => seen.getD col false) +
        combination rows sources id (missingSources k seen) := by
    intro id
    rw [← known]
    exact sum_filter_add (fun col => seen.getD col false) _ _
  have sum : ∀ i, ∑ j ∈ Finset.range (missingSources k seen).length,
      ofByte (rows ((takenRepairs k r seen).getD i 0) ((missingSources k seen).getD j 0)) •
        word (symbolAt sources ((missingSources k seen).getD j 0)) =
      combination rows sources ((takenRepairs k r seen).getD i 0) (missingSources k seen) := fun i =>
    (sum_map_getD (fun col => ofByte (rows ((takenRepairs k r seen).getD i 0) col) • word (symbolAt sources col)) _).symm
  have equation : ∀ id < r, (word (symbolAt symbols (k + id)) = combination rows sources id (List.range k) ↔
      combination rows sources id (missingSources k seen) = word (subtractKnown rows k seen symbols id)) := by
    intro id below
    rw [split, word_subtractKnown rows length sized below]
    constructor
    · intro same
      rw [same, add_right_comm, word_add_self, zero_add]
    · intro same
      rw [same, add_left_comm, word_add_self, add_zero]
  constructor
  · intro equations i hi
    have member : (takenRepairs k r seen).getD i 0 ∈ takenRepairs k r seen := getD_mem (taken ▸ hi)
    exact (sum i).trans ((equation _ (mem_takenRepairs member).1).mp (equations _ member))
  · intro solves id member
    obtain ⟨i, hi, rfl⟩ := List.getElem_of_mem member
    have same : (takenRepairs k r seen).getD i 0 = (takenRepairs k r seen)[i] := List.getD_eq_getElem _ _ hi
    have here : combination rows sources ((takenRepairs k r seen).getD i 0) (missingSources k seen) =
        word (subtractKnown rows k seen symbols ((takenRepairs k r seen).getD i 0)) :=
      (sum i).symm.trans (solves i (taken ▸ hi))
    rw [same] at here
    exact (equation _ (mem_takenRepairs member).1).mpr here

/-- What the solver makes of the symbols. -/
structure Solved (rows : Coefficients) (k r size : Nat) (seen : List Bool) (symbols : FecSymbols)
    (result : Bool × FecSymbols) : Prop where
  solvable : result.1 = true ↔ IsUnit (solverMatrix rows k r seen)
  shape : result.2.length = k + r ∧ Sized size result.2
  kept : ∀ id, id ∉ missingSources k seen → symbolAt result.2 id = symbolAt symbols id
  restored : result.1 = true → Equations rows k r seen symbols result.2
  unique : result.1 = true → ∀ sources : FecSymbols, sources.length = k → Sized size sources →
    (∀ col < k, seen.getD col false = true → symbolAt sources col = symbolAt symbols col) →
    Equations rows k r seen symbols sources → ∀ col < k, symbolAt result.2 col = symbolAt sources col

theorem isUnit_solverMatrix : IsUnit (solverMatrix rows k r seen) ↔ System.Regular (missingSources k seen).length
    fun i j => ofByte (rows ((takenRepairs k r seen).getD i 0) ((missingSources k seen).getD j 0)) := by
  rw [Matrix.isUnit_iff_isUnit_det, isUnit_iff_ne_zero]
  constructor
  · intro det
    exact @System.regular_of_det Gf256 _ _
      (fun i j => ofByte (rows ((takenRepairs k r seen).getD i 0) ((missingSources k seen).getD j 0))) det
  · intro regular
    exact System.det_of_regular regular

/-- For any coefficients, symbols and ids, as long as there are as many symbols as sources. -/
theorem decodeSmallRs_solves {matrix : Nat → Nat → Option Coefficients} (coefficients : matrix k r = some rows)
    (length : symbols.length = k + r) (sized : Sized size symbols) (slots : seen.length = k + r)
    (enough : k ≤ seen.count true) :
    Solved rows k r size seen symbols (decodeSmallRs matrix k r seen symbols) := by
  have repairs := enough_repairs slots enough
  have taken := length_takenRepairs repairs
  have most : (seenRepairs k r seen).length ≤ r := by
    have filtered := List.length_filter_le (fun i => seen.getD (k + i) false) (List.range r)
    rwa [List.length_range] at filtered
  have known : ∀ col < k, col ∉ missingSources k seen → seen.getD col false = true := by
    intro col hcol other
    by_contra unseen
    exact other (mem_missingSources.mpr ⟨hcol, Bool.eq_false_of_not_eq_true unseen⟩)
  have unseen : ∀ col, seen.getD col false = true → col ∉ missingSources k seen := by
    intro col here missing
    exact Bool.noConfusion ((mem_missingSources.mp missing).2.symm.trans here)
  unfold decodeSmallRs
  simp only
  rw [if_neg (by omega)]
  split
  · rename_i nothing
    have empty : IsEmpty (Fin (missingSources k seen).length) := by
      rw [nothing]
      exact Fin.isEmpty
    have none : takenRepairs k r seen = [] := by
      rw [takenRepairs, nothing]
      exact List.take_zero ..
    refine ⟨iff_of_true rfl (isUnit_of_subsingleton _), ⟨length, sized⟩, fun _ _ => rfl, fun _ id member => ?_,
      fun _ sources _ _ agree _ col hcol => ?_⟩
    · rw [none] at member
      exact absurd member List.not_mem_nil
    · refine (agree col hcol (known col hcol ?_)).symm
      rw [nothing]
      exact List.not_mem_nil
  have count : ((seenRepairs k r seen).take (missingSources k seen).length).length = (missingSources k seen).length :=
    taken
  rw [if_neg (not_lt.mpr count.ge), coefficients]
  have slots' : Slots (missingSources k seen) symbols := slots_of_length length
  have start := load_left rows length sized taken.ge fun id member => (mem_takenRepairs member).1
  have all : List.range (missingSources k seen).length = List.range' 0 ((missingSources k seen).length - 0) :=
    List.range_eq_range'
  have reducing := Reducing.columns slots' ⟨start, fun _ => id, Iff.rfl, fun j before => absurd before (Nat.not_lt_zero j)⟩
    all (Nat.zero_le _)
  simp only
  change Solved rows k r size seen symbols ((Elimination.columns (missingSources k seen)
    (List.range (missingSources k seen).length) (load rows k seen (missingSources k seen) (takenRepairs k r seen)
      symbols)).1, _)
  rcases reducing with ⟨s, solved, done⟩ | ⟨failed, irregular, s, reads⟩
  · have regular := done.regular.mp done.cleared.regular
    have side : ∀ x : Nat → Nat → Gf256, System.Solves (missingSources k seen).length
        ⟨fun i j => ofByte (rows ((takenRepairs k r seen).getD i 0) ((missingSources k seen).getD j 0)),
          fun i => word (subtractKnown rows k seen symbols ((takenRepairs k r seen).getD i 0))⟩ x →
        ∀ i < (missingSources k seen).length, word (Elimination.side (missingSources k seen) _ i) = x i :=
      fun x solves i hi => (done.reads.rhs i hi).trans ((done.solves x solves).eq done.cleared hi)
    refine ⟨iff_of_true solved (isUnit_solverMatrix.mpr regular), ⟨done.reads.length.trans length, done.reads.sized⟩,
      done.reads.kept, fun _ => ?_, fun _ sources count' sized' agree equations col hcol => ?_⟩
    · -- A solution exists, and it is what the right sides show.
      obtain ⟨x, solves⟩ := System.exists_solves (System.det_of_regular regular)
      refine (equations_iff rows length sized taken fun col hcol here => done.reads.kept col (unseen col here)).mpr ?_
      intro i hi
      rw [← solves i hi]
      refine Finset.sum_congr rfl fun j hj => congrArg _ ?_
      exact side x solves j (Finset.mem_range.mp hj)
    · by_cases missing : col ∈ missingSources k seen
      · obtain ⟨row, hrow, same⟩ := List.getElem_of_mem missing
        have slot : (missingSources k seen).getD row 0 = col := by rw [List.getD_eq_getElem _ _ hrow, same]
        have vector := side _ ((equations_iff rows length sized taken agree).mp equations) row hrow
        have length' := done.reads.side_length slots' hrow
        rw [Elimination.side, slot] at vector length'
        exact word_ext (length'.trans (sized' col (count' ▸ hcol)).symm) vector
      · exact (done.reads.kept col missing).trans (agree col hcol (known col hcol missing)).symm
  · have never : ¬(Elimination.columns (missingSources k seen) (List.range (missingSources k seen).length)
        (load rows k seen (missingSources k seen) (takenRepairs k r seen) symbols)).1 = true := by
      rw [failed]
      exact Bool.false_ne_true
    exact ⟨iff_of_false never (mt isUnit_solverMatrix.mp irregular), ⟨reads.length.trans length, reads.sized⟩, reads.kept,
      fun solved => absurd solved never, fun solved => absurd solved never⟩

/-- The second of two sources is missing. -/
theorem decodeSmallRs_solves_pair :
    Solved (fun _ col => if col = 0 then 3#8 else 2#8) 2 1 1 [true, false, true] [[5#8], [0#8], [1#8]]
      (decodeSmallRs (fun k r => if k = 2 ∧ r = 1 then some fun _ col => if col = 0 then 3#8 else 2#8 else none) 2 1
        [true, false, true] [[5#8], [0#8], [1#8]]) := by
  refine decodeSmallRs_solves rfl rfl (fun i hi => ?_) rfl (by decide)
  have few : i < 3 := hi
  interval_cases i
  · rfl
  · rfl
  · rfl

end MiniRtc.Fec
