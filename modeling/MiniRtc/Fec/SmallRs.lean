import MiniRtc.Fec.Gf256
import MiniRtc.Lib.RowReduction

/-! The erasure code of small blocks (rs_small.cpp). A repair is a combination of the sources; to
restore sources, as many repairs are taken as sources are missing, the known sources are subtracted
from them, and the system that is left is solved in the slots of the missing sources. The rows of
coefficients come from OpenFEC and are a parameter. -/
namespace MiniRtc.Fec

open Wire RowReduction Gf256

abbrev FecSymbols := List Bytes

/-- The coefficient of a source in a repair. -/
abbrev Coefficients := Nat → Nat → Byte

def kRsSmallMaxSources : Nat := 16

def kRsSmallMaxRepairs : Nat := 4

def symbolAt (symbols : FecSymbols) (i : Nat) : Bytes := symbols.getD i []

def multiplyAdd (dst src : Bytes) (coefficient : Byte) : Bytes :=
  if coefficient = 0#8 then dst
  else if coefficient = 1#8 then List.zipWith (· ^^^ ·) dst src
  else List.zipWith (fun d s => d ^^^ multiply coefficient s) dst src

def scaleSymbol (dst : Bytes) (coefficient : Byte) : Bytes :=
  if coefficient = 1#8 then dst else dst.map (multiply coefficient)

def supportsSmallRs (k r : Nat) : Bool := k ≠ 0 && k ≤ kRsSmallMaxSources && r ≠ 0 && r ≤ kRsSmallMaxRepairs

def repair (rows : Coefficients) (sources : FecSymbols) (row : Nat) : Bytes :=
  (List.range' 1 (sources.length - 1)).foldl
    (fun output col => multiplyAdd output (symbolAt sources col) (rows row col))
    (scaleSymbol (symbolAt sources 0) (rows row 0))

def encodeSmallRs (matrix : Nat → Nat → Option Coefficients) (sources : FecSymbols) (r : Nat) : Option FecSymbols :=
  (matrix sources.length r).map fun rows => (List.range r).map (repair rows sources)

/-! ### Elimination -/

/-- The coefficients that are reduced, and the symbols, which hold the right sides. -/
structure Elimination where
  reduced : Nat → Nat → Byte
  symbols : FecSymbols

namespace Elimination

variable (missing : List Nat) (e : Elimination)

/-- The right side of a row. -/
def side (row : Nat) : Bytes := symbolAt e.symbols (missing.getD row 0)

def setSide (row : Nat) (symbol : Bytes) : FecSymbols := e.symbols.set (missing.getD row 0) symbol

def swap (pivot col : Nat) : Elimination where
  reduced row := e.reduced (Equiv.swap pivot col row)
  symbols := (e.setSide missing pivot (e.side missing col)).set (missing.getD col 0) (e.side missing pivot)

def normalize (col : Nat) : Elimination where
  reduced row j :=
    if row = col ∧ col ≤ j ∧ j < missing.length then multiply (inverse (e.reduced col col)) (e.reduced col j)
    else e.reduced row j
  symbols := e.setSide missing col (scaleSymbol (e.side missing col) (inverse (e.reduced col col)))

def clear (col row : Nat) : Elimination :=
  if row = col ∨ e.reduced row col = 0#8 then e
  else {
    reduced := fun i j =>
      if i = row ∧ col ≤ j ∧ j < missing.length then
        e.reduced row j ^^^ multiply (e.reduced row col) (e.reduced col j)
      else e.reduced i j
    symbols := e.setSide missing row (multiplyAdd (e.side missing row) (e.side missing col) (e.reduced row col)) }

def column (col : Nat) : Bool × Elimination :=
  match (List.range' col (missing.length - col)).find? fun pivot => e.reduced pivot col ≠ 0#8 with
  | none => (false, e)
  | some pivot =>
    let e := if pivot ≠ col then e.swap missing pivot col else e
    (true, (List.range missing.length).foldl (fun e row => e.clear missing col row) (e.normalize missing col))

def columns (missing : List Nat) : List Nat → Elimination → Bool × Elimination
  | [], e => (true, e)
  | col :: cols, e =>
    let (pivoted, e) := e.column missing col
    if pivoted then columns missing cols e else (false, e)

end Elimination

/-- A repair without the sources that are known. -/
def subtractKnown (rows : Coefficients) (k : Nat) (seen : List Bool) (symbols : FecSymbols) (id : Nat) : Bytes :=
  (List.range k).foldl
    (fun rhs col => if seen.getD col false then multiplyAdd rhs (symbolAt symbols col) (rows id col) else rhs)
    (symbolAt symbols (k + id))

def missingSources (k : Nat) (seen : List Bool) : List Nat := (List.range k).filter fun i => !seen.getD i false

def seenRepairs (k r : Nat) (seen : List Bool) : List Nat := (List.range r).filter fun i => seen.getD (k + i) false

/-- The rows that are taken, before the elimination. -/
def load (rows : Coefficients) (k : Nat) (seen : List Bool) (missing repairIds : List Nat) (symbols : FecSymbols) :
    Elimination where
  reduced row col := rows (repairIds.getD row 0) (missing.getD col 0)
  symbols := (List.range missing.length).foldl
    (fun symbols row => symbols.set (missing.getD row 0) (subtractKnown rows k seen symbols (repairIds.getD row 0)))
    symbols

def decodeSmallRs (matrix : Nat → Nat → Option Coefficients) (k r : Nat) (seen : List Bool) (symbols : FecSymbols) :
    Bool × FecSymbols :=
  let missing := missingSources k seen
  if r < missing.length then (false, symbols)
  else if missing = [] then (true, symbols)
  else
    let repairIds := (seenRepairs k r seen).take missing.length
    if repairIds.length < missing.length then (false, symbols)
    else
      match matrix k r with
      | none => (false, symbols)
      | some rows =>
        let (solved, e) := Elimination.columns missing (List.range missing.length)
          (load rows k seen missing repairIds symbols)
        (solved, e.symbols)

/-! ### Symbols as vectors -/

/-- A symbol as a vector over the field; it is zero past its end. -/
def word (b : Bytes) : Nat → Gf256 := fun i => ofByte (byteAt b i)

theorem word_ext {a b : Bytes} (length : a.length = b.length) (same : word a = word b) : a = b := by
  refine List.ext_getElem length fun i ha hb => ?_
  have here : byteAt a i = byteAt b i := congrFun same i
  rwa [byteAt_eq ha, byteAt_eq hb] at here

theorem byteAt_zipWith {a b : Bytes} (length : a.length = b.length) {f : Byte → Byte → Byte} (zero : f 0#8 0#8 = 0#8)
    (i : Nat) : byteAt (List.zipWith f a b) i = f (byteAt a i) (byteAt b i) := by
  by_cases inside : i < a.length
  · have inside' : i < (List.zipWith f a b).length := by
      rw [List.length_zipWith]
      omega
    rw [byteAt_eq inside', byteAt_eq inside, byteAt_eq (length ▸ inside), List.getElem_zipWith]
  · have past : ∀ l : Bytes, l.length ≤ i → byteAt l i = 0#8 := fun l short => by
      rw [byteAt, List.getD_eq_getElem?_getD, List.getElem?_eq_none short]
      rfl
    rw [past a (not_lt.mp inside), past b (length ▸ not_lt.mp inside), zero]
    refine past _ ?_
    rw [List.length_zipWith]
    omega

theorem length_multiplyAdd {dst src : Bytes} (length : dst.length = src.length) (coefficient : Byte) :
    (multiplyAdd dst src coefficient).length = dst.length := by
  unfold multiplyAdd
  split
  · rfl
  split
  · rw [List.length_zipWith, ← length, min_self]
  · rw [List.length_zipWith, ← length, min_self]

theorem length_scaleSymbol (dst : Bytes) (coefficient : Byte) : (scaleSymbol dst coefficient).length = dst.length := by
  unfold scaleSymbol
  split
  · rfl
  · exact List.length_map _

theorem word_multiplyAdd {dst src : Bytes} (length : dst.length = src.length) (coefficient : Byte) :
    word (multiplyAdd dst src coefficient) = word dst + ofByte coefficient • word src := by
  have pointwise : ∀ i, byteAt (multiplyAdd dst src coefficient) i =
      byteAt dst i ^^^ multiply coefficient (byteAt src i) := by
    intro i
    unfold multiplyAdd
    split
    · rename_i zero
      rw [zero, multiply_comm, multiply_zero, BitVec.xor_zero]
    split
    · rename_i one
      rw [one, one_multiply, byteAt_zipWith length (by decide)]
    · rw [byteAt_zipWith length]
      rw [multiply_zero]
      decide
  exact funext pointwise

theorem word_scaleSymbol (dst : Bytes) (coefficient : Byte) :
    word (scaleSymbol dst coefficient) = ofByte coefficient • word dst := by
  have pointwise : ∀ i, byteAt (scaleSymbol dst coefficient) i = multiply coefficient (byteAt dst i) := by
    intro i
    unfold scaleSymbol
    split
    · rename_i one
      rw [one, one_multiply]
    · by_cases inside : i < dst.length
      · rw [byteAt_eq (by rwa [List.length_map]), List.getElem_map, byteAt_eq inside]
      · rw [byteAt, byteAt, List.getD_eq_getElem?_getD, List.getD_eq_getElem?_getD,
          List.getElem?_eq_none (by rw [List.length_map]; omega), List.getElem?_eq_none (not_lt.mp inside)]
        exact (multiply_zero coefficient).symm
  exact funext pointwise

theorem word_add_self (w : Nat → Gf256) : w + w = 0 := funext fun i => Gf256.add_self (w i)

/-- All symbols have this size. -/
def Sized (size : Nat) (symbols : FecSymbols) : Prop := ∀ i < symbols.length, (symbolAt symbols i).length = size

theorem symbolAt_eq {symbols : FecSymbols} {i : Nat} (inside : i < symbols.length) : symbolAt symbols i = symbols[i] := by
  simp [symbolAt, inside]

theorem symbolAt_set (symbols : FecSymbols) (i j : Nat) (symbol : Bytes) (inside : i < symbols.length) :
    symbolAt (symbols.set i symbol) j = if j = i then symbol else symbolAt symbols j := by
  unfold symbolAt
  rw [List.getD_eq_getElem?_getD, List.getElem?_set]
  by_cases same : i = j
  · subst same
    simp [inside]
  · simp [same, Ne.symm same]

theorem Sized.set {size : Nat} {symbols : FecSymbols} (sized : Sized size symbols) {i : Nat} (inside : i < symbols.length)
    {symbol : Bytes} (length : symbol.length = size) : Sized size (symbols.set i symbol) := by
  intro j hj
  rw [List.length_set] at hj
  rw [symbolAt_set symbols i j symbol inside]
  split
  · exact length
  · exact sized j hj

/-- A sum of multiples of symbols, built up in place. -/
theorem word_foldl {size : Nat} {symbols : FecSymbols} (coefficients : Nat → Byte) (cols : List Nat)
    (sized : ∀ col ∈ cols, (symbolAt symbols col).length = size) {output : Bytes} (length : output.length = size) :
    (cols.foldl (fun output col => multiplyAdd output (symbolAt symbols col) (coefficients col)) output).length = size ∧
      word (cols.foldl (fun output col => multiplyAdd output (symbolAt symbols col) (coefficients col)) output) =
        word output + (cols.map fun col => ofByte (coefficients col) • word (symbolAt symbols col)).sum := by
  induction cols generalizing output with
  | nil => simp [length]
  | cons col cols ih =>
    obtain ⟨here, others⟩ := List.forall_mem_cons.mp sized
    have same : output.length = (symbolAt symbols col).length := length.trans here.symm
    obtain ⟨length', sum⟩ := ih others ((length_multiplyAdd same (coefficients col)).trans length)
    rw [List.foldl_cons, List.map_cons, List.sum_cons, ← add_assoc, ← word_multiplyAdd same]
    exact ⟨length', sum⟩

/-- The combination of sources that a repair is. -/
def combination (rows : Coefficients) (sources : FecSymbols) (row : Nat) (cols : List Nat) : Nat → Gf256 :=
  (cols.map fun col => ofByte (rows row col) • word (symbolAt sources col)).sum

theorem repair_word {size : Nat} {rows : Coefficients} {sources : FecSymbols} (some' : sources ≠ [])
    (sized : Sized size sources) (row : Nat) :
    (repair rows sources row).length = size ∧
      word (repair rows sources row) = combination rows sources row (List.range sources.length) := by
  have positive : 0 < sources.length := List.length_pos_iff.mpr some'
  have inside : ∀ col ∈ List.range' 1 (sources.length - 1), (symbolAt sources col).length = size := by
    intro col member
    rw [List.mem_range'_1] at member
    exact sized col (by omega)
  have start : (scaleSymbol (symbolAt sources 0) (rows row 0)).length = size :=
    (length_scaleSymbol _ _).trans (sized 0 positive)
  obtain ⟨length, sum⟩ := word_foldl (rows row) _ inside start
  refine ⟨length, ?_⟩
  have range : List.range sources.length = 0 :: List.range' 1 (sources.length - 1) := by
    obtain ⟨n, count⟩ := Nat.exists_eq_succ_of_ne_zero positive.ne'
    rw [count, List.range_eq_range', List.range'_succ, Nat.succ_sub_one]
  unfold repair
  rw [sum, word_scaleSymbol, combination, range, List.map_cons, List.sum_cons]

theorem subtractKnown_eq (rows : Coefficients) (k : Nat) (seen : List Bool) (symbols : FecSymbols) (id : Nat) :
    subtractKnown rows k seen symbols id =
      ((List.range k).filter fun col => seen.getD col false).foldl
        (fun output col => multiplyAdd output (symbolAt symbols col) (rows id col)) (symbolAt symbols (k + id)) := by
  unfold subtractKnown
  rw [List.foldl_filter]

theorem sum_filter_add (p : Nat → Bool) (f : Nat → Nat → Gf256) (l : List Nat) :
    (l.map f).sum = ((l.filter p).map f).sum + ((l.filter fun i => !p i).map f).sum := by
  induction l with
  | nil => simp
  | cons a l ih =>
    cases kept : p a
    · simp [kept, ih, add_left_comm]
    · simp [kept, ih, add_assoc]

/-- What is left of a repair is a combination of the missing sources. -/
theorem subtractKnown_word {size k : Nat} {rows : Coefficients} {sources symbols : FecSymbols} {seen : List Bool} {id : Nat}
    (some' : sources ≠ []) (length : sources.length = k) (sized : Sized size sources)
    (known : ∀ col < k, seen.getD col false = true → symbolAt symbols col = symbolAt sources col)
    (received : symbolAt symbols (k + id) = repair rows sources id) :
    (subtractKnown rows k seen symbols id).length = size ∧
      word (subtractKnown rows k seen symbols id) = combination rows sources id (missingSources k seen) := by
  obtain ⟨length', whole⟩ : (repair rows sources id).length = size ∧
      word (repair rows sources id) = combination rows sources id (List.range sources.length) := repair_word some' sized id
  have kept : ∀ col ∈ (List.range k).filter fun col => seen.getD col false,
      symbolAt symbols col = symbolAt sources col ∧ (symbolAt symbols col).length = size := by
    intro col member
    obtain ⟨inside, here⟩ := List.mem_filter.mp member
    have same := known col (List.mem_range.mp inside) here
    rw [same]
    exact ⟨rfl, sized col (length ▸ List.mem_range.mp inside)⟩
  have start : (symbolAt symbols (k + id)).length = size := received ▸ length'
  obtain ⟨length'', sum⟩ := word_foldl (rows id) _ (fun col member => (kept col member).2) start
  rw [subtractKnown_eq]
  refine ⟨length'', ?_⟩
  have same : ((List.range k).filter fun col => seen.getD col false).map
      (fun col => ofByte (rows id col) • word (symbolAt symbols col)) =
      ((List.range k).filter fun col => seen.getD col false).map
        (fun col => ofByte (rows id col) • word (symbolAt sources col)) :=
    List.map_congr_left fun col member => by rw [(kept col member).1]
  rw [sum, received, whole, length, same, combination, sum_filter_add (fun col => seen.getD col false), add_comm,
    ← add_assoc, word_add_self, zero_add]
  rfl

/-! ### The elimination solves a system -/

/-- The system that an elimination stands for, and the symbols that it leaves. -/
structure Reads (missing : List Nat) (size : Nat) (before : FecSymbols) (e : Elimination)
    (s : System Gf256 (Nat → Gf256)) : Prop where
  matrix : ∀ i < missing.length, ∀ j < missing.length, ofByte (e.reduced i j) = s.matrix i j
  rhs : ∀ i < missing.length, word (e.side missing i) = s.rhs i
  length : e.symbols.length = before.length
  sized : Sized size e.symbols
  kept : ∀ i, i ∉ missing → symbolAt e.symbols i = symbolAt before i

/-- The missing sources are distinct slots of the symbols. -/
structure Slots (missing : List Nat) (before : FecSymbols) : Prop where
  distinct : missing.Nodup
  inside : ∀ i ∈ missing, i < before.length

namespace Slots

variable {missing : List Nat} {before : FecSymbols} (slots : Slots missing before)

theorem mem {i : Nat} (hi : i < missing.length) : missing.getD i 0 ∈ missing := by
  rw [List.getD_eq_getElem _ _ hi]
  exact List.getElem_mem hi

include slots

theorem lt {i : Nat} (hi : i < missing.length) : missing.getD i 0 < before.length := slots.inside _ (mem hi)

theorem inj {i j : Nat} (hi : i < missing.length) (hj : j < missing.length) :
    missing.getD i 0 = missing.getD j 0 ↔ i = j := by
  rw [List.getD_eq_getElem _ _ hi, List.getD_eq_getElem _ _ hj]
  exact slots.distinct.getElem_inj_iff

end Slots

namespace Reads

variable {missing : List Nat} {size : Nat} {before : FecSymbols} {e : Elimination} {s : System Gf256 (Nat → Gf256)}

theorem side_length (reads : Reads missing size before e s) (slots : Slots missing before) {i : Nat}
    (hi : i < missing.length) : (e.side missing i).length = size :=
  reads.sized _ (reads.length ▸ slots.lt hi)

/-- The right sides after one of them is set. -/
theorem side_setSide (reads : Reads missing size before e s) (slots : Slots missing before) {i row : Nat}
    (hi : i < missing.length) (hrow : row < missing.length) (symbol : Bytes) :
    symbolAt (e.setSide missing row symbol) (missing.getD i 0) = if i = row then symbol else e.side missing i := by
  rw [Elimination.setSide, symbolAt_set _ _ _ _ (reads.length ▸ slots.lt hrow)]
  simp only [slots.inj hi hrow]
  rfl

theorem setSide_kept (reads : Reads missing size before e s) (slots : Slots missing before) {row : Nat}
    (hrow : row < missing.length) (symbol : Bytes) {i : Nat} (other : i ∉ missing) :
    symbolAt (e.setSide missing row symbol) i = symbolAt before i := by
  rw [Elimination.setSide, symbolAt_set _ _ _ _ (reads.length ▸ slots.lt hrow), if_neg, reads.kept i other]
  exact fun same => other (same ▸ Slots.mem hrow)

theorem setSide_sized (reads : Reads missing size before e s) (slots : Slots missing before) {row : Nat}
    (hrow : row < missing.length) {symbol : Bytes} (length : symbol.length = size) :
    Sized size (e.setSide missing row symbol) := reads.sized.set (reads.length ▸ slots.lt hrow) length

theorem swap (reads : Reads missing size before e s) (slots : Slots missing before) {pivot col : Nat}
    (hpivot : pivot < missing.length) (hcol : col < missing.length) :
    Reads missing size before (e.swap missing pivot col) (s.swap pivot col) := by
  have inside : missing.getD col 0 < (e.setSide missing pivot (e.side missing col)).length := by
    rw [Elimination.setSide, List.length_set, reads.length]
    exact slots.lt hcol
  have sized := reads.setSide_sized slots hpivot (reads.side_length slots hcol)
  refine ⟨fun i hi j hj => reads.matrix _ (System.swap_lt hpivot hcol hi) j hj, fun i hi => ?_, ?_, ?_, fun i other => ?_⟩
  · have here : (e.swap missing pivot col).side missing i = e.side missing (Equiv.swap pivot col i) := by
      rw [Elimination.side, Elimination.swap, symbolAt_set _ _ _ _ inside, reads.side_setSide slots hi hpivot]
      simp only [slots.inj hi hcol]
      rw [Equiv.swap_apply_def]
      by_cases hcol' : i = col
      · subst hcol'
        by_cases hpivot' : i = pivot
        · rw [if_pos rfl, if_pos hpivot', hpivot']
        · rw [if_pos rfl, if_neg hpivot', if_pos rfl]
      · rw [if_neg hcol']
        by_cases hpivot' : i = pivot
        · rw [if_pos hpivot', if_pos hpivot']
        · rw [if_neg hpivot', if_neg hpivot', if_neg hcol']
    rw [here]
    exact reads.rhs _ (System.swap_lt hpivot hcol hi)
  · rw [Elimination.swap, List.length_set, Elimination.setSide, List.length_set, reads.length]
  · exact sized.set inside (reads.side_length slots hpivot)
  · rw [Elimination.swap, symbolAt_set _ _ _ _ inside, if_neg, reads.setSide_kept slots hpivot _ other]
    exact fun same => other (same ▸ Slots.mem hcol)

theorem normalize (reads : Reads missing size before e s) (slots : Slots missing before) {col : Nat}
    (hcol : col < missing.length) :
    Reads missing size before (e.normalize missing col) (s.scale col col (s.matrix col col)⁻¹) := by
  have pivot : ofByte (inverse (e.reduced col col)) = (s.matrix col col)⁻¹ := by
    rw [ofByte_inverse, reads.matrix col hcol col hcol]
  have length : (scaleSymbol (e.side missing col) (inverse (e.reduced col col))).length = size :=
    (length_scaleSymbol _ _).trans (reads.side_length slots hcol)
  refine ⟨fun i hi j hj => ?_, fun i hi => ?_, ?_, reads.setSide_sized slots hcol length, fun i other =>
    reads.setSide_kept slots hcol _ other⟩
  · simp only [Elimination.normalize, System.scale, hj, and_true]
    split
    · rw [ofByte_multiply, pivot, reads.matrix col hcol j hj]
    · exact reads.matrix i hi j hj
  · rw [Elimination.side, Elimination.normalize, reads.side_setSide slots hi hcol]
    simp only [System.scale]
    split
    · rw [word_scaleSymbol, pivot, reads.rhs col hcol]
    · exact reads.rhs i hi
  · rw [Elimination.normalize, Elimination.setSide, List.length_set, reads.length]

theorem clear (reads : Reads missing size before e s) (slots : Slots missing before) {col row : Nat}
    (hcol : col < missing.length) (hrow : row < missing.length) (other : row ≠ col) :
    Reads missing size before (e.clear missing col row) (s.add col row col (s.matrix row col)) := by
  have factor := reads.matrix row hrow col hcol
  by_cases zero : e.reduced row col = 0#8
  · have none : s.matrix row col = 0 := by rw [← factor, zero]; rfl
    rw [Elimination.clear, if_pos (Or.inr zero), none]
    refine ⟨fun i hi j hj => ?_, fun i hi => ?_, reads.length, reads.sized, reads.kept⟩
    · simp only [System.add, zero_mul, add_zero]
      split
      · rename_i here
        rw [here.1, ← reads.matrix row hrow j hj]
      · exact reads.matrix i hi j hj
    · simp only [System.add, zero_smul, add_zero]
      split
      · rename_i here
        rw [here, ← reads.rhs row hrow]
      · exact reads.rhs i hi
  · have same : (e.side missing row).length = (e.side missing col).length :=
      (reads.side_length slots hrow).trans (reads.side_length slots hcol).symm
    have length : (multiplyAdd (e.side missing row) (e.side missing col) (e.reduced row col)).length = size :=
      (length_multiplyAdd same _).trans (reads.side_length slots hrow)
    rw [Elimination.clear, if_neg (not_or.mpr ⟨other, zero⟩)]
    refine ⟨fun i hi j hj => ?_, fun i hi => ?_, ?_, reads.setSide_sized slots hrow length, fun i out =>
      reads.setSide_kept slots hrow _ out⟩
    · simp only [System.add, hj, and_true]
      split
      · rw [ofByte_xor, ofByte_multiply, factor, reads.matrix row hrow j hj, reads.matrix col hcol j hj]
      · exact reads.matrix i hi j hj
    · rw [Elimination.side, reads.side_setSide slots hi hrow]
      simp only [System.add]
      split
      · rw [word_multiplyAdd same, factor, reads.rhs row hrow, reads.rhs col hcol]
      · exact reads.rhs i hi
    · rw [Elimination.setSide, List.length_set, reads.length]

end Reads

/-- An elimination on its way, with the system it started from. -/
structure Reducing (missing : List Nat) (size : Nat) (before : FecSymbols) (s₀ : System Gf256 (Nat → Gf256)) (col : Nat)
    (e : Elimination) (s : System Gf256 (Nat → Gf256)) : Prop where
  reads : Reads missing size before e s
  solves : ∀ x, s₀.Solves missing.length x → s.Solves missing.length x
  regular : System.Regular missing.length s.matrix ↔ System.Regular missing.length s₀.matrix
  cleared : System.Cleared missing.length col s.matrix

namespace Reducing

variable {missing : List Nat} {size : Nat} {before : FecSymbols} {s₀ : System Gf256 (Nat → Gf256)} {col : Nat}
  {e : Elimination} {s : System Gf256 (Nat → Gf256)}

theorem swap (reducing : Reducing missing size before s₀ col e s) (slots : Slots missing before) {pivot : Nat}
    (later : col ≤ pivot) (hpivot : pivot < missing.length) (hcol : col < missing.length) :
    Reducing missing size before s₀ col (e.swap missing pivot col) (s.swap pivot col) :=
  ⟨reducing.reads.swap slots hpivot hcol, fun x start => (reducing.solves x start).swap hpivot hcol,
    (System.regular_swap hpivot hcol).trans reducing.regular, reducing.cleared.swap later le_rfl hpivot hcol⟩

theorem normalize (reducing : Reducing missing size before s₀ col e s) (slots : Slots missing before)
    (hcol : col < missing.length) (pivot : s.matrix col col ≠ 0) :
    Reducing missing size before s₀ col (e.normalize missing col) (s.scale col col (s.matrix col col)⁻¹) := by
  have zero := reducing.cleared.zero hcol le_rfl
  exact ⟨reducing.reads.normalize slots hcol, fun x start => (reducing.solves x start).scale zero,
    (System.regular_scale zero (inv_ne_zero pivot)).trans reducing.regular, reducing.cleared.scale⟩

theorem clear (reducing : Reducing missing size before s₀ col e s) (slots : Slots missing before)
    (hcol : col < missing.length) {row : Nat} (hrow : row < missing.length) (other : row ≠ col) :
    Reducing missing size before s₀ col (e.clear missing col row) (s.add col row col (s.matrix row col)) := by
  have zero := reducing.cleared.zero hcol le_rfl
  exact ⟨reducing.reads.clear slots hcol hrow other, fun x start => (reducing.solves x start).add hcol zero,
    (System.regular_add hcol (Ne.symm other) zero).trans reducing.regular, reducing.cleared.add⟩

/-- The rows before this one are zero in the column, apart from the pivot. -/
structure Clearing (missing : List Nat) (size : Nat) (before : FecSymbols) (s₀ : System Gf256 (Nat → Gf256))
    (col row : Nat) (e : Elimination) (s : System Gf256 (Nat → Gf256)) : Prop
    extends Reducing missing size before s₀ col e s where
  pivot : s.matrix col col = 1
  zeros : ∀ i < row, i ≠ col → s.matrix i col = 0

theorem clear_rows (slots : Slots missing before) (hcol : col < missing.length)
    (clearing : Clearing missing size before s₀ col 0 e s) {row : Nat} (most : row ≤ missing.length) :
    ∃ s', Clearing missing size before s₀ col row
      ((List.range row).foldl (fun e row => e.clear missing col row) e) s' := by
  induction row with
  | zero => exact ⟨s, clearing⟩
  | succ row ih =>
    obtain ⟨s', done⟩ := ih (Nat.le_of_succ_le most)
    rw [List.range_succ, List.foldl_append, List.foldl_cons, List.foldl_nil]
    generalize (List.range row).foldl (fun e row => e.clear missing col row) e = e' at done
    by_cases same : row = col
    · refine ⟨s', ⟨?_, done.pivot, fun i hi other => done.zeros i (by omega) other⟩⟩
      rw [Elimination.clear, if_pos (Or.inl same)]
      exact done.toReducing
    · refine ⟨_, ⟨done.toReducing.clear slots hcol most same, ?_, fun i hi other => ?_⟩⟩
      · simp only [System.add, Ne.symm same, false_and, if_false]
        exact done.pivot
      · simp only [System.add, le_refl, and_true]
        split
        · rw [done.pivot, mul_one, add_self]
        · rename_i away
          exact done.zeros i (by omega) other

/-- A column is cleared, or it has no pivot and all is left as it is. -/
theorem column (reducing : Reducing missing size before s₀ col e s) (slots : Slots missing before)
    (hcol : col < missing.length) :
    (∃ s', (e.column missing col).1 = true ∧ Reducing missing size before s₀ (col + 1) (e.column missing col).2 s') ∨
      ((e.column missing col).1 = false ∧ (e.column missing col).2 = e ∧ ¬System.Regular missing.length s₀.matrix) := by
  unfold Elimination.column
  cases found : (List.range' col (missing.length - col)).find? fun pivot => decide (e.reduced pivot col ≠ 0#8) with
  | none =>
    refine Or.inr ⟨rfl, rfl, fun regular => ?_⟩
    obtain ⟨place, later, hplace, nonzero⟩ :=
      System.exists_pivot (reducing.regular.mpr regular) reducing.cleared hcol
    rw [← reducing.reads.matrix place hplace col hcol] at nonzero
    have nobody := List.find?_eq_none.mp found place (List.mem_range'_1.mpr ⟨later, by omega⟩)
    exact absurd (decide_eq_true (mt ofByte_eq_zero.mpr nonzero)) nobody
  | some pivot =>
    obtain ⟨later', inside⟩ := List.mem_range'_1.mp (List.mem_of_find?_eq_some found)
    have hpivot : pivot < missing.length := by omega
    have unit := of_decide_eq_true (List.find?_some (p := fun pivot => decide (e.reduced pivot col ≠ 0#8)) found)
    have swapped : ∃ s', Reducing missing size before s₀ col (if pivot ≠ col then e.swap missing pivot col else e) s' ∧
        s'.matrix col col ≠ 0 := by
      by_cases same : pivot = col
      · subst same
        refine ⟨s, ?_, ?_⟩
        · rw [if_neg (not_not.mpr rfl)]
          exact reducing
        · rw [← reducing.reads.matrix pivot hcol pivot hcol]
          exact mt ofByte_eq_zero.mp unit
      · refine ⟨s.swap pivot col, ?_, ?_⟩
        · rw [if_pos same]
          exact reducing.swap slots later' hpivot hcol
        · simp only [System.swap, Equiv.swap_apply_right]
          rw [← reducing.reads.matrix pivot hpivot col hcol]
          exact mt ofByte_eq_zero.mp unit
    obtain ⟨s', reducing', nonzero'⟩ := swapped
    have one : (s'.scale col col (s'.matrix col col)⁻¹).matrix col col = 1 := by
      simp only [System.scale, le_refl, and_self, if_true]
      exact inv_mul_cancel₀ nonzero'
    obtain ⟨s'', cleared⟩ := clear_rows slots hcol ⟨reducing'.normalize slots hcol nonzero', one,
      fun row before => absurd before (Nat.not_lt_zero row)⟩ le_rfl
    exact Or.inl ⟨s'', rfl, cleared.reads, cleared.solves, cleared.regular,
      cleared.cleared.succ cleared.pivot cleared.zeros⟩

/-- All columns are cleared, or the elimination stops somewhere and the matrix was not regular. -/
theorem columns (slots : Slots missing before) {cols : List Nat} (reducing : Reducing missing size before s₀ col e s)
    (rest : cols = List.range' col (missing.length - col)) (most : col ≤ missing.length) :
    (∃ s', (Elimination.columns missing cols e).1 = true ∧
        Reducing missing size before s₀ missing.length (Elimination.columns missing cols e).2 s') ∨
      ((Elimination.columns missing cols e).1 = false ∧ ¬System.Regular missing.length s₀.matrix ∧
        ∃ s', Reads missing size before (Elimination.columns missing cols e).2 s') := by
  induction cols generalizing col e s with
  | nil =>
    have last : col = missing.length := by
      have none := congrArg List.length rest
      rw [List.length_nil, List.length_range'] at none
      omega
    subst last
    exact Or.inl ⟨s, rfl, reducing⟩
  | cons first cols ih =>
    have more : col < missing.length := by
      have some' := congrArg List.length rest
      rw [List.length_cons, List.length_range'] at some'
      omega
    obtain ⟨n, count⟩ := Nat.exists_eq_succ_of_ne_zero (show missing.length - col ≠ 0 by omega)
    rw [count, List.range'_succ] at rest
    obtain ⟨rfl, tail⟩ := List.cons.inj rest
    have next : cols = List.range' (first + 1) (missing.length - (first + 1)) := by
      rw [tail]
      congr 1
      omega
    rcases reducing.column slots more with ⟨s', pivoted, reducing'⟩ | ⟨stuck, same, irregular⟩
    · simp only [Elimination.columns, pivoted, if_true]
      exact ih reducing' next more
    · simp only [Elimination.columns, stuck, Bool.false_eq_true, if_false]
      rw [same]
      exact Or.inr ⟨trivial, irregular, s, reducing.reads⟩

end Reducing

/-- An elimination on the way to a solution. -/
structure Solving (missing : List Nat) (size : Nat) (before : FecSymbols) (x : Nat → Nat → Gf256) (col : Nat)
    (e : Elimination) (s : System Gf256 (Nat → Gf256)) : Prop where
  reads : Reads missing size before e s
  solves : s.Solves missing.length x
  regular : System.Regular missing.length s.matrix
  cleared : System.Cleared missing.length col s.matrix

theorem Solving.columns {missing : List Nat} {size : Nat} {before : FecSymbols} {x : Nat → Nat → Gf256} {col : Nat}
    {e : Elimination} {s : System Gf256 (Nat → Gf256)} (slots : Slots missing before) {cols : List Nat}
    (solving : Solving missing size before x col e s) (rest : cols = List.range' col (missing.length - col))
    (most : col ≤ missing.length) :
    ∃ s', (Elimination.columns missing cols e).1 = true ∧
      Solving missing size before x missing.length (Elimination.columns missing cols e).2 s' := by
  have reducing : Reducing missing size before s col e s := ⟨solving.reads, fun _ => id, Iff.rfl, solving.cleared⟩
  rcases reducing.columns slots rest most with ⟨s', solved, done⟩ | ⟨-, irregular, -⟩
  · exact ⟨s', solved, done.reads, done.solves x solving.solves, done.regular.mpr solving.regular, done.cleared⟩
  · exact absurd solving.regular irregular

/-! ### Decoding -/

/-- Every square part of the coefficients is nonsingular. -/
def Nonsingular (k r : Nat) (rows : Coefficients) : Prop :=
  ∀ (m : Nat) (f g : Fin m → Nat), StrictMono f → StrictMono g → (∀ i, f i < r) → (∀ j, g j < k) →
    (Matrix.of fun i j => ofByte (rows (f i) (g j))).det ≠ 0

/-- The symbols that are seen are those of a block of sources. -/
structure Received (rows : Coefficients) (k r size : Nat) (sources : FecSymbols) (seen : List Bool)
    (symbols : FecSymbols) : Prop where
  some : sources ≠ []
  count : sources.length = k
  even : Sized size sources
  length : symbols.length = k + r
  sized : Sized size symbols
  known : ∀ col < k, seen.getD col false = true → symbolAt symbols col = symbolAt sources col
  repairs : ∀ id < r, seen.getD (k + id) false = true → symbolAt symbols (k + id) = repair rows sources id

theorem sum_map_getD (f : Nat → Nat → Gf256) (l : List Nat) :
    (l.map f).sum = ∑ j ∈ Finset.range l.length, f (l.getD j 0) := by
  induction l with
  | nil => rfl
  | cons a l ih =>
    rw [List.map_cons, List.sum_cons, List.length_cons, Finset.sum_range_succ', ih, add_comm]
    rfl

theorem getD_strictMono {l : List Nat} (sorted : l.Pairwise (· < ·)) {m : Nat} (most : m ≤ l.length) :
    StrictMono fun i : Fin m => l.getD i 0 := by
  intro i j less
  have hi : (i : Nat) < l.length := i.isLt.trans_le most
  have hj : (j : Nat) < l.length := j.isLt.trans_le most
  simp only [List.getD_eq_getElem _ _ hi, List.getD_eq_getElem _ _ hj]
  exact List.pairwise_iff_getElem.mp sorted i j hi hj less

theorem getD_mem {l : List Nat} {i : Nat} (hi : i < l.length) : l.getD i 0 ∈ l := Slots.mem hi

section Decode

variable {rows : Coefficients} {k r size : Nat} {sources symbols : FecSymbols} {seen : List Bool}

theorem slots_of_length (length : symbols.length = k + r) : Slots (missingSources k seen) symbols where
  distinct := List.nodup_range.filter _
  inside := by
    intro i member
    have below := List.mem_range.mp (List.mem_filter.mp member).1
    omega

theorem missingSources_slots (received : Received rows k r size sources seen symbols) :
    Slots (missingSources k seen) symbols := slots_of_length received.length

theorem mem_missingSources {i : Nat} : i ∈ missingSources k seen ↔ i < k ∧ seen.getD i false = false := by
  rw [missingSources, List.mem_filter, List.mem_range, Bool.not_eq_true']

/-- The sources that are seen, and the repair, are all that is read. -/
theorem subtractKnown_congr {symbols' : FecSymbols} {id : Nat} (rows : Coefficients)
    (same : ∀ i, i ∉ missingSources k seen → symbolAt symbols' i = symbolAt symbols i) :
    subtractKnown rows k seen symbols' id = subtractKnown rows k seen symbols id := by
  have repair' : symbolAt symbols' (k + id) = symbolAt symbols (k + id) :=
    same _ fun missing => absurd (mem_missingSources.mp missing).1 (by omega)
  rw [subtractKnown_eq, subtractKnown_eq, repair']
  refine List.foldl_ext _ _ _ fun output col member => ?_
  have seen' := (List.mem_filter.mp member).2
  rw [same col fun missing => Bool.noConfusion ((mem_missingSources.mp missing).2.symm.trans seen')]

theorem length_subtractKnown (rows : Coefficients) (length : symbols.length = k + r) (sized : Sized size symbols) {id : Nat}
    (below : id < r) : (subtractKnown rows k seen symbols id).length = size := by
  rw [subtractKnown_eq]
  refine (word_foldl (rows id) _ (fun col member => ?_) (sized _ (by omega))).1
  have inside := List.mem_range.mp (List.mem_filter.mp member).1
  exact sized col (by omega)

/-- The rows that are taken, each with what is left of its repair on its right side. -/
theorem load_left (rows : Coefficients) (length : symbols.length = k + r) (sized : Sized size symbols) {ids : List Nat}
    (enough : (missingSources k seen).length ≤ ids.length) (here : ∀ id ∈ ids, id < r) :
    Reads (missingSources k seen) size symbols (load rows k seen (missingSources k seen) ids symbols)
      ⟨fun i j => ofByte (rows (ids.getD i 0) ((missingSources k seen).getD j 0)),
        fun i => word (subtractKnown rows k seen symbols (ids.getD i 0))⟩ := by
  have slots : Slots (missingSources k seen) symbols := slots_of_length length
  have filled : ∀ count ≤ (missingSources k seen).length, ∀ filled, filled = (List.range count).foldl
      (fun symbols row => symbols.set ((missingSources k seen).getD row 0)
        (subtractKnown rows k seen symbols (ids.getD row 0))) symbols →
      filled.length = symbols.length ∧ Sized size filled ∧
        (∀ i, i ∉ missingSources k seen → symbolAt filled i = symbolAt symbols i) ∧
        ∀ i < count, symbolAt filled ((missingSources k seen).getD i 0) =
          subtractKnown rows k seen symbols (ids.getD i 0) := by
    intro count most
    induction count with
    | zero =>
      rintro filled rfl
      exact ⟨rfl, sized, fun _ _ => rfl, nofun⟩
    | succ count ih =>
      rintro filled rfl
      rw [List.range_succ, List.foldl_append, List.foldl_cons, List.foldl_nil]
      obtain ⟨length', sized', kept, done⟩ := ih (Nat.le_of_succ_le most) _ rfl
      generalize (List.range count).foldl (fun symbols row => symbols.set ((missingSources k seen).getD row 0)
        (subtractKnown rows k seen symbols (ids.getD row 0))) symbols = filled at length' sized' kept done ⊢
      have below := here _ (getD_mem (lt_of_lt_of_le most enough))
      have inside : (missingSources k seen).getD count 0 < filled.length := length' ▸ slots.lt most
      rw [subtractKnown_congr rows kept]
      refine ⟨(List.length_set ..).trans length', sized'.set inside (length_subtractKnown rows length sized below),
        fun i other => ?_, fun i hi => ?_⟩
      · rw [symbolAt_set _ _ _ _ inside, if_neg, kept i other]
        exact fun same => other (same ▸ Slots.mem most)
      · rw [symbolAt_set _ _ _ _ inside]
        have hi' : i < (missingSources k seen).length := by omega
        simp only [slots.inj hi' most]
        split
        · rename_i same
          rw [same]
        · exact done i (by omega)
  obtain ⟨length', sized', kept, done⟩ := filled _ le_rfl _ rfl
  exact ⟨fun _ _ _ _ => rfl, fun i hi => congrArg word (done i hi), length', sized', kept⟩

/-- The rows that are taken, each with the missing sources on its right side. -/
theorem load_reads (received : Received rows k r size sources seen symbols) {ids : List Nat}
    (enough : (missingSources k seen).length ≤ ids.length)
    (here : ∀ id ∈ ids, id < r ∧ seen.getD (k + id) false = true) :
    Reads (missingSources k seen) size symbols (load rows k seen (missingSources k seen) ids symbols)
      ⟨fun i j => ofByte (rows (ids.getD i 0) ((missingSources k seen).getD j 0)),
        fun i => combination rows sources (ids.getD i 0) (missingSources k seen)⟩ := by
  have reads := load_left rows received.length received.sized enough fun id member => (here id member).1
  refine ⟨reads.matrix, fun i hi => (reads.rhs i hi).trans ?_, reads.length, reads.sized, reads.kept⟩
  obtain ⟨below, came⟩ := here _ (getD_mem (lt_of_lt_of_le hi enough))
  exact (subtractKnown_word received.some received.count received.even received.known
    (received.repairs _ below came)).2

theorem load_solving (received : Received rows k r size sources seen symbols) (nonsingular : Nonsingular k r rows)
    {ids : List Nat} (sorted : ids.Pairwise (· < ·)) (enough : (missingSources k seen).length ≤ ids.length)
    (here : ∀ id ∈ ids, id < r ∧ seen.getD (k + id) false = true) :
    Solving (missingSources k seen) size symbols
      (fun j => word (symbolAt sources ((missingSources k seen).getD j 0))) 0
      (load rows k seen (missingSources k seen) ids symbols)
      ⟨fun i j => ofByte (rows (ids.getD i 0) ((missingSources k seen).getD j 0)),
        fun i => combination rows sources (ids.getD i 0) (missingSources k seen)⟩ := by
  have sorted' : (missingSources k seen).Pairwise (· < ·) := List.pairwise_lt_range.filter _
  refine ⟨load_reads received enough here, fun i _ => ?_, System.regular_of_det ?_, nofun⟩
  · exact (sum_map_getD (fun col => ofByte (rows (ids.getD i 0) col) • word (symbolAt sources col)) _).symm
  · exact nonsingular _ (fun i => ids.getD i 0) (fun j => (missingSources k seen).getD j 0)
      (getD_strictMono sorted enough) (getD_strictMono sorted' le_rfl)
      (fun i => (here _ (getD_mem (i.isLt.trans_le enough))).1) fun j => (mem_missingSources.mp (getD_mem j.isLt)).1

/-- Enough symbols of a block restore its sources and leave the repairs. -/
structure Restored (k r size : Nat) (sources symbols : FecSymbols) (result : Bool × FecSymbols) : Prop where
  solved : result.1 = true
  length : result.2.length = k + r
  sized : Sized size result.2
  sources : ∀ i < k, symbolAt result.2 i = symbolAt sources i
  repairs : ∀ i, k ≤ i → symbolAt result.2 i = symbolAt symbols i

theorem decodeSmallRs_restored {matrix : Nat → Nat → Option Coefficients} (coefficients : matrix k r = some rows)
    (nonsingular : Nonsingular k r rows) (received : Received rows k r size sources seen symbols)
    (enough : (missingSources k seen).length ≤ (seenRepairs k r seen).length) :
    Restored k r size sources symbols (decodeSmallRs matrix k r seen symbols) := by
  have known : ∀ i < k, i ∉ missingSources k seen → symbolAt symbols i = symbolAt sources i := by
    intro i hi other
    refine received.known i hi ?_
    by_contra unseen
    exact other (mem_missingSources.mpr ⟨hi, Bool.eq_false_of_not_eq_true unseen⟩)
  have most : (seenRepairs k r seen).length ≤ r := by
    have filtered := List.length_filter_le (fun i => seen.getD (k + i) false) (List.range r)
    rwa [List.length_range] at filtered
  unfold decodeSmallRs
  simp only
  rw [if_neg (by omega)]
  split
  · rename_i nothing
    exact ⟨rfl, received.length, received.sized, fun i hi => known i hi (by rw [nothing]; exact List.not_mem_nil),
      fun _ _ => rfl⟩
  have length : ((seenRepairs k r seen).take (missingSources k seen).length).length =
      (missingSources k seen).length := by
    rw [List.length_take]
    omega
  rw [if_neg (not_lt.mpr length.ge), coefficients]
  have sorted : (seenRepairs k r seen).Pairwise (· < ·) := List.pairwise_lt_range.filter _
  have here : ∀ id ∈ (seenRepairs k r seen).take (missingSources k seen).length,
      id < r ∧ seen.getD (k + id) false = true := by
    intro id member
    obtain ⟨below, came⟩ := List.mem_filter.mp (List.mem_of_mem_take member)
    exact ⟨List.mem_range.mp below, came⟩
  have slots := missingSources_slots received
  have solving := load_solving received nonsingular (sorted.sublist (List.take_sublist _ _)) length.ge here
  have all : List.range (missingSources k seen).length = List.range' 0 ((missingSources k seen).length - 0) :=
    List.range_eq_range'
  obtain ⟨s, solved, done⟩ := Solving.columns slots solving all (Nat.zero_le _)
  refine ⟨solved, done.reads.length.trans received.length, done.reads.sized, fun i hi => ?_, fun i later => ?_⟩
  · by_cases missing : i ∈ missingSources k seen
    · obtain ⟨row, hrow, same⟩ := List.getElem_of_mem missing
      have slot : (missingSources k seen).getD row 0 = i := by rw [List.getD_eq_getElem _ _ hrow, same]
      have vector : word (Elimination.side (missingSources k seen) _ row) = word (symbolAt sources i) :=
        (done.reads.rhs row hrow).trans ((done.solves.eq done.cleared hrow).trans (by rw [slot]))
      have length' := done.reads.side_length slots hrow
      rw [Elimination.side, slot] at vector length'
      exact word_ext (length'.trans (received.even i (received.count ▸ hi)).symm) vector
    · exact (done.reads.kept i missing).trans (known i hi missing)
  · exact done.reads.kept i fun missing => absurd (mem_missingSources.mp missing).1 (not_lt.mpr later)

end Decode

end MiniRtc.Fec
