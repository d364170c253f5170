import MiniRtc.Fec.SmallRs
import MiniRtc.Lib.BlockLoop
import MiniRtc.Lib.Octets

/-! The tables of the field and the loops that use them (rs_small.cpp). A platform has the instructions for 16 octets or
it has not, and its words begin with the low octet or with the high one; the result is the same on all of them. -/
namespace MiniRtc.Fec

open Wire BlockLoop

/-! ### Tables -/

/-- The rounds of the constructor that are left, on unsigned numbers. -/
def productBits : Nat → Nat → Nat → Nat → Nat
  | 0, _, _, product => product
  | bit + 1, x, y, product =>
    let product := if y &&& 1 ≠ 0 then product ^^^ x else product
    let x := x <<< 1
    let x := if x &&& 256 ≠ 0 then x ^^^ 0x11d else x
    productBits bit x (y >>> 1) product

structure FieldTables where
  multiply : Byte → Byte → Byte
  inverse : Byte → Byte
  low : Byte → Bytes
  high : Byte → Bytes

def gf : FieldTables where
  multiply a b := BitVec.ofNat 8 (productBits 8 a.toNat b.toNat 0)
  inverse a :=
    (List.range 256).foldl
      (fun inverse b => if productBits 8 a.toNat b 0 = 1 then BitVec.ofNat 8 b else inverse) 0#8
  low a := (List.range 16).map fun nibble => BitVec.ofNat 8 (productBits 8 a.toNat nibble 0)
  high a := (List.range 16).map fun nibble => BitVec.ofNat 8 (productBits 8 a.toNat (nibble <<< 4) 0)

theorem double_eq : ∀ x : Byte,
    (if x.toNat <<< 1 &&& 256 ≠ 0 then x.toNat <<< 1 ^^^ 0x11d else x.toNat <<< 1) = (double x).toNat := by
  decide +kernel

theorem productBits_eq (bit : Nat) (x y product : Byte) :
    productBits bit x.toNat y.toNat product.toNat = (multiplyBits bit x y product).toNat := by
  induction bit generalizing x y product with
  | zero => rfl
  | succ bit ih =>
    have odd : (y.toNat &&& 1 ≠ 0) = (y.getLsbD 0 = true) := by
      simp [BitVec.getLsbD, Nat.testBit_zero, Nat.and_one_is_mod]
    have added : (if y.toNat &&& 1 ≠ 0 then product.toNat ^^^ x.toNat else product.toNat) =
        (if y.getLsbD 0 then product ^^^ x else product).toNat := by
      simp only [odd]
      split
      · rw [BitVec.toNat_xor]
      · rfl
    rw [productBits, multiplyBits]
    simp only [added, double_eq, ← BitVec.toNat_ushiftRight]
    exact ih _ _ _

theorem product_eq (a b : Byte) : productBits 8 a.toNat b.toNat 0 = (multiply a b).toNat :=
  productBits_eq 8 a b 0#8

theorem gf_multiply (a b : Byte) : gf.multiply a b = multiply a b := by
  show BitVec.ofNat 8 (productBits 8 a.toNat b.toNat 0) = multiply a b
  rw [product_eq, BitVec.ofNat_toNat, BitVec.setWidth_eq]

theorem foldl_last {α β : Type*} (p : α → Bool) (f : α → β) (l : List α) (start : β) :
    l.foldl (fun found a => if p a then f a else found) start = ((l.reverse.find? p).map f).getD start := by
  induction l using List.reverseRecOn with
  | nil => rfl
  | append_singleton l a ih =>
    rw [List.foldl_append, List.foldl_cons, List.foldl_nil, ih, List.reverse_concat, List.find?_cons]
    cases p a <;> rfl

theorem gf_inverse (a : Byte) : gf.inverse a = inverse a := by
  have same : ∀ b ∈ (List.range 256).reverse, productBits 8 a.toNat b 0 = 1 ↔ multiply a (BitVec.ofNat 8 b) = 1#8 := by
    intro b mem
    have small : b < 256 := List.mem_range.mp (List.mem_reverse.mp mem)
    have product := product_eq a (BitVec.ofNat 8 b)
    rw [BitVec.toNat_ofNat, Nat.mod_eq_of_lt small] at product
    rw [product, BitVec.toNat_eq]
    rfl
  have last := foldl_last (fun b => decide (productBits 8 a.toNat b 0 = 1)) (BitVec.ofNat 8) (List.range 256) 0#8
  simp only [decide_eq_true_eq] at last
  have found : (List.range 256).reverse.find? (fun b => decide (productBits 8 a.toNat b 0 = 1)) =
      (List.range 256).reverse.find? (fun b => decide (multiply a (BitVec.ofNat 8 b) = 1#8)) :=
    List.find?_congr fun b mem => decide_eq_decide.mpr (same b mem)
  have table : gf.inverse a = ((List.range 256).foldl
      (fun inverse b => if productBits 8 a.toNat b 0 = 1 then BitVec.ofNat 8 b else inverse) 0#8) := by
    simp only [gf]
  rw [table, last, found, inverse, List.find?_map]
  rfl

/-- `vqtbl1q_u8`: one octet out of sixteen, and 0 for an index past them. -/
def tbl (table : Bytes) (index : Byte) : Byte := table.getD index.toNat 0#8

theorem tbl_range (f : Nat → Byte) {index : Byte} (small : index.toNat < 16) :
    tbl ((List.range 16).map f) index = f index.toNat := by
  rw [tbl, List.getD_eq_getElem _ _ (by simpa using small), List.getElem_map, List.getElem_range]

theorem nibble_bounds (x : Byte) : (x &&& 15#8).toNat < 16 ∧ (x >>> 4).toNat < 16 := by
  constructor
  · rw [BitVec.toNat_and]
    exact Nat.lt_of_le_of_lt Nat.and_le_right (by decide)
  · rw [BitVec.toNat_ushiftRight, Nat.shiftRight_eq_div_pow]
    have := x.isLt
    omega

/-- An octet is the sum of its halves, and products are linear. -/
theorem nibble_products (a x : Byte) : tbl (gf.low a) (x &&& 15#8) ^^^ tbl (gf.high a) (x >>> 4) = multiply a x := by
  obtain ⟨low, high⟩ := nibble_bounds x
  have first : tbl (gf.low a) (x &&& 15#8) = multiply a (x &&& 15#8) := by
    have entry := tbl_range (fun nibble => BitVec.ofNat 8 (productBits 8 a.toNat nibble 0)) low
    rw [product_eq, BitVec.ofNat_toNat, BitVec.setWidth_eq] at entry
    exact entry
  have second : tbl (gf.high a) (x >>> 4) = multiply a (x >>> 4 <<< 4) := by
    have entry := tbl_range (fun nibble => BitVec.ofNat 8 (productBits 8 a.toNat (nibble <<< 4) 0)) high
    have shifted : (x >>> 4).toNat <<< 4 = (x >>> 4 <<< 4).toNat := by
      rw [BitVec.toNat_shiftLeft, Nat.shiftLeft_eq, Nat.mod_eq_of_lt (by omega)]
    rw [shifted, product_eq, BitVec.ofNat_toNat, BitVec.setWidth_eq] at entry
    exact entry
  have halves : ∀ x : Byte, (x &&& 15#8) ^^^ (x >>> 4 <<< 4) = x := by decide +kernel
  rw [first, second, ← multiply_xor_right, halves]

/-! ### Octets as polynomials -/

section Polynomials

open Polynomial

/-- An octet as a polynomial over the field of two elements. -/
noncomputable def reading (a : Byte) : (ZMod 2)[X] := ∑ i ∈ Finset.range 8, if a.getLsbD i then X ^ i else 0

/-- 0x11d -/
noncomputable def modulus : (ZMod 2)[X] := X ^ 8 + X ^ 4 + X ^ 3 + X ^ 2 + 1

theorem reading_xor (a b : Byte) : reading (a ^^^ b) = reading a + reading b := by
  rw [reading, reading, reading, ← Finset.sum_add_distrib]
  refine Finset.sum_congr rfl fun i _ => ?_
  rw [BitVec.getLsbD_xor]
  cases a.getLsbD i
  · simp
  · cases b.getLsbD i
    · simp
    · simp [CharTwo.add_self_eq_zero]

theorem reading_shift (a : Byte) : X * reading a = reading (a <<< 1) + if a.msb then X ^ 8 else 0 := by
  rw [BitVec.msb_eq_getLsbD_last]
  simp [reading, Finset.sum_range_succ, mul_add, mul_ite, ← pow_succ']
  rw [← sq]

theorem reading_reduced : modulus = X ^ 8 + reading 0x1d#8 := by
  simp [reading, modulus, Finset.sum_range_succ]
  ring

theorem reading_double (a : Byte) : X * reading a = reading (double a) + if a.msb then modulus else 0 := by
  rw [reading_shift, double]
  cases a.msb
  · simp
  · have twice : reading 0x1d#8 + reading 0x1d#8 = 0 := CharTwo.add_self_eq_zero _
    rw [if_pos rfl, if_pos rfl, if_pos rfl, reading_xor, reading_reduced]
    linear_combination - twice

theorem modulus_monic : modulus.Monic := by
  unfold modulus
  monicity!

theorem modulus_degree : modulus.degree = 8 := by
  unfold modulus
  compute_degree!

theorem reading_degree (a : Byte) : (reading a).degree < 8 := by
  refine mem_degreeLT.mp (Submodule.sum_mem _ fun i mem => ?_)
  split
  · rw [mem_degreeLT, degree_X_pow]
    exact_mod_cast Finset.mem_range.mp mem
  · exact Submodule.zero_mem _

/-- The rounds add the multiples of the first factor that the bits of the second one ask for. -/
theorem reading_multiplyBits (bit : Nat) (x y : Byte) :
    AdjoinRoot.mk modulus (reading (multiplyBits bit x y 0#8)) =
      AdjoinRoot.mk modulus (reading x * ∑ i ∈ Finset.range bit, if y.getLsbD i then X ^ i else 0) := by
  induction bit generalizing x y with
  | zero => simp [multiplyBits, reading]
  | succ bit ih =>
    have doubled : AdjoinRoot.mk modulus (reading (double x)) = AdjoinRoot.mk modulus (X * reading x) := by
      rw [reading_double, map_add]
      split <;> simp
    have shifted : ∀ i, (y >>> 1).getLsbD i = y.getLsbD (i + 1) := by
      intro i
      rw [BitVec.getLsbD_ushiftRight, Nat.add_comm]
    have first : reading (if y.getLsbD 0 then x else 0#8) = reading x * if y.getLsbD 0 then 1 else 0 := by
      split <;> simp [reading]
    have rest : ∑ i ∈ Finset.range bit, (if y.getLsbD (i + 1) then (X : (ZMod 2)[X]) ^ (i + 1) else 0) =
        X * ∑ i ∈ Finset.range bit, if y.getLsbD (i + 1) then X ^ i else 0 := by
      rw [Finset.mul_sum]
      refine Finset.sum_congr rfl fun i _ => ?_
      split
      · rw [pow_succ']
      · rw [mul_zero]
    rw [multiplyBits_succ, reading_xor, map_add, ih, Finset.sum_range_succ', rest, first]
    simp only [shifted, map_mul, map_add, pow_zero, doubled]
    ring

/-- The product of octets is that of their polynomials, reduced. -/
theorem reading_multiply (a b : Byte) : reading (multiply a b) = (reading a * reading b) %ₘ modulus := by
  have same := AdjoinRoot.mk_eq_mk.mp (reading_multiplyBits 8 a b)
  obtain ⟨q, quotient⟩ := same
  have bits : ∑ i ∈ Finset.range 8, (if b.getLsbD i then X ^ i else 0) = reading b := rfl
  rw [bits] at quotient
  refine ((div_modByMonic_unique (-q) (reading (multiply a b)) modulus_monic ⟨?_, ?_⟩).2).symm
  · rw [multiply]
    linear_combination quotient
  · rw [modulus_degree]
    exact reading_degree _

end Polynomials

/-! ### Loops -/

/-- What differs between the platforms. -/
structure Platform where
  neon : Bool
  littleEndian : Bool
deriving DecidableEq

namespace Platform

variable (p : Platform)

/-- `memcpy` from eight octets to a number of 64 bits. -/
def word (b : Bytes) : Nat := get (if p.littleEndian then b.reverse else b)

/-- `memcpy` from the number to the octets. -/
def octets (value : Nat) : Bytes := if p.littleEndian then (put value 8).reverse else put value 8

end Platform

/-- The product by the tables of sixteen octets, for each octet of a register. -/
def tableProduct (low high value : Bytes) : Bytes :=
  List.zipWith (· ^^^ ·) (value.map fun v : Byte => tbl low (v &&& 15#8)) (value.map fun v : Byte => tbl high (v >>> 4))

/-- `dst[i] ^= f(src[i])` for a register or for one octet. -/
def addBlock (n : Nat) (f : Bytes → Bytes) (src : Bytes) (i : Nat) (dst : Bytes) : Option Bytes := do
  let value ← loadAt src i n
  let d ← loadAt dst i n
  storeAt dst i (List.zipWith (· ^^^ ·) d (f value))

/-- The octets of the products are put together to a word before they are added. -/
def addWord (p : Platform) (table : Byte → Byte) (src : Bytes) (i : Nat) (dst : Bytes) : Option Bytes := do
  let value ← loadAt src i 8
  let products := value.map table
  let d ← loadAt dst i 8
  storeAt dst i (p.octets (p.word d ^^^ p.word products))

def scaleBlock (n : Nat) (f : Bytes → Bytes) (i : Nat) (dst : Bytes) : Option Bytes := do
  let value ← loadAt dst i n
  storeAt dst i (f value)

def multiplyAddLoops (p : Platform) (gf : FieldTables) (dst src : Bytes) (size : Nat) (coefficient : Byte) :
    Option Bytes :=
  if coefficient = 0#8 then some dst
  else if coefficient = 1#8 then do
    let (i, dst) ← (if p.neon then run 16 size (addBlock 16 id src) (size + 1) 0 dst else some (0, dst))
    let (_, dst) ← run 1 size (addBlock 1 id src) (size + 1) i dst
    some dst
  else do
    let product := tableProduct (gf.low coefficient) (gf.high coefficient)
    let (i, dst) ← (if p.neon then run 16 size (addBlock 16 product src) (size + 1) 0 dst else some (0, dst))
    let table := gf.multiply coefficient
    let (i, dst) ← run 8 size (addWord p table src) (size + 1) i dst
    let (_, dst) ← run 1 size (addBlock 1 (List.map table) src) (size + 1) i dst
    some dst

def scaleLoops (p : Platform) (gf : FieldTables) (dst : Bytes) (size : Nat) (coefficient : Byte) : Option Bytes :=
  if coefficient = 1#8 then some dst
  else do
    let product := tableProduct (gf.low coefficient) (gf.high coefficient)
    let (i, dst) ← (if p.neon then run 16 size (scaleBlock 16 product) (size + 1) 0 dst else some (0, dst))
    let table := gf.multiply coefficient
    let (i, dst) ← run 8 size (scaleBlock 8 (List.map table)) (size + 1) i dst
    let (_, dst) ← run 1 size (scaleBlock 1 (List.map table)) (size + 1) i dst
    some dst

/-! ### What the loops compute -/

theorem tableProduct_eq (c : Byte) (value : Bytes) :
    tableProduct (gf.low c) (gf.high c) value = value.map (multiply c) := by
  induction value with
  | nil => rfl
  | cons v value ih =>
    rw [tableProduct, List.map_cons, List.map_cons, List.zipWith_cons_cons, nibble_products, List.map_cons]
    exact congrArg _ ih

theorem map_one (value : Bytes) : value.map (multiply 1#8) = id value :=
  (List.map_congr_left fun v _ => one_multiply v).trans (List.map_id value)

theorem map_table (c : Byte) (value : Bytes) : value.map (gf.multiply c) = value.map (multiply c) :=
  List.map_congr_left fun v _ => gf_multiply c v

/-- A word holds the octets in the one order or the other, and the sum of words is the sum of their octets. -/
theorem word_xor (p : Platform) {a b : Bytes} (sizeA : a.length = 8) (sizeB : b.length = 8) :
    p.octets (p.word a ^^^ p.word b) = List.zipWith (· ^^^ ·) a b := by
  have same : a.length = b.length := sizeA.trans sizeB.symm
  unfold Platform.octets Platform.word
  cases p.littleEndian
  · rw [if_neg Bool.false_ne_true, if_neg Bool.false_ne_true, if_neg Bool.false_ne_true, ← get_xor same]
    exact put_get (by simp [sizeA, sizeB])
  · have turned : a.reverse.length = b.reverse.length := by simpa using same
    rw [if_pos rfl, if_pos rfl, if_pos rfl, ← get_xor turned, put_get (by simp [sizeA, sizeB]),
      ← List.reverse_zipWith same, List.reverse_reverse]

/-- What `multiplyAddLoops` leaves in the first octets. -/
def added (c : Byte) (dst src : Bytes) (size : Nat) : Bytes :=
  List.zipWith (fun d s => d ^^^ multiply c s) (dst.take size) (src.take size)

def scaled (c : Byte) (dst : Bytes) (size : Nat) : Bytes := (dst.take size).map (multiply c)

theorem piece_take {α : Type*} (l : List α) {i n size : Nat} (inside : i + n ≤ size) :
    ((l.take size).drop i).take n = (l.drop i).take n := by
  rw [List.drop_take, List.take_take, Nat.min_eq_left (by omega)]

section Blocks

variable {c : Byte} {dst src : Bytes} {size i n : Nat} {f : Bytes → Bytes}

theorem added_length (inDst : size ≤ dst.length) (inSrc : size ≤ src.length) : (added c dst src size).length = size := by
  simp [added, inDst, inSrc]

theorem added_piece (inside : i + n ≤ size) : ((added c dst src size).drop i).take n =
    List.zipWith (· ^^^ ·) ((dst.drop i).take n) (((src.drop i).take n).map (multiply c)) := by
  rw [added, List.drop_zipWith, List.take_zipWith, piece_take dst inside, piece_take src inside, List.zipWith_map_right]

theorem addBlock_front (product : ∀ value, f value = value.map (multiply c)) (inDst : size ≤ dst.length)
    (inSrc : size ≤ src.length) (inside : i + n ≤ size) :
    addBlock n f src i (front (added c dst src size) dst i) = some (front (added c dst src size) dst (i + n)) := by
  have length : (added c dst src size).length = size := added_length inDst inSrc
  have there : loadAt src i n = some ((src.drop i).take n) := if_pos (by omega)
  have before := loadAt_front (b := dst) (show i + n ≤ (added c dst src size).length by omega) (by omega)
  simp only [addBlock, there, before, product, Option.bind_eq_bind, Option.bind_some]
  exact storeAt_front (added_piece inside).symm (by omega) (by omega)

theorem addWord_front (p : Platform) (inDst : size ≤ dst.length) (inSrc : size ≤ src.length) (inside : i + 8 ≤ size) :
    addWord p (gf.multiply c) src i (front (added c dst src size) dst i) =
      some (front (added c dst src size) dst (i + 8)) := by
  have length : (added c dst src size).length = size := added_length inDst inSrc
  have there : loadAt src i 8 = some ((src.drop i).take 8) := if_pos (by omega)
  have before := loadAt_front (b := dst) (show i + 8 ≤ (added c dst src size).length by omega) (by omega)
  have eight : ((dst.drop i).take 8).length = 8 := by
    rw [List.length_take, List.length_drop]
    omega
  have eight' : (((src.drop i).take 8).map (multiply c)).length = 8 := by
    rw [List.length_map, List.length_take, List.length_drop]
    omega
  simp only [addWord, there, before, map_table, word_xor p eight eight', Option.bind_eq_bind, Option.bind_some]
  exact storeAt_front (added_piece inside).symm (by omega) (by omega)

theorem scaled_length (inDst : size ≤ dst.length) : (scaled c dst size).length = size := by
  simp [scaled, inDst]

theorem scaleBlock_front (product : ∀ value, f value = value.map (multiply c)) (inDst : size ≤ dst.length)
    (inside : i + n ≤ size) :
    scaleBlock n f i (front (scaled c dst size) dst i) = some (front (scaled c dst size) dst (i + n)) := by
  have length : (scaled c dst size).length = size := scaled_length inDst
  have before := loadAt_front (b := dst) (show i + n ≤ (scaled c dst size).length by omega) (by omega)
  have piece : ((scaled c dst size).drop i).take n = ((dst.drop i).take n).map (multiply c) := by
    rw [scaled, ← List.map_drop, ← List.map_take, piece_take dst inside]
  simp only [scaleBlock, before, product, Option.bind_eq_bind, Option.bind_some]
  exact storeAt_front piece.symm (by omega) (by omega)

/-- With or without the loop over registers, the next loop finds final values before its index. -/
theorem registers_front {out : Bytes} {body : Nat → Bytes → Option Bytes} (p : Platform)
    (each : ∀ i, i + 16 ≤ size → body i (front out dst i) = some (front out dst (i + 16))) :
    ∃ i, (if p.neon then run 16 size body (size + 1) 0 dst else some (0, dst)) = some (i, front out dst i) ∧ i ≤ size := by
  cases p.neon
  · exact ⟨0, by rw [front_zero]; rfl, Nat.zero_le _⟩
  · obtain ⟨i, ran, inside, -⟩ := run_front (by decide) each (Nat.zero_le size) (show size < 0 + (size + 1) by omega)
    rw [front_zero] at ran
    exact ⟨i, ran, inside⟩

/-- The loop over single octets is the last one, and ends at the size. -/
theorem octets_front {out : Bytes} {body : Nat → Bytes → Option Bytes} (length : out.length = size)
    (each : ∀ i, i + 1 ≤ size → body i (front out dst i) = some (front out dst (i + 1))) (inside : i ≤ size) :
    run 1 size body (size + 1) i (front out dst i) = some (size, out ++ dst.drop size) := by
  obtain ⟨j, ran, most, least⟩ := run_front (by decide) each inside (show size < i + (size + 1) by omega)
  have last : j = size := by omega
  have final : front out dst size = out ++ dst.drop size := by rw [← length, front_length]
  rw [ran, last, final]

end Blocks

theorem added_zero {dst src : Bytes} {size : Nat} (inDst : size ≤ dst.length) (inSrc : size ≤ src.length) :
    added 0#8 dst src size = dst.take size := by
  have none : ∀ s, multiply 0#8 s = 0#8 := fun s => (multiply_comm 0#8 s).trans (multiply_zero s)
  refine List.ext_getElem ?_ fun i here there => ?_
  · rw [added_length inDst inSrc, List.length_take, Nat.min_eq_left inDst]
  · simp [added, none]

theorem multiplyAddLoops_eq (p : Platform) {dst src : Bytes} {size : Nat} (coefficient : Byte) (inDst : size ≤ dst.length)
    (inSrc : size ≤ src.length) :
    multiplyAddLoops p gf dst src size coefficient = some (added coefficient dst src size ++ dst.drop size) := by
  have length : (added coefficient dst src size).length = size := added_length inDst inSrc
  -- A block of any width gets its final values from any function that multiplies.
  have block : ∀ n f, (∀ value : Bytes, f value = value.map (multiply coefficient)) → ∀ i, i + n ≤ size →
      addBlock n f src i (front (added coefficient dst src size) dst i) =
        some (front (added coefficient dst src size) dst (i + n)) :=
    fun n f product i more => addBlock_front product inDst inSrc more
  have word : ∀ i, i + 8 ≤ size →
      addWord p (gf.multiply coefficient) src i (front (added coefficient dst src size) dst i) =
        some (front (added coefficient dst src size) dst (i + 8)) :=
    fun i more => addWord_front p inDst inSrc more
  unfold multiplyAddLoops
  by_cases zero : coefficient = 0#8
  · rw [if_pos zero, zero, added_zero inDst inSrc, List.take_append_drop]
  · rw [if_neg zero]
    by_cases one : coefficient = 1#8
    · have same : ∀ value : Bytes, id value = value.map (multiply coefficient) := by
        intro value
        rw [one, map_one]
      rw [if_pos one]
      obtain ⟨i, registers, inside⟩ := registers_front p (block 16 id same)
      have rest := octets_front length (block 1 id same) inside
      simp only [registers, rest, Option.bind_eq_bind, Option.bind_some]
    · rw [if_neg one]
      obtain ⟨i, registers, inside⟩ := registers_front p (block 16 _ (tableProduct_eq coefficient))
      obtain ⟨j, words, most, -⟩ := run_front (by decide) word inside (show size < i + (size + 1) by omega)
      have rest := octets_front length (block 1 _ (map_table coefficient)) most
      simp only [registers, words, rest, Option.bind_eq_bind, Option.bind_some]

theorem scaleLoops_eq (p : Platform) {dst : Bytes} {size : Nat} (coefficient : Byte) (inDst : size ≤ dst.length) :
    scaleLoops p gf dst size coefficient = some (scaled coefficient dst size ++ dst.drop size) := by
  have length : (scaled coefficient dst size).length = size := scaled_length inDst
  have block : ∀ n f, (∀ value : Bytes, f value = value.map (multiply coefficient)) → ∀ i, i + n ≤ size →
      scaleBlock n f i (front (scaled coefficient dst size) dst i) =
        some (front (scaled coefficient dst size) dst (i + n)) :=
    fun n f product i more => scaleBlock_front product inDst more
  unfold scaleLoops
  by_cases one : coefficient = 1#8
  · rw [if_pos one, scaled, one, map_one, id, List.take_append_drop]
  · rw [if_neg one]
    obtain ⟨i, registers, inside⟩ := registers_front p (block 16 _ (tableProduct_eq coefficient))
    obtain ⟨j, words, most, -⟩ := run_front (by decide) (block 8 _ (map_table coefficient)) inside
      (show size < i + (size + 1) by omega)
    have rest := octets_front length (block 1 _ (map_table coefficient)) most
    simp only [registers, words, rest, Option.bind_eq_bind, Option.bind_some]

/-- On whole symbols the loops are the functions of the code that encodes and decodes. -/
theorem multiplyAddLoops_symbols (p : Platform) {dst src : Bytes} (coefficient : Byte) (same : dst.length = src.length) :
    multiplyAddLoops p gf dst src src.length coefficient = some (multiplyAdd dst src coefficient) := by
  have whole : dst.take src.length = dst := List.take_of_length_le (by omega)
  have none : dst.drop src.length = [] := List.drop_of_length_le (by omega)
  have sum : added coefficient dst src src.length = List.zipWith (fun d s => d ^^^ multiply coefficient s) dst src := by
    rw [added, whole, List.take_length]
  rw [multiplyAddLoops_eq p coefficient (by omega) le_rfl, none, List.append_nil]
  unfold multiplyAdd
  by_cases zero : coefficient = 0#8
  · rw [if_pos zero, zero, added_zero (by omega) le_rfl, whole]
  · rw [if_neg zero, sum]
    by_cases one : coefficient = 1#8
    · rw [if_pos one]
      simp only [one, one_multiply]
    · rw [if_neg one]

theorem scaleLoops_symbols (p : Platform) (dst : Bytes) (coefficient : Byte) :
    scaleLoops p gf dst dst.length coefficient = some (scaleSymbol dst coefficient) := by
  rw [scaleLoops_eq p coefficient le_rfl, List.drop_length, List.append_nil, scaled, List.take_length, scaleSymbol]
  by_cases one : coefficient = 1#8
  · rw [if_pos one, one, map_one, id]
  · rw [if_neg one]

/-- On every platform the loops multiply in the field of the polynomial 0x11d, octet by octet and nothing after the
size, and none of their loads and stores leaves its region. -/
theorem field_loops (p : Platform) (coefficient : Byte) (dst src : Bytes) (size : Nat) (inDst : size ≤ dst.length)
    (inSrc : size ≤ src.length) :
    multiplyAddLoops p gf dst src size coefficient =
      some (List.zipWith (fun d s => d ^^^ multiply coefficient s) (dst.take size) (src.take size) ++ dst.drop size) ∧
    scaleLoops p gf dst size coefficient = some ((dst.take size).map (multiply coefficient) ++ dst.drop size) ∧
    (∀ a x, tbl (gf.low a) (x &&& 15#8) ^^^ tbl (gf.high a) (x >>> 4) = multiply a x) ∧
    (∀ a, a ≠ 0#8 → multiply a (gf.inverse a) = 1#8) ∧
    ∀ a b, gf.multiply a b = multiply a b ∧ reading (multiply a b) = (reading a * reading b) %ₘ modulus := by
  refine ⟨multiplyAddLoops_eq p coefficient inDst inSrc, scaleLoops_eq p coefficient inDst, nibble_products, ?_, ?_⟩
  · intro a some'
    rw [gf_inverse]
    exact multiply_inverse some'
  · exact fun a b => ⟨gf_multiply a b, reading_multiply a b⟩

theorem field_loops_seventeen :
    multiplyAddLoops ⟨true, true⟩ gf (List.replicate 17 3#8 ++ [5#8]) (List.replicate 17 0x80#8) 17 2#8 =
      some (List.replicate 17 0x1e#8 ++ [5#8]) :=
  (field_loops ⟨true, true⟩ 2#8 (List.replicate 17 3#8 ++ [5#8]) (List.replicate 17 0x80#8) 17 (by decide)
    (by decide)).1.trans (by decide +kernel)

end MiniRtc.Fec
