import MiniRtc.Lib.BitWords
import MiniRtc.Lib.Reading

/-! `BitReader` (h264_bitstream_parser.cpp): bits and Exp-Golomb codes from octets. -/
namespace MiniRtc.Video
open Wire BitWords Reading

/-- An array of octets, whose size in bits does not overflow, and the place of the next bit. -/
structure BitReader where
  data : Bytes
  bitOffset : Nat := 0

namespace BitReader

/-- Why a header is left: what the source returns, an access outside the array, or a loop that does not end. -/
inductive Stop where
  | invalidStream
  | unsupportedStream
  | outside
  | endless
deriving DecidableEq

/-- A failed read makes `ok_` false. Every caller leaves then, so that the flag is never looked at again. -/
abbrev Reader := StateT BitReader (Except Stop)

def sizeBits (r : BitReader) : Nat := r.data.length * 8

def bitsRemaining (r : BitReader) : Nat := if r.bitOffset ≤ r.sizeBits then r.sizeBits - r.bitOffset else 0

/-- `(data_[bit_offset_ / 8] >> (7 - bit_offset_ % 8)) & 1`, and the step to the next bit. -/
def takeBit : Reader Bool := fun r =>
  match r.data[r.bitOffset / 8]? with
  | none => .error .outside
  | some byte => .ok (byte.toNat.testBit (7 - r.bitOffset % 8), { r with bitOffset := r.bitOffset + 1 })

def collect : Nat → Nat → Reader Nat
  | 0, result => pure result
  | count + 1, result => do
    let bit ← takeBit
    collect count ((result <<< 1 ||| bit.toNat) % 2 ^ 32)

def readBits (count : Nat) : Reader Nat := do
  let r ← get
  require .invalidStream (count ≤ 32 ∧ count ≤ r.bitsRemaining)
  collect count 0

def readBit : Reader Bool := do
  let bit ← readBits 1
  pure (bit != 0)

def skipBits (count : Nat) : Reader Unit := do
  let r ← get
  require .invalidStream (count ≤ r.bitsRemaining)
  set { r with bitOffset := r.bitOffset + count }

/-- The zeros before a one, of which so many more are allowed. -/
def leadingZeros : Nat → Reader Nat
  | 0 => do
    let bit ← readBit
    if bit then pure 31 else throw .invalidStream
  | left + 1 => do
    let bit ← readBit
    if bit then pure (31 - (left + 1)) else leadingZeros left

def readUnsignedGolomb : Reader Nat := do
  let zeros ← leadingZeros 31
  let suffix ← (if 0 < zeros then readBits zeros else pure 0)
  let codeNum := (1 <<< zeros) - 1 + suffix
  require .invalidStream (codeNum ≤ 2 ^ 32 - 1)
  pure codeNum

def readSignedGolomb : Reader Int := do
  let codeNum ← readUnsignedGolomb
  let magnitude : Int := (codeNum + 1) / 2
  let signedValue := if codeNum &&& 1 = 1 then magnitude else -magnitude
  require .invalidStream (-2 ^ 31 ≤ signedValue ∧ signedValue ≤ 2 ^ 31 - 1)
  pure signedValue

/-! ### The bits that are left -/

instance : Tape BitReader Bool where
  rest r := (bitsOf r.data).drop r.bitOffset
  skip r n := { r with bitOffset := r.bitOffset + n }
  rest_skip r n := List.drop_drop.symm
  skip_zero _ := rfl
  skip_skip r m n := by rw [Nat.add_assoc]

theorem rest_eq (r : BitReader) : Tape.rest r = (bitsOf r.data).drop r.bitOffset := rfl

theorem skip_eq (r : BitReader) (n : Nat) : Tape.skip r n = { r with bitOffset := r.bitOffset + n } := rfl

theorem length_rest (r : BitReader) : (Tape.rest r).length = r.bitsRemaining := by
  rw [rest_eq, List.length_drop, length_bitsOf, bitsRemaining, sizeBits]
  split <;> omega

/-- What is never given: an access outside the array, or a loop that does not end. -/
def Fault (e : Stop) : Prop := e = .outside ∨ e = .endless

theorem takeBit_eq {r : BitReader} (some : 0 < r.bitsRemaining) :
    ∃ bit, (Tape.rest r)[0]? = Option.some bit ∧ takeBit r = .ok (bit, Tape.skip r 1) := by
  have inside : r.bitOffset / 8 < r.data.length := by
    rw [bitsRemaining, sizeBits] at some
    split at some <;> omega
  have there := List.getElem?_eq_getElem inside
  refine ⟨r.data[r.bitOffset / 8].toNat.testBit (7 - r.bitOffset % 8), ?_, ?_⟩
  · rw [rest_eq, List.getElem?_drop, Nat.add_zero]
    exact getElem?_bitsOf there
  · rw [takeBit, there]
    rfl

theorem takeBit_reads (bit : Bool) : Reads takeBit [bit] bit := by
  intro r tail place
  have some : 0 < r.bitsRemaining := by simp [← length_rest, place]
  obtain ⟨bit', first, taken⟩ := takeBit_eq some
  rw [place] at first
  obtain rfl := Option.some.inj first
  exact taken

theorem collect_reads {bits : List Bool} {v : Nat} (small : v * 2 ^ bits.length + number bits < 2 ^ 32) :
    Reads (collect bits.length v) bits (v * 2 ^ bits.length + number bits) := by
  induction bits generalizing v with
  | nil =>
    have same : v * 2 ^ ([] : List Bool).length + number [] = v := by simp [number]
    rw [same]
    exact .pure v
  | cons bit bits ih =>
    have sum : v <<< 1 ||| bit.toNat = 2 * v + bit.toNat := by
      rw [← Nat.shiftLeft_add_eq_or_of_lt (by cases bit <;> simp), Nat.shiftLeft_eq]
      ring
    have value : v * 2 ^ (bit :: bits).length + number (bit :: bits) =
        (2 * v + bit.toNat) * 2 ^ bits.length + number bits := by
      rw [number_cons, List.length_cons, pow_succ]
      ring
    rw [value] at small ⊢
    have low : 2 * v + bit.toNat < 2 ^ 32 := by
      have := Nat.le_mul_of_pos_right (2 * v + bit.toNat) (Nat.two_pow_pos bits.length)
      omega
    refine Reads.bind (takeBit_reads bit) ?_
    rw [sum, Nat.mod_eq_of_lt low]
    exact ih small

theorem readBits_reads (bits : List Bool) (short : bits.length ≤ 32) :
    Reads (readBits bits.length) bits (number bits) := by
  intro r tail place
  have enough : bits.length ≤ r.bitsRemaining := by
    rw [← length_rest, place, List.length_append]
    omega
  have small : 0 * 2 ^ bits.length + number bits < 2 ^ 32 := by
    rw [zero_mul, zero_add]
    exact (number_lt bits).trans_le (Nat.pow_le_pow_right (by decide) short)
  have whole := collect_reads small r tail place
  rw [zero_mul, zero_add] at whole
  rw [← whole]
  change (Reading.require .invalidStream (bits.length ≤ 32 ∧ bits.length ≤ r.bitsRemaining) >>=
    fun _ => collect bits.length 0) r = collect bits.length 0 r
  rw [Reading.require, if_pos ⟨short, enough⟩]
  rfl

theorem word_reads {n v : Nat} (short : n ≤ 32) (small : v < 2 ^ n) : Reads (readBits n) (word n v) v := by
  have reads := readBits_reads (word n v) (by rwa [length_word])
  rwa [length_word, number_word small] at reads

theorem readBit_reads (bit : Bool) : Reads readBit [bit] bit := by
  have value : (number [bit] != 0) = bit := by cases bit <;> rfl
  have reads := readBits_reads [bit] (by simp)
  have last : Reads (pure (number [bit] != 0) : Reader Bool) [] bit := by
    rw [value]
    exact .pure bit
  exact reads.bind last

theorem skipBits_reads (bits : List Bool) : Reads (skipBits bits.length) bits () := by
  intro r tail place
  have enough : bits.length ≤ r.bitsRemaining := by
    rw [← length_rest, place, List.length_append]
    omega
  change (Reading.require Stop.invalidStream (bits.length ≤ r.bitsRemaining) >>=
    fun _ => set { r with bitOffset := r.bitOffset + bits.length }) r = _
  rw [Reading.require, if_pos enough]
  rfl

theorem leadingZeros_reads {left zeros : Nat} (few : zeros ≤ left) (most : left ≤ 31) :
    Reads (leadingZeros left) (List.replicate zeros false ++ [true]) (31 - left + zeros) := by
  induction zeros generalizing left with
  | zero =>
    cases left with
    | zero => exact (readBit_reads true).bind (.pure 31)
    | succ left => exact (readBit_reads true).bind (.pure (31 - (left + 1)))
  | succ zeros ih =>
    cases left with
    | zero => cases few
    | succ left =>
      have rest := ih (Nat.le_of_succ_le_succ few) (by omega)
      have same : 31 - (left + 1) + (zeros + 1) = 31 - left + zeros := by omega
      rw [same]
      exact (readBit_reads false).bind rest

/-- Every code of a number below `2 ^ 32 - 1` is read. -/
theorem golomb_reads {v : Nat} (small : v < 2 ^ 32 - 1) : Reads readUnsignedGolomb (golomb v) v := by
  have zeros : Nat.log2 (v + 1) ≤ 31 := by
    have : Nat.log2 (v + 1) < 32 := (Nat.log2_lt (Nat.succ_ne_zero v)).mpr (by omega)
    omega
  have value := number_golomb v
  rw [golomb, ← List.append_nil (word _ _)]
  generalize Nat.log2 (v + 1) = z at zeros value ⊢
  have first := leadingZeros_reads zeros le_rfl
  have suffix : Reads (if 0 < z then readBits z else pure 0) (word z (v + 1)) (number (word z (v + 1))) := by
    split
    · have reads := readBits_reads (word z (v + 1)) (by rw [length_word]; omega)
      rwa [length_word] at reads
    · have none : z = 0 := by omega
      rw [none]
      exact .pure 0
  rw [Nat.sub_self, Nat.zero_add] at first
  refine first.bind (suffix.bind ?_)
  rw [Nat.one_shiftLeft, value]
  exact .after (.require (by omega)) (.pure v)

/-- A signed number with a code that is read. -/
theorem signedGolomb_reads {v : Int} (small : |v| < 2 ^ 31) : Reads readSignedGolomb (signedGolomb v) v := by
  rw [abs_lt] at small
  rw [signedGolomb, ← List.append_nil (golomb _)]
  refine Reads.bind (golomb_reads (by split <;> omega)) ?_
  have value : (if (if 0 < v then (2 * v - 1).toNat else (-2 * v).toNat) &&& 1 = 1
      then (((if 0 < v then (2 * v - 1).toNat else (-2 * v).toNat : Nat) : Int) + 1) / 2
      else -((((if 0 < v then (2 * v - 1).toNat else (-2 * v).toNat : Nat) : Int) + 1) / 2)) = v := by
    rw [Nat.and_one_is_mod]
    split <;> split <;> omega
  dsimp only
  rw [value]
  exact .after (.require (by omega)) (.pure v)

/-! ### No access outside the array -/

theorem good_invalid : ¬Fault .invalidStream := by simp [Fault]

/-- So many bits are there. -/
theorem collect_safe {count : Nat} {r : BitReader} (enough : count ≤ r.bitsRemaining) (v : Nat) :
    ∃ value, collect count v r = .ok (value, Tape.skip r count) := by
  induction count generalizing r v with
  | zero => exact ⟨v, rfl⟩
  | succ count ih =>
    obtain ⟨bit, -, taken⟩ := takeBit_eq (Nat.lt_of_lt_of_le (Nat.succ_pos count) enough)
    have left : count ≤ (Tape.skip r 1).bitsRemaining := by
      rw [← length_rest] at enough ⊢
      rw [Tape.rest_skip, List.length_drop]
      omega
    obtain ⟨value, rest⟩ := ih left ((v <<< 1 ||| bit.toNat) % 2 ^ 32)
    refine ⟨value, ?_⟩
    change (takeBit r >>= fun result => collect count ((v <<< 1 ||| result.1.toNat) % 2 ^ 32) result.2) = _
    rw [taken, Nat.add_comm, ← Tape.skip_skip]
    exact rest

theorem readBits_run (count : Nat) (r : BitReader) : readBits count r =
    if count ≤ 32 ∧ count ≤ r.bitsRemaining then collect count 0 r else .error .invalidStream := by
  change (Reading.require Stop.invalidStream (count ≤ 32 ∧ count ≤ r.bitsRemaining) >>= fun _ => collect count 0) r = _
  rw [Reading.require]
  split <;> rfl

theorem readBits_safe (count : Nat) : Safe Fault count (readBits count) := by
  constructor
  · intro r value t given
    rw [StateT.run, readBits_run] at given
    split at given
    · rename_i enough
      obtain ⟨value', read⟩ := collect_safe enough.2 0
      obtain ⟨-, there⟩ := Prod.mk.inj (Except.ok.inj (read.symm.trans given))
      rw [← there, Tape.rest_skip, List.length_drop, length_rest]
      omega
    · cases given
  · intro r e given
    rw [StateT.run, readBits_run] at given
    split at given
    · rename_i enough
      obtain ⟨value', read⟩ := collect_safe enough.2 0
      rw [read] at given
      cases given
    · obtain rfl := Except.error.inj given
      exact good_invalid

theorem readBit_safe : Safe Fault 1 readBit := (readBits_safe 1).first fun _ => .pure _

theorem skipBits_safe (count : Nat) : Safe Fault 0 (skipBits count) := by
  constructor
  · intro r value t given
    change (Reading.require Stop.invalidStream (count ≤ r.bitsRemaining) >>=
      fun _ => set { r with bitOffset := r.bitOffset + count }) r = _ at given
    rw [Reading.require] at given
    split at given
    · have there : Tape.skip r count = t := (Prod.mk.inj (Except.ok.inj given)).2
      rw [← there, Tape.rest_skip, List.length_drop]
      omega
    · cases given
  · intro r e given
    change (Reading.require Stop.invalidStream (count ≤ r.bitsRemaining) >>=
      fun _ => set { r with bitOffset := r.bitOffset + count }) r = _ at given
    rw [Reading.require] at given
    split at given
    · cases given
    · obtain rfl := Except.error.inj given
      exact good_invalid

theorem leadingZeros_safe (left : Nat) : Safe Fault 1 (leadingZeros left) := by
  induction left with
  | zero => exact readBit_safe.first fun _ => .ite (.pure _) (.throw good_invalid 0)
  | succ left ih => exact readBit_safe.first fun _ => .ite (.pure _) (ih.weaken (Nat.zero_le _))

theorem readUnsignedGolomb_safe : Safe Fault 1 readUnsignedGolomb := by
  refine (leadingZeros_safe 31).first fun zeros => ?_
  have suffix : Safe Fault 0 (if 0 < zeros then readBits zeros else pure 0) :=
    .ite ((readBits_safe zeros).weaken (Nat.zero_le _)) (.pure 0)
  exact suffix.first fun _ => (Safe.require good_invalid _).first fun _ => .pure _

theorem readSignedGolomb_safe : Safe Fault 1 readSignedGolomb :=
  readUnsignedGolomb_safe.first fun _ => (Safe.require good_invalid _).first fun _ => .pure _

end BitReader

end MiniRtc.Video
