import MiniRtc.Lib.Bytes

/-! Reads with a bound.
The octets are a region of known length, and a read that leaves it gives `none`. A parser that
is written with these reads and never gives `none` stays inside its region, and each of its
reads is the plain one. -/
namespace Wire

def read8 (b : Bytes) (i : Nat) : Option Byte := b[i]?

def read16 (b : Bytes) (i : Nat) : Option (BitVec 16) :=
  if i + 2 ≤ b.length then some (get16 b i) else none

def read32 (b : Bytes) (i : Nat) : Option (BitVec 32) :=
  if i + 4 ≤ b.length then some (get32 b i) else none

/-- Three octets, as the low ones of a word. -/
def get24 (b : Bytes) (i : Nat) : BitVec 32 :=
  BitVec.ofNat 32 ((byteAt b i).toNat <<< 16 ||| (get16 b (i + 1)).toNat)

def read24 (b : Bytes) (i : Nat) : Option (BitVec 32) :=
  if i + 3 ≤ b.length then some (get24 b i) else none

def put24 (v : BitVec 32) : Bytes :=
  [BitVec.ofNat 8 (v.toNat >>> 16), BitVec.ofNat 8 (v.toNat >>> 8), BitVec.ofNat 8 v.toNat]

/-- A number of octets. -/
def readSlice (b : Bytes) (i n : Nat) : Option Bytes :=
  if i + n ≤ b.length then some (slice b i n) else none

/-- The next part of a parser whose parts refuse with a value. -/
def andThen {ε α β : Type} (x : Option (Except ε α)) (f : α → Option (Except ε β)) :
    Option (Except ε β) :=
  x >>= fun
    | .error e => some (.error e)
    | .ok a => f a

theorem read8_eq {b : Bytes} {i : Nat} (inside : i < b.length) : read8 b i = some (byteAt b i) := by
  rw [read8, List.getElem?_eq_getElem inside, byteAt_eq inside]

theorem read16_eq {b : Bytes} {i : Nat} (inside : i + 2 ≤ b.length) :
    read16 b i = some (get16 b i) := if_pos inside

theorem read24_eq {b : Bytes} {i : Nat} (inside : i + 3 ≤ b.length) :
    read24 b i = some (get24 b i) := if_pos inside

theorem read32_eq {b : Bytes} {i : Nat} (inside : i + 4 ≤ b.length) :
    read32 b i = some (get32 b i) := if_pos inside

theorem mapM_eq_some {α β : Type} {f : α → Option β} {g : α → β} {l : List α}
    (each : ∀ a ∈ l, f a = some (g a)) : l.mapM f = some (l.map g) := by
  induction l with
  | nil => rfl
  | cons a l ih =>
    have first := each a List.mem_cons_self
    have rest := ih fun b member => each b (List.mem_cons_of_mem _ member)
    simp [List.mapM_cons, first, rest]

theorem readSlice_eq {b : Bytes} {i n : Nat} (inside : i + n ≤ b.length) :
    readSlice b i n = some (slice b i n) := if_pos inside

theorem andThen_some {ε α β : Type} {x : Except ε α} {f : α → Option (Except ε β)}
    {g : α → Except ε β} (same : ∀ a, x = .ok a → f a = some (g a)) :
    andThen (some x) f = some (x >>= g) := by
  cases x with
  | error e => rfl
  | ok a => exact same a rfl

theorem get16_take {b : Bytes} {n i : Nat} (inside : i + 2 ≤ n) : get16 (b.take n) i = get16 b i := by
  rw [get16, get16, byteAt_take (by omega), byteAt_take (by omega)]

theorem get32_take {b : Bytes} {n i : Nat} (inside : i + 4 ≤ n) : get32 (b.take n) i = get32 b i := by
  rw [get32, get32, get16_take (by omega), get16_take (by omega)]

theorem byteAt_slice {b : Bytes} {i n k : Nat} (inside : k < n) : byteAt (slice b i n) k = byteAt b (i + k) := by
  rw [slice, byteAt_take inside, byteAt_drop]

theorem get16_slice {b : Bytes} {i n k : Nat} (inside : k + 2 ≤ n) : get16 (slice b i n) k = get16 b (i + k) := by
  rw [get16, get16, byteAt_slice (by omega), byteAt_slice (by omega), Nat.add_assoc]

theorem get32_slice {b : Bytes} {i n k : Nat} (inside : k + 4 ≤ n) : get32 (slice b i n) k = get32 b (i + k) := by
  rw [get32, get32, get16_slice (by omega), get16_slice (by omega), Nat.add_assoc]

@[simp] theorem put24_length (v : BitVec 32) : (put24 v).length = 3 := rfl

theorem get24_toNat (b : Bytes) (i : Nat) : (get24 b i).toNat =
    (byteAt b i).toNat * 65536 + (byteAt b (i + 1)).toNat * 256 + (byteAt b (i + 2)).toNat := by
  have first := (byteAt b i).isLt
  have rest := (get16 b (i + 1)).isLt
  have low : (get16 b (i + 1)).toNat = (byteAt b (i + 1)).toNat * 256 + (byteAt b (i + 2)).toNat :=
    get16_toNat b (i + 1)
  rw [get24, or_shift_sixteen rest, BitVec.toNat_ofNat]
  omega

/-- Reading back the octets of a number, wherever they stand. -/
theorem read8_cons (a b : Bytes) (v : Byte) : read8 (a ++ (v :: b)) a.length = some v := by
  simp [read8]

theorem read32_put32 (a b : Bytes) (v : BitVec 32) : read32 (a ++ (put32 v ++ b)) a.length = some v := by
  rw [read32_eq (by simp only [List.length_append, put32_length]; omega), get32_put32 a b v _ rfl]

theorem get24_put24 (a b : Bytes) (v : BitVec 32) :
    (get24 (a ++ (put24 v ++ b)) a.length).toNat = v.toNat % 2 ^ 24 := by
  have first := byteAt_append_add a (put24 v ++ b) 0
  rw [Nat.add_zero] at first
  rw [get24_toNat, first, byteAt_append_add, byteAt_append_add]
  simp [byteAt, put24, Nat.shiftRight_eq_div_pow]
  omega

theorem read24_put24 (a b : Bytes) (v : BitVec 32) :
    read24 (a ++ (put24 v ++ b)) a.length = some (BitVec.ofNat 32 (v.toNat % 2 ^ 24)) := by
  rw [read24_eq (by simp only [List.length_append, put24_length]; omega)]
  congr 1
  apply BitVec.eq_of_toNat_eq
  rw [get24_put24, BitVec.toNat_ofNat]
  omega

end Wire
