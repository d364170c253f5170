import MiniRtc.Lib.Leb128

/-! `ParseObus` (obu_parser.cpp) and the reader under it (byte_buffer.cpp).
The parser keeps the octets of an OBU as they are, but takes the length of the size field
from the number of bits read and writes one zero octet for every size of zero. -/
namespace MiniRtc.Video
open Wire

structure ByteBufferReader where
  bytes : Bytes
  start : Nat := 0

namespace ByteBufferReader

def length (r : ByteBufferReader) : Nat := r.bytes.length - r.start

def data (r : ByteBufferReader) : Bytes := r.bytes.drop r.start

def skip (r : ByteBufferReader) (size : Nat) : ByteBufferReader := { r with start := r.start + size }

def consume (r : ByteBufferReader) (size : Nat) : ByteBufferReader :=
  if size > r.length then r else r.skip size

def readUInt8 (r : ByteBufferReader) : Option (Byte × ByteBufferReader) :=
  if 1 > r.length then none else some (byteAt r.bytes r.start, r.skip 1)

/-- The length that `ReadUVarint` reports after the octet at bit `i`. -/
def varintLength (i : Nat) : Nat := i / 8 + (if i % 8 ≠ 0 then 1 else 0) + 1

/-- The turns of `ReadUVarint` from bit `i` on. -/
def readUVarintFrom : Nat → Nat → BitVec 64 → ByteBufferReader →
    Option (BitVec 64 × Nat × ByteBufferReader)
  | 0, _, _, _ => none
  | turns + 1, i, v, r =>
    match r.readUInt8 with
    | none => none
    | some (byte, r) =>
      let v := v ||| (byte.setWidth 64 &&& 0x7f) <<< i
      if byte.toNat < 0x80 then some (v, varintLength i, r) else readUVarintFrom turns (i + 7) v r

/-- Bits 0, 7, …, 63. -/
def readUVarint (r : ByteBufferReader) : Option (BitVec 64 × Nat × ByteBufferReader) :=
  readUVarintFrom 10 0 0 r

end ByteBufferReader

structure Obu where
  header : Byte
  extensionHeader : Byte := 0
  payload : Bytes := []
  size : Nat := 0
deriving DecidableEq, Repr

def obuHasExtension (header : Byte) : Bool := header &&& 0x04 ≠ 0

def obuHasSize (header : Byte) : Bool := header &&& 0x02 ≠ 0

/-- The payload of an OBU with a size field, before the header is put in front. -/
def readSizedPayload (r : ByteBufferReader) : Option (Bytes × ByteBufferReader) :=
  match r.readUVarint with
  | none => none
  | some (size, sizeLen, r) =>
    if size.toNat > r.length then none
    else if size = 0 then some ([0], r.consume 0)
    else some (slice r.bytes (r.start - sizeLen) sizeLen ++ slice r.bytes r.start size.toNat,
      r.consume size.toNat)

def readExtension (header : Byte) (r : ByteBufferReader) : Option (Option Byte × ByteBufferReader) :=
  if obuHasExtension header then r.readUInt8.map fun (e, r) => (some e, r) else some (none, r)

/-- An OBU without a size field takes all that is left. -/
def readPayload (header : Byte) (r : ByteBufferReader) : Option (Bytes × ByteBufferReader) :=
  if obuHasSize header then readSizedPayload r else some (r.data, r.consume r.length)

/-- One turn of the loop of `ParseObus`; `none` is a malformed input. -/
def readObu (r : ByteBufferReader) : Option (Obu × ByteBufferReader) := do
  let (header, r) ← r.readUInt8
  let (extension, r) ← readExtension header r
  let (payload, r) ← readPayload header r
  some ({ header
          extensionHeader := extension.getD 0
          payload := header :: extension.toList ++ payload
          size := 1 + extension.toList.length + payload.length }, r)

def parseObusFrom : Nat → ByteBufferReader → List Obu → List Obu
  | 0, _, result => result
  | turns + 1, r, result =>
    if r.length = 0 then result
    else match readObu r with
      | none => []
      | some (obu, r) => parseObusFrom turns r (result ++ [obu])

/-- Every turn reads an octet, so that the length of the input is enough turns. -/
def parseObus (payload : Bytes) : List Obu := parseObusFrom payload.length { bytes := payload } []

/-! ### The octets of OBUs -/

/-- An OBU as it stands in a temporal unit. -/
structure RawObu where
  header : Byte
  extension : Option Byte := none
  sizeField : Option Bytes := none
  body : Bytes := []
deriving DecidableEq

namespace RawObu

def bytes (o : RawObu) : Bytes := o.header :: o.extension.toList ++ o.sizeField.getD [] ++ o.body

/-- The header says what follows it, and the size field, in an encoding that is allowed, the
length of the body. -/
structure Legal (encodes : Bytes → Nat → Prop) (o : RawObu) : Prop where
  extension : o.extension.isSome = obuHasExtension o.header
  sized : o.sizeField.isSome = obuHasSize o.header
  size : ∀ f, o.sizeField = some f → encodes f o.body.length

end RawObu

/-- A concatenation of OBUs of which only the last may lack a size field. -/
def LegalObus (encodes : Bytes → Nat → Prop) : List RawObu → Prop
  | [] => True
  | o :: rest => o.Legal encodes ∧ (rest = [] ∨ o.sizeField.isSome) ∧ LegalObus encodes rest

def bytesOf (obus : List RawObu) : Bytes := obus.flatMap RawObu.bytes

/-- The size fields of AV1: one to eight octets. -/
def EncodesSize (f : Bytes) (n : Nat) : Prop := IsLeb128 f ∧ f.length ≤ 8 ∧ leb128 f = n

/-- The size fields that `ReadUVarint` takes. -/
def ReadsSize (f : Bytes) (n : Nat) : Prop := IsLeb128 f ∧ f.length ≤ 10 ∧ leb128 f % 2 ^ 64 = n

theorem EncodesSize.reads {f : Bytes} {n : Nat} (encodes : EncodesSize f n) : ReadsSize f n := by
  obtain ⟨legal, short, rfl⟩ := encodes
  refine ⟨legal, by omega, Nat.mod_eq_of_lt ?_⟩
  calc leb128 f < 128 ^ f.length := leb128_lt f
    _ ≤ 128 ^ 8 := Nat.pow_le_pow_right (by decide) short
    _ < 2 ^ 64 := by decide

theorem LegalObus.mono {encodes reads : Bytes → Nat → Prop} {obus : List RawObu}
    (legal : LegalObus encodes obus) (weaker : ∀ f n, encodes f n → reads f n) :
    LegalObus reads obus := by
  have one : ∀ o : RawObu, o.Legal encodes → o.Legal reads := fun o h =>
    ⟨h.extension, h.sized, fun f there => weaker f _ (h.size f there)⟩
  induction obus with
  | nil => trivial
  | cons o rest ih => exact ⟨one o legal.1, legal.2.1, ih legal.2.2⟩

theorem LegalObus.of_mem {encodes : Bytes → Nat → Prop} {obus : List RawObu}
    (legal : LegalObus encodes obus) : ∀ o ∈ obus, o.Legal encodes := by
  induction obus with
  | nil => simp
  | cons o rest ih =>
    intro p member
    rcases List.mem_cons.mp member with rfl | later
    · exact legal.1
    · exact ih legal.2.2 p later

theorem RawObu.bytes_ne_nil (o : RawObu) : o.bytes ≠ [] := by simp [RawObu.bytes]

section Inj

variable {o p : RawObu} {s t : Bytes} (first : o.Legal ReadsSize) (second : p.Legal ReadsSize)
  (same : o.bytes ++ s = p.bytes ++ t)
include first second same

theorem RawObu.front_inj : o.header = p.header ∧ o.extension = p.extension ∧
    o.sizeField.getD [] ++ (o.body ++ s) = p.sizeField.getD [] ++ (p.body ++ t) := by
  simp only [RawObu.bytes, List.cons_append, List.append_assoc, List.cons.injEq] at same
  obtain ⟨head, tails⟩ := same
  have present := first.extension.trans ((congrArg _ head).trans second.extension.symm)
  cases this : o.extension with
  | none =>
    cases that : p.extension with
    | none => exact ⟨head, rfl, by simpa [this, that] using tails⟩
    | some _ => simp [this, that] at present
  | some e =>
    cases that : p.extension with
    | none => simp [this, that] at present
    | some e' =>
      simp only [this, that, Option.toList_some, List.cons_append, List.nil_append,
        List.cons.injEq] at tails
      exact ⟨head, congrArg some tails.1, tails.2⟩

/-- Where an OBU with a size field ends is in its octets. -/
theorem RawObu.bytes_append_inj (sized : o.sizeField.isSome) : o = p ∧ s = t := by
  obtain ⟨head, extension, tails⟩ := RawObu.front_inj first second same
  have sized' : p.sizeField.isSome := by
    rw [second.sized, ← head, ← first.sized, sized]
  obtain ⟨f, field⟩ := Option.isSome_iff_exists.mp sized
  obtain ⟨g, field'⟩ := Option.isSome_iff_exists.mp sized'
  simp only [field, field', Option.getD_some] at tails
  obtain ⟨rfl, bodies⟩ := (first.size f field).1.append_inj (second.size g field').1 tails
  have lengths : o.body.length = p.body.length :=
    (first.size f field).2.2.symm.trans (second.size f field').2.2
  obtain ⟨body, rest⟩ := List.append_inj bodies lengths
  obtain ⟨_, _, _, _⟩ := o
  obtain ⟨_, _, _, _⟩ := p
  simp_all

end Inj

/-- A concatenation of OBUs can be read in one way only. -/
theorem bytesOf_inj {l m : List RawObu} (first : LegalObus ReadsSize l) (second : LegalObus ReadsSize m)
    (same : bytesOf l = bytesOf m) : l = m := by
  induction l generalizing m with
  | nil =>
    cases m with
    | nil => rfl
    | cons p rest => simp [bytesOf, RawObu.bytes] at same
  | cons o rest ih =>
    cases m with
    | nil => simp [bytesOf, RawObu.bytes] at same
    | cons p rest' =>
      simp only [bytesOf, List.flatMap_cons] at same
      obtain ⟨legal, more, tail⟩ := first
      obtain ⟨legal', more', tail'⟩ := second
      cases sized : o.sizeField.isSome with
      | true =>
        obtain ⟨rfl, rests⟩ := RawObu.bytes_append_inj legal legal' same sized
        rw [ih tail tail' rests]
      | false =>
        obtain ⟨head, extension, tails⟩ := RawObu.front_inj legal legal' same
        have sized' : p.sizeField.isSome = false := by
          rw [legal'.sized, ← head, ← legal.sized, sized]
        have last : rest = [] := by simpa [sized] using more
        have last' : rest' = [] := by simpa [sized'] using more'
        subst last last'
        simp only [Option.isSome_eq_false_iff, Option.isNone_iff_eq_none] at sized sized'
        obtain ⟨_, _, _, _⟩ := o
        obtain ⟨_, _, _, _⟩ := p
        simp_all

end MiniRtc.Video
