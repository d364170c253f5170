import MiniRtc.Video.Obu

/-! What `ParseObus` accepts and what it makes of it. -/
namespace MiniRtc.Video
open Wire

namespace ByteBufferReader

variable (r : ByteBufferReader)

@[simp] theorem data_skip (n : Nat) : (r.skip n).data = r.data.drop n := by
  simp [data, skip, List.drop_drop]

@[simp] theorem bytes_skip (n : Nat) : (r.skip n).bytes = r.bytes := rfl

@[simp] theorem start_skip (n : Nat) : (r.skip n).start = r.start + n := rfl

@[simp] theorem skip_zero : r.skip 0 = r := rfl

@[simp] theorem skip_skip (n m : Nat) : (r.skip n).skip m = r.skip (n + m) := by
  simp [skip, Nat.add_assoc]

theorem length_eq : r.length = r.data.length := by simp [length, data]

theorem consume_eq {n : Nat} (fits : n ≤ r.length) : r.consume n = r.skip n := by
  simp [consume, Nat.not_lt.mpr fits]

theorem slice_data (n : Nat) : slice r.bytes r.start n = r.data.take n := rfl

theorem readUInt8_cons {b : Byte} {rest : Bytes} (here : r.data = b :: rest) :
    r.readUInt8 = some (b, r.skip 1) := by
  have some : ¬ 1 > r.length := by simp [length_eq, here]
  have first : byteAt r.bytes r.start = b := by
    have := byteAt_drop r.bytes r.start 0
    simp only [Nat.add_zero] at this
    rw [← this, show r.bytes.drop r.start = b :: rest from here]
    rfl
  simp [readUInt8, some, first]

theorem readUInt8_nil (empty : r.data = []) : r.readUInt8 = none := by
  simp [readUInt8, length_eq, empty]

end ByteBufferReader

/-- Seven more bits above the ones that were read. -/
theorem toNat_or_shift {v : BitVec 64} {i : Nat} (small : v.toNat < 2 ^ i) (inside : i ≤ 64) (b : Byte) :
    (v ||| (b.setWidth 64 &&& 0x7f) <<< i).toNat = (v.toNat + 2 ^ i * (b.toNat % 128)) % 2 ^ 64 := by
  have low : (b.setWidth 64 &&& 0x7f : BitVec 64).toNat = b.toNat % 128 := by
    have fits : b.toNat < 2 ^ 64 := Nat.lt_trans b.isLt (by decide)
    simp only [BitVec.toNat_and, BitVec.toNat_setWidth, Nat.mod_eq_of_lt fits]
    exact Nat.and_two_pow_sub_one_eq_mod b.toNat 7
  have split : (2 : Nat) ^ 64 = 2 ^ i * 2 ^ (64 - i) := by
    rw [← Nat.pow_add]
    congr 1
    omega
  have high : b.toNat % 128 * 2 ^ i % 2 ^ 64 = 2 ^ i * (b.toNat % 128 % 2 ^ (64 - i)) := by
    rw [Nat.mul_comm, split, Nat.mul_mod_mul_left]
  simp only [BitVec.toNat_or, BitVec.toNat_shiftLeft, low, Nat.shiftLeft_eq, high]
  rw [Nat.or_comm, ← Nat.two_pow_add_eq_or_of_lt small]
  have whole : v.toNat + 2 ^ i * (b.toNat % 128) =
      2 ^ i * (b.toNat % 128 % 2 ^ (64 - i)) + v.toNat + 2 ^ 64 * (b.toNat % 128 / 2 ^ (64 - i)) := by
    have division := Nat.mod_add_div (b.toNat % 128) (2 ^ (64 - i))
    calc v.toNat + 2 ^ i * (b.toNat % 128)
        = v.toNat + 2 ^ i * (b.toNat % 128 % 2 ^ (64 - i) +
            2 ^ (64 - i) * (b.toNat % 128 / 2 ^ (64 - i))) := by rw [division]
      _ = _ := by rw [split]; ring
  have bound := (v ||| (b.setWidth 64 &&& 0x7f) <<< i).isLt
  simp only [BitVec.toNat_or, BitVec.toNat_shiftLeft, low, Nat.shiftLeft_eq, high] at bound
  rw [Nat.or_comm, ← Nat.two_pow_add_eq_or_of_lt small] at bound
  rw [whole, Nat.add_mul_mod_self_left]
  exact (Nat.mod_eq_of_lt bound).symm

namespace ByteBufferReader

/-- `ReadUVarint` on an encoding that ends in time. -/
theorem readUVarintFrom_eq {f rest : Bytes} (legal : IsLeb128 f) (turns i : Nat) (v : BitVec 64)
    (r : ByteBufferReader) (here : r.data = f ++ rest) (short : f.length ≤ turns)
    (inside : i + 7 * f.length ≤ 70) (small : v.toNat < 2 ^ i) :
    readUVarintFrom turns i v r = some (BitVec.ofNat 64 (v.toNat + 2 ^ i * leb128 f),
      varintLength (i + 7 * (f.length - 1)), r.skip f.length) := by
  induction f generalizing turns i v r with
  | nil => exact legal.elim
  | cons b f ih =>
    cases turns with
    | zero => simp at short
    | succ turns =>
      simp only [List.length_cons] at short inside
      have value := toNat_or_shift small (by omega : i ≤ 64) b
      simp only [readUVarintFrom, r.readUInt8_cons here]
      simp only [IsLeb128] at legal
      split at legal
      · rename_i last
        subst legal
        simp only [last, if_true, leb128, Nat.mul_zero, Nat.add_zero]
        congr 2
        exact BitVec.eq_of_toNat_eq (by rw [value, BitVec.toNat_ofNat])
      · rename_i more
        have positive := legal.nonempty
        have low := Nat.mod_lt b.toNat (by decide : 0 < 128)
        have grown : v.toNat + 2 ^ i * (b.toNat % 128) < 2 ^ (i + 7) := by
          have : 2 ^ i * (b.toNat % 128) ≤ 2 ^ i * 127 := Nat.mul_le_mul_left _ (by omega)
          rw [Nat.pow_add]
          omega
        have fits : 2 ^ (i + 7) ≤ 2 ^ 64 := Nat.pow_le_pow_right (by decide) (by omega)
        rw [Nat.mod_eq_of_lt (by omega)] at value
        simp only [more, if_false]
        rw [ih legal turns (i + 7) _ (r.skip 1) (by simp [here]) (by omega) (by omega) (by omega)]
        have bits : v.toNat + 2 ^ i * (b.toNat % 128) + 2 ^ (i + 7) * leb128 f =
            v.toNat + 2 ^ i * (b.toNat % 128 + 128 * leb128 f) := by
          rw [Nat.pow_add]
          ring
        have reported : i + 7 + 7 * (f.length - 1) = i + 7 * (f.length + 1 - 1) := by omega
        simp only [value, bits, reported, skip_skip, List.length_cons, leb128, Nat.add_comm 1]

/-- Whatever `ReadUVarint` takes is such an encoding. -/
theorem readUVarintFrom_some (turns i : Nat) (v : BitVec 64) (r : ByteBufferReader)
    {result : BitVec 64 × Nat × ByteBufferReader} (read : readUVarintFrom turns i v r = some result) :
    ∃ f rest, r.data = f ++ rest ∧ IsLeb128 f ∧ f.length ≤ turns := by
  induction turns generalizing i v r with
  | zero => cases read
  | succ turns ih =>
    cases here : r.data with
    | nil => simp [readUVarintFrom, r.readUInt8_nil here] at read
    | cons b rest =>
      simp only [readUVarintFrom, r.readUInt8_cons here] at read
      split at read
      · rename_i last
        exact ⟨[b], rest, rfl, by simp [IsLeb128, last], by simp⟩
      · rename_i more
        obtain ⟨f, left, same, legal, short⟩ := ih (i + 7) _ (r.skip 1) read
        simp only [data_skip, here, List.drop_succ_cons, List.drop_zero] at same
        exact ⟨b :: f, left, by simp [same], by simpa [IsLeb128, more] using legal, by simp [short]⟩

end ByteBufferReader

/-- The octets that the parser takes for the size field: of nine or ten it forgets the first. -/
def sizeData (f : Bytes) : Bytes := f.drop (if f.length ≤ 8 then 0 else 1)

theorem varintLength_eq : ∀ n : Fin 11, 0 < n.val →
    ByteBufferReader.varintLength (7 * (n.val - 1)) = n.val - (if n.val ≤ 8 then 0 else 1) := by decide

/-- What the parser keeps after the header of an OBU with a size field. -/
def sizedPayload (f body : Bytes) : Bytes := if body = [] then [0] else sizeData f ++ body

theorem readSizedPayload_eq {f body rest : Bytes} (encodes : ReadsSize f body.length)
    (r : ByteBufferReader) (here : r.data = f ++ (body ++ rest)) :
    readSizedPayload r = some (sizedPayload f body, r.skip (f.length + body.length)) := by
  obtain ⟨legal, short, value⟩ := encodes
  have read := ByteBufferReader.readUVarintFrom_eq legal 10 0 0 r here short (by omega) (by decide)
  have size : (BitVec.ofNat 64 ((0 : BitVec 64).toNat + 2 ^ 0 * leb128 f)).toNat = body.length := by
    simp only [BitVec.toNat_ofNat, Nat.pow_zero, Nat.one_mul]
    simpa using value
  have left : (r.skip f.length).data = body ++ rest := by simp [here]
  have fits : body.length ≤ (r.skip f.length).length := by
    rw [ByteBufferReader.length_eq, left]
    simp
  have none : (BitVec.ofNat 64 ((0 : BitVec 64).toNat + 2 ^ 0 * leb128 f) = 0) ↔ body = [] := by
    rw [← BitVec.toNat_inj, size]
    simp
  have taken : slice r.bytes r.start f.length = f := by
    rw [r.slice_data, here, List.take_left]
  have reported := varintLength_eq ⟨f.length, by omega⟩ legal.nonempty
  simp only at reported
  simp only [readSizedPayload, ByteBufferReader.readUVarint, read, size, Nat.not_lt.mpr fits, if_false,
    none, Nat.zero_add, reported]
  by_cases empty : body = []
  · simp [empty, sizedPayload, ByteBufferReader.consume_eq]
  · have back : (r.skip f.length).start - (f.length - (if f.length ≤ 8 then 0 else 1)) =
        r.start + (if f.length ≤ 8 then 0 else 1) := by
      have := legal.nonempty
      simp only [ByteBufferReader.start_skip]
      split <;> omega
    have body_eq : slice r.bytes (r.skip f.length).start body.length = body := by
      rw [← r.bytes_skip f.length, ByteBufferReader.slice_data, left, List.take_left]
    simp only [empty, if_false, sizedPayload, back, body_eq, ByteBufferReader.consume_eq _ fits,
      ByteBufferReader.skip_skip, ByteBufferReader.bytes_skip, slice_drop, taken, sizeData]

theorem readSizedPayload_some (r : ByteBufferReader) {result : Bytes × ByteBufferReader}
    (read : readSizedPayload r = some result) :
    ∃ f body rest, r.data = f ++ (body ++ rest) ∧ ReadsSize f body.length := by
  unfold readSizedPayload at read
  split at read
  · cases read
  · rename_i size sizeLen r' number
    obtain ⟨f, rest, here, legal, short⟩ := ByteBufferReader.readUVarintFrom_some 10 0 0 r number
    have same := ByteBufferReader.readUVarintFrom_eq legal 10 0 0 r here short (by omega) (by decide)
    rw [ByteBufferReader.readUVarint, same] at number
    simp only [Option.some.injEq, Prod.mk.injEq] at number
    obtain ⟨rfl, _, rfl⟩ := number
    split at read
    · cases read
    · rename_i fits
      have value : (BitVec.ofNat 64 ((0 : BitVec 64).toNat + 2 ^ 0 * leb128 f)).toNat =
          leb128 f % 2 ^ 64 := by simp
      have left : (r.skip f.length).length = rest.length := by
        simp [ByteBufferReader.length_eq, here]
      rw [value, left] at fits
      refine ⟨f, rest.take (leb128 f % 2 ^ 64), rest.drop (leb128 f % 2 ^ 64), ?_, legal, short, ?_⟩
      · rw [List.take_append_drop, here]
      · rw [List.length_take]
        omega

section ReadObu

variable {header : Byte} (r : ByteBufferReader)

theorem readExtension_eq {extension : Option Byte} {tail : Bytes}
    (present : extension.isSome = obuHasExtension header) (here : r.data = extension.toList ++ tail) :
    readExtension header r = some (extension, r.skip extension.toList.length) := by
  cases extension with
  | none => simp [readExtension, ← present]
  | some e => simp [readExtension, ← present, r.readUInt8_cons here]

theorem readExtension_some {result : Option Byte × ByteBufferReader}
    (read : readExtension header r = some result) :
    ∃ tail, result.1.isSome = obuHasExtension header ∧ r.data = result.1.toList ++ tail := by
  unfold readExtension at read
  split at read
  · rename_i present
    cases here : r.data with
    | nil => simp [r.readUInt8_nil here] at read
    | cons e tail =>
      rw [r.readUInt8_cons here] at read
      cases read
      exact ⟨tail, by simp [present]⟩
  · rename_i absent
    cases read
    exact ⟨r.data, by simpa using absent⟩

/-- What the parser keeps after the header. -/
def keptPayload (sizeField : Option Bytes) (body : Bytes) : Bytes :=
  match sizeField with
  | none => body
  | some f => sizedPayload f body

theorem readPayload_eq {sizeField : Option Bytes} {body rest : Bytes}
    (present : sizeField.isSome = obuHasSize header)
    (encodes : ∀ f, sizeField = some f → ReadsSize f body.length)
    (here : r.data = sizeField.getD [] ++ (body ++ rest)) (sized : rest = [] ∨ sizeField.isSome) :
    readPayload header r =
      some (keptPayload sizeField body, r.skip ((sizeField.getD []).length + body.length)) := by
  cases sizeField with
  | none =>
    obtain rfl : rest = [] := by simpa using sized
    have all : r.data = body := by simpa using here
    simp [readPayload, ← present, all, ByteBufferReader.consume_eq, ByteBufferReader.length_eq, keptPayload]
  | some f =>
    simp [readPayload, ← present, readSizedPayload_eq (encodes f rfl) r here, keptPayload]

theorem readPayload_some {result : Bytes × ByteBufferReader} (read : readPayload header r = some result) :
    ∃ sizeField body rest, sizeField.isSome = obuHasSize header ∧
      (∀ f, sizeField = some f → ReadsSize f body.length) ∧
      r.data = sizeField.getD [] ++ (body ++ rest) ∧ (rest = [] ∨ sizeField.isSome) := by
  unfold readPayload at read
  split at read
  · rename_i present
    obtain ⟨f, body, rest, here, encodes⟩ := readSizedPayload_some r read
    refine ⟨some f, body, rest, by simp [present], ?_, here, .inr rfl⟩
    rintro g ⟨⟩
    exact encodes
  · rename_i absent
    exact ⟨none, r.data, [], by simpa using absent, by simp, by simp, .inl rfl⟩

end ReadObu

namespace RawObu

/-- The octets of an OBU that are sent. -/
def sent (o : RawObu) : Bytes := o.header :: o.extension.toList ++ keptPayload o.sizeField o.body

def parsed (o : RawObu) : Obu where
  header := o.header
  extensionHeader := o.extension.getD 0
  payload := o.sent
  size := o.sent.length

end RawObu

theorem readObu_eq {o : RawObu} {rest : Bytes} (r : ByteBufferReader) (legal : o.Legal ReadsSize)
    (here : r.data = o.bytes ++ rest) (sized : rest = [] ∨ o.sizeField.isSome) :
    readObu r = some (o.parsed, r.skip o.bytes.length) := by
  simp only [RawObu.bytes, List.cons_append, List.append_assoc] at here
  have second : (r.skip 1).data = o.extension.toList ++ (o.sizeField.getD [] ++ (o.body ++ rest)) := by
    simp [here]
  have third : (r.skip (1 + o.extension.toList.length)).data =
      o.sizeField.getD [] ++ (o.body ++ rest) := by
    rw [← r.skip_skip, ByteBufferReader.data_skip, second, List.drop_left]
  have length : 1 + o.extension.toList.length + ((o.sizeField.getD []).length + o.body.length) =
      o.bytes.length := by
    simp only [RawObu.bytes, List.length_append, List.length_cons]
    omega
  have size : 1 + o.extension.toList.length + (keptPayload o.sizeField o.body).length =
      o.sent.length := by
    simp only [RawObu.sent, List.length_append, List.length_cons]
    omega
  simp only [readObu, Option.bind_eq_bind, r.readUInt8_cons here, Option.bind_some,
    readExtension_eq _ legal.extension second, ByteBufferReader.skip_skip,
    readPayload_eq _ legal.sized legal.size third sized, length, size]
  rfl

theorem readObu_some (r : ByteBufferReader) {result : Obu × ByteBufferReader}
    (read : readObu r = some result) : ∃ (o : RawObu) (rest : Bytes), o.Legal ReadsSize ∧
      r.data = o.bytes ++ rest ∧ (rest = [] ∨ o.sizeField.isSome) := by
  cases here : r.data with
  | nil => simp [readObu, r.readUInt8_nil here] at read
  | cons header tail =>
    simp only [readObu, Option.bind_eq_bind, r.readUInt8_cons here, Option.bind_some,
      Option.bind_eq_some_iff] at read
    obtain ⟨⟨extension, r'⟩, extended, ⟨_, _⟩, payload, _⟩ := read
    obtain ⟨more, present, second⟩ := readExtension_some _ extended
    rw [readExtension_eq _ present second] at extended
    obtain ⟨sizeField, body, rest, sized, encodes, third, last⟩ := readPayload_some _ payload
    simp only [Option.some.injEq, Prod.mk.injEq, true_and] at extended
    rw [← extended, ByteBufferReader.data_skip, second, List.drop_left] at third
    refine ⟨⟨header, extension, sizeField, body⟩, rest, ⟨present, sized, encodes⟩, ?_, last⟩
    have tail_eq : tail = (r.skip 1).data := by simp [here]
    simp [RawObu.bytes, tail_eq, second, third]

/-! ### The whole input -/

theorem parseObusFrom_eq {obus : List RawObu} (legal : LegalObus ReadsSize obus) (turns : Nat)
    (enough : obus.length ≤ turns) (r : ByteBufferReader) (here : r.data = bytesOf obus)
    (result : List Obu) : parseObusFrom turns r result = result ++ obus.map RawObu.parsed := by
  induction obus generalizing turns r result with
  | nil =>
    have empty : r.length = 0 := by simp [ByteBufferReader.length_eq, here, bytesOf]
    cases turns with
    | zero => simp [parseObusFrom]
    | succ turns => simp [parseObusFrom, empty]
  | cons o rest ih =>
    cases turns with
    | zero => simp at enough
    | succ turns =>
      have split : r.data = o.bytes ++ bytesOf rest := by simpa [bytesOf] using here
      have some : r.length ≠ 0 := by simp [ByteBufferReader.length_eq, split, RawObu.bytes]
      have sized : bytesOf rest = [] ∨ o.sizeField.isSome := by
        rcases legal.2.1 with rfl | sized
        · exact .inl rfl
        · exact .inr sized
      simp only [parseObusFrom, some, if_false, readObu_eq r legal.1 split sized]
      rw [ih legal.2.2 turns (by simpa using enough) _ (by simp [split])]
      simp

theorem parseObusFrom_malformed (turns : Nat) (r : ByteBufferReader) (enough : r.data.length ≤ turns)
    (result : List Obu) : (∃ obus, LegalObus ReadsSize obus ∧ r.data = bytesOf obus) ∨
      parseObusFrom turns r result = [] := by
  induction turns generalizing r result with
  | zero => exact .inl ⟨[], trivial, by simpa [bytesOf] using enough⟩
  | succ turns ih =>
    by_cases empty : r.length = 0
    · refine .inl ⟨[], trivial, ?_⟩
      simpa [ByteBufferReader.length_eq, bytesOf] using empty
    · simp only [parseObusFrom, empty, if_false]
      cases read : readObu r with
      | none => exact .inr rfl
      | some next =>
        obtain ⟨o, rest, legal, here, sized⟩ := readObu_some r read
        rw [readObu_eq r legal here sized] at read
        cases read
        have left : (r.skip o.bytes.length).data = rest := by simp [here]
        have shorter : rest.length ≤ turns := by
          have := congrArg List.length here
          simp only [List.length_append, RawObu.bytes, List.length_cons] at this
          omega
        rcases ih (r.skip o.bytes.length) (by rwa [left]) (result ++ [o.parsed]) with
          ⟨obus, others, same⟩ | nothing
        · refine .inl ⟨o :: obus, ⟨legal, ?_, others⟩, ?_⟩
          · rcases sized with rfl | sized
            · cases obus with
              | nil => exact .inl rfl
              | cons p _ => simp [here, bytesOf, RawObu.bytes] at same
            · exact .inr sized
          · rw [here, ← left, same]
            simp [bytesOf]
        · exact .inr nothing

/-- The parser accepts concatenations of OBUs and nothing else. -/
theorem parseObus_eq {obus : List RawObu} (legal : LegalObus ReadsSize obus) :
    parseObus (bytesOf obus) = obus.map RawObu.parsed := by
  have enough : obus.length ≤ (bytesOf obus).length := by
    induction obus with
    | nil => simp
    | cons o rest ih =>
      have := ih legal.2.2
      simp only [bytesOf, List.flatMap_cons, List.length_append, List.length_cons, RawObu.bytes] at this ⊢
      omega
  simpa [parseObus] using parseObusFrom_eq legal _ enough { bytes := bytesOf obus } rfl []

theorem parseObus_malformed {payload : Bytes}
    (malformed : ¬ ∃ obus, LegalObus ReadsSize obus ∧ payload = bytesOf obus) : parseObus payload = [] := by
  rcases parseObusFrom_malformed payload.length { bytes := payload } (by simp [ByteBufferReader.data]) []
    with wellFormed | nothing
  · exact absurd wellFormed malformed
  · exact nothing

end MiniRtc.Video
