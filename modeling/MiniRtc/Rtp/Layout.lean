import MiniRtc.Rtp.Packetizer

/-! What decides how a header is parsed.
The first octet, the lengths in the header and the element headers of the extension
block do; the values of the elements, the rest of the fixed header and the payload do not. -/
namespace MiniRtc.Rtp
open Wire

/-- An element without its value. -/
def Extension.place (e : Extension) : Byte × Nat × Nat := (e.id, e.len, e.dataOffset)

/-- An element of the result was there before, or stands past the offset and inside the block. -/
theorem parseOneByteExtensions_mem {buffer : Bytes} {extensionEnd turns offset : Nat}
    {acc es : List Extension} {e : Extension}
    (accepted : parseOneByteExtensions buffer extensionEnd turns offset acc = .ok es) (member : e ∈ es) :
    e ∈ acc ∨ offset < e.dataOffset ∧ e.dataOffset + e.len ≤ extensionEnd := by
  induction turns generalizing offset acc with
  | zero => exact .inl (Except.ok.inj accepted ▸ member)
  | succ turns ih =>
    unfold parseOneByteExtensions at accepted
    by_cases inside : offset < extensionEnd
    · rw [if_pos inside] at accepted
      simp only at accepted
      by_cases pad : byteAt buffer offset >>> 4 = 0
      · rw [if_pos pad] at accepted
        rcases ih accepted with old | new
        · exact .inl old
        · exact .inr ⟨by omega, new.2⟩
      rw [if_neg pad] at accepted
      by_cases reserved : byteAt buffer offset >>> 4 = 15
      · rw [if_pos reserved] at accepted
        exact .inl (Except.ok.inj accepted ▸ member)
      rw [if_neg reserved] at accepted
      by_cases long : extensionEnd < offset + 1 + ((byteAt buffer offset &&& 0x0F).toNat + 1)
      · rw [if_pos long] at accepted
        cases accepted
      rw [if_neg long] at accepted
      rcases ih accepted with old | new
      · rcases List.mem_append.mp old with old | this
        · exact .inl old
        · rw [List.mem_singleton.mp this]
          exact .inr ⟨by simp only; omega, by simp only; omega⟩
      · exact .inr ⟨by omega, new.2⟩
    · rw [if_neg inside] at accepted
      exact .inl (Except.ok.inj accepted ▸ member)

/-- Buffers that differ at most in values of elements have the same elements, up to the values. -/
theorem parseOneByteExtensions_congr {a b : Bytes} {extensionEnd turns offset : Nat}
    {acc acc' es : List Extension}
    (accepted : parseOneByteExtensions a extensionEnd turns offset acc = .ok es)
    (values : ∀ i, offset ≤ i → i < extensionEnd → byteAt a i ≠ byteAt b i →
      ∃ e ∈ es, e.dataOffset ≤ i ∧ i < e.dataOffset + e.len)
    (past : ∀ e ∈ acc, e.dataOffset + e.len ≤ offset)
    (places : acc'.map Extension.place = acc.map Extension.place) :
    ∃ es', parseOneByteExtensions b extensionEnd turns offset acc' = .ok es' ∧
      es'.map Extension.place = es.map Extension.place := by
  induction turns generalizing offset acc acc' with
  | zero => exact ⟨acc', rfl, by rw [places, Except.ok.inj accepted]⟩
  | succ turns ih =>
    unfold parseOneByteExtensions
    by_cases inside : offset < extensionEnd
    · have same : byteAt b offset = byteAt a offset := by
        by_contra differs
        obtain ⟨e, member, low, high⟩ := values offset (Nat.le_refl _) inside (Ne.symm differs)
        rcases parseOneByteExtensions_mem accepted member with old | new
        · have := past e old
          omega
        · omega
      unfold parseOneByteExtensions at accepted
      rw [if_pos inside] at accepted ⊢
      simp only [same] at accepted ⊢
      by_cases pad : byteAt a offset >>> 4 = 0
      · rw [if_pos pad] at accepted ⊢
        refine ih accepted (fun i low high => values i (by omega) high) ?_ places
        intro e old
        have := past e old
        omega
      rw [if_neg pad] at accepted ⊢
      by_cases reserved : byteAt a offset >>> 4 = 15
      · rw [if_pos reserved] at accepted ⊢
        exact ⟨acc', rfl, by rw [places, Except.ok.inj accepted]⟩
      rw [if_neg reserved] at accepted ⊢
      by_cases long : extensionEnd < offset + 1 + ((byteAt a offset &&& 0x0F).toNat + 1)
      · rw [if_pos long] at accepted
        cases accepted
      rw [if_neg long] at accepted ⊢
      refine ih accepted (fun i low high => values i (by omega) high) ?_ ?_
      · intro e old
        rcases List.mem_append.mp old with old | this
        · have := past e old
          omega
        · rw [List.mem_singleton.mp this]
      · simp only [List.map_append, places, List.map_cons, List.map_nil, Extension.place]
    · unfold parseOneByteExtensions at accepted
      rw [if_neg inside] at accepted ⊢
      exact ⟨acc', rfl, by rw [places, Except.ok.inj accepted]⟩

/-- The elements of an accepted packet stand behind the length field of the block. -/
theorem extensionsOf_mem {buffer : Bytes} {es : List Extension} {e : Extension}
    (accepted : extensionsOf buffer = .ok es) (member : e ∈ es) :
    csrcEndOf buffer + 4 < e.dataOffset ∧ e.dataOffset + e.len ≤ headerEndOf buffer := by
  unfold extensionsOf at accepted
  split at accepted
  · rcases parseOneByteExtensions_mem accepted member with old | new
    · cases old
    · exact new
  · rw [← Except.ok.inj accepted] at member
    cases member

/-- The header of `b` is that of `a`, apart from values of elements and from what the
fixed header holds after its first octet. -/
structure SameLayout (a : Bytes) (es : List Extension) (b : Bytes) : Prop where
  first : byteAt b 0 = byteAt a 0
  room : headerEndOf a ≤ b.length
  values : ∀ i, kFixedHeaderSize ≤ i → i < headerEndOf a → byteAt a i ≠ byteAt b i →
    ∃ e ∈ es, e.dataOffset ≤ i ∧ i < e.dataOffset + e.len

section Layout

variable {a b : Bytes} {es : List Extension}

theorem SameLayout.csrcEndOf_eq (same : SameLayout a es b) : csrcEndOf b = csrcEndOf a := by
  rw [csrcEndOf, csrcEndOf, csrcCountOf, csrcCountOf, same.first]

theorem SameLayout.hasExtensionOf_eq (same : SameLayout a es b) :
    hasExtensionOf b = hasExtensionOf a := by
  rw [hasExtensionOf, hasExtensionOf, same.first]

/-- The profile and the length of the block are no value of an element. -/
theorem SameLayout.get16_eq (same : SameLayout a es b) (accepted : extensionsOf a = .ok es)
    (block : hasExtensionOf a = true) {i : Nat} (low : csrcEndOf a ≤ i) (high : i < csrcEndOf a + 3) :
    get16 b i = get16 a i := by
  have octet : ∀ j, csrcEndOf a ≤ j → j < csrcEndOf a + 4 → byteAt b j = byteAt a j := by
    intro j low high
    by_contra differs
    have start : kFixedHeaderSize ≤ csrcEndOf a := Nat.le_add_right _ _
    have within : csrcEndOf a + 4 ≤ headerEndOf a := by
      rw [headerEndOf, if_pos block]
      omega
    obtain ⟨e, member, left, _⟩ := same.values j (by omega) (by omega) (Ne.symm differs)
    have := (extensionsOf_mem accepted member).1
    omega
  rw [get16, get16, octet i low (by omega), octet (i + 1) (by omega) (by omega)]

theorem SameLayout.extensionWordsOf_eq (same : SameLayout a es b) (accepted : extensionsOf a = .ok es)
    (block : hasExtensionOf a = true) : extensionWordsOf b = extensionWordsOf a := by
  rw [extensionWordsOf, extensionWordsOf, same.csrcEndOf_eq,
    same.get16_eq accepted block (by omega) (by omega)]

theorem SameLayout.headerEndOf_eq (same : SameLayout a es b) (accepted : extensionsOf a = .ok es) :
    headerEndOf b = headerEndOf a := by
  rw [headerEndOf, headerEndOf, same.csrcEndOf_eq, same.hasExtensionOf_eq]
  cases block : hasExtensionOf a with
  | false => rfl
  | true => rw [same.extensionWordsOf_eq accepted block]

theorem SameLayout.extensionsOf_eq (same : SameLayout a es b) (accepted : extensionsOf a = .ok es) :
    ∃ es', extensionsOf b = .ok es' ∧ es'.map Extension.place = es.map Extension.place := by
  have original := accepted
  unfold extensionsOf at accepted ⊢
  rw [same.hasExtensionOf_eq]
  cases block : hasExtensionOf a with
  | false =>
    simp only [block, Bool.false_eq_true, false_and, if_false] at accepted ⊢
    exact ⟨[], rfl, by rw [← Except.ok.inj accepted]⟩
  | true =>
    rw [same.csrcEndOf_eq, same.extensionWordsOf_eq original block, same.headerEndOf_eq original,
      same.get16_eq original block (Nat.le_refl _) (by omega)]
    rw [block] at accepted
    by_cases profile : get16 a (csrcEndOf a) = kOneByteExtensionProfileId
    · rw [if_pos ⟨rfl, profile⟩] at accepted ⊢
      have start : kFixedHeaderSize ≤ csrcEndOf a := Nat.le_add_right _ _
      exact parseOneByteExtensions_congr accepted
        (fun i low high => same.values i (by omega) high) (by simp) rfl
    · rw [if_neg (fun h => profile h.2)] at accepted ⊢
      exact ⟨[], rfl, by rw [← Except.ok.inj accepted]⟩

/-- A packet with the layout of an accepted one is accepted. -/
theorem SameLayout.accepts (same : SameLayout a es b) (accepted : Accepts a es) :
    ∃ es', Accepts b es' ∧ es'.map Extension.place = es.map Extension.place := by
  obtain ⟨es', elements, places⟩ := same.extensionsOf_eq accepted.extensions
  have room := same.room
  have start : kFixedHeaderSize ≤ csrcEndOf a := Nat.le_add_right _ _
  have order := csrcEndOf_le_headerEndOf a
  refine ⟨es', ⟨?_, by omega, ?_, elements⟩, places⟩
  · rw [same.first]
    exact accepted.version
  · rw [same.headerEndOf_eq accepted.extensions]
    exact room

end Layout

/-! ### The header in its two parts -/

/-- CSRC list and extension block as they stand in the buffer. -/
def headerTail (buffer : Bytes) : Bytes :=
  slice buffer kFixedHeaderSize (headerEndOf buffer - kFixedHeaderSize)

theorem headerTail_length {buffer : Bytes} (room : headerEndOf buffer ≤ buffer.length) :
    kFixedHeaderSize + (headerTail buffer).length = headerEndOf buffer := by
  have start : kFixedHeaderSize ≤ csrcEndOf buffer := Nat.le_add_right _ _
  have order := csrcEndOf_le_headerEndOf buffer
  simp only [headerTail, slice, List.length_take, List.length_drop]
  omega

theorem take_twelve {buffer : Bytes} (fixed : kFixedHeaderSize ≤ buffer.length) :
    buffer.take 12 = [byteAt buffer 0, byteAt buffer 1] ++ slice buffer 2 2 ++ slice buffer 4 4 ++
      slice buffer 8 4 := by
  have first : [byteAt buffer 0, byteAt buffer 1] = buffer.take 2 := by
    match buffer, fixed with
    | _ :: _ :: _, _ => rfl
  rw [first]
  simp only [slice, ← List.take_add]

theorem cons_msb_setWidth : ∀ b : Byte, BitVec.cons b.msb (b.setWidth 7) = b := by decide

/-- An accepted packet is the header made of its fields, the tail, and the payload. -/
theorem eq_plainHeader {buffer : Bytes} {es : List Extension} (accepted : Accepts buffer es)
    (clear : hasPaddingOf buffer = false) :
    buffer = plainHeader (hasExtensionOf buffer) (csrcCountOf buffer) (byteAt buffer 1).msb
      ((byteAt buffer 1).setWidth 7) (get16 buffer 2) (get32 buffer 4) (get32 buffer 8) ++
        (headerTail buffer ++ buffer.drop (headerEndOf buffer)) := by
  have fixed : 12 ≤ buffer.length := accepted.fixed
  have tail : headerTail buffer ++ buffer.drop (headerEndOf buffer) = buffer.drop 12 := by
    have length := headerTail_length accepted.header
    have split : buffer.drop (headerEndOf buffer) =
        (buffer.drop 12).drop (headerEndOf buffer - kFixedHeaderSize) := by
      rw [List.drop_drop]
      congr 1
      simp only [kFixedHeaderSize] at *
      omega
    rw [headerTail, slice, split]
    exact List.take_append_drop _ _
  have head : plainHeader (hasExtensionOf buffer) (csrcCountOf buffer) (byteAt buffer 1).msb
      ((byteAt buffer 1).setWidth 7) (get16 buffer 2) (get32 buffer 4) (get32 buffer 8) =
        buffer.take 12 := by
    rw [take_twelve accepted.fixed]
    simp only [fixedHeader]
    rw [put16_get16 (by omega), put32_get32 (by omega),
      put32_get32 (by omega), cons_msb_setWidth]
    rw [hasExtensionOf, csrcCountOf, firstByte_write _ accepted.version clear]
  rw [head, tail, List.take_append_drop]

end MiniRtc.Rtp
