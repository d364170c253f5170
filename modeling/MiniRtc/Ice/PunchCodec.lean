import MiniRtc.Ice.PunchProtocol

/-! The codec of the punch packets. A packet that is accepted has one wire form, and a byte string
is accepted exactly when it is the wire form of an accepted packet under its own domain and
generation; everything else about the codec follows from that. -/
namespace MiniRtc.Ice.Punch
open Wire

def domainOf (kind : Kind) : Domain := if kind = .probe ∨ kind = .ack then .probe else .control

theorem known_domainOf {kind : Kind} {domain : Domain} (is_known : known kind domain = true) :
    domain = domainOf kind := by
  unfold known at is_known
  unfold domainOf
  cases domain with
  | probe =>
    rw [if_pos]
    simpa using is_known
  | control =>
    rw [if_neg]
    rintro (rfl | rfl)
    · exact absurd is_known (by decide)
    · exact absurd is_known (by decide)

theorem probe_known {kind : Kind} (probe : domainOf kind = .probe) : known kind .probe = true := by
  unfold domainOf at probe
  split at probe
  · rename_i this
    simpa [known] using this
  · cases probe

section Codec

variable (parse : JsonParser) (hmac : Key → Bytes → Block 32)

/-- The payload is one of its kind. -/
def Payload (kind : Kind) (payload : Bytes) : Prop :=
  match domainOf kind with
  | .control => ∃ j, parseControl parse kind payload = some j
  | .probe => ∃ probe, parseProbe payload = some probe

/-- What both sides check of a packet. -/
structure Accepted (p : Packet) : Prop where
  sequence : p.sequence ≠ 0
  generation : isZero p.generation = false
  round : isZero p.round = decide (p.kind = .hello)
  payload : Payload parse p.kind p.payload

/-- The header and the payload, which the tag is computed of. -/
def wire (p : Packet) : Bytes :=
  magic ++ [1] ++ [p.kind] ++ put p.payload.length 2 ++ p.generation.octets ++ p.round.octets ++
    put p.sequence.toNat 4 ++ p.payload

def sealed (p : Packet) (key : Key) : Bytes := wire p ++ (hmac key (wire p)).octets.take kTagSize

variable {parse hmac} {p : Packet} {key : Key}

theorem payload_iff :
    (if domainOf p.kind = .control then (parseControl parse p.kind p.payload).isNone
      else (parseProbe p.payload).isNone) = false ↔ Payload parse p.kind p.payload := by
  unfold Payload
  cases domainOf p.kind with
  | control => simp [Option.isNone_eq_false_iff, Option.isSome_iff_exists]
  | probe => simp [Option.isNone_eq_false_iff, Option.isSome_iff_exists]

theorem round_iff :
    (if p.kind = .hello then !isZero p.round else isZero p.round) = false ↔
      isZero p.round = decide (p.kind = .hello) := by
  by_cases hello : p.kind = .hello <;> simp [hello]

theorem accepted_iff : Accepted parse p ↔
    ¬ (p.sequence = 0 ∨ isZero p.generation ∨
      (if p.kind = .hello then !isZero p.round else isZero p.round) ∨
      (if domainOf p.kind = .control then (parseControl parse p.kind p.payload).isNone
        else (parseProbe p.payload).isNone)) := by
  simp only [not_or, Bool.not_eq_true]
  rw [round_iff, payload_iff]
  constructor
  · rintro ⟨sequence, generation, round, payload⟩
    exact ⟨sequence, generation, round, payload⟩
  · rintro ⟨sequence, generation, round, payload⟩
    exact ⟨sequence, generation, round, payload⟩

theorem encode_of_accepted (accepted : Accepted parse p) : encode parse hmac p key = sealed hmac p key :=
  if_neg (accepted_iff.mp accepted)

theorem encode_of_not_accepted (refused : ¬ Accepted parse p) : encode parse hmac p key = [] :=
  if_pos (not_not.mp (mt accepted_iff.mpr refused))

/-! ### Lengths -/

theorem Payload.length_le {kind : Kind} {payload : Bytes} (good : Payload parse kind payload) :
    payload.length ≤ kControlMax - kHeaderSize - kTagSize := by
  unfold Payload at good
  split at good
  · obtain ⟨j, parsed⟩ := good
    unfold parseControl at parsed
    split at parsed
    · cases parsed
    · rename_i fits
      exact not_lt.mp (not_or.mp fits).2
  · obtain ⟨probe, parsed⟩ := good
    unfold parseProbe at parsed
    split at parsed
    · cases parsed
    · rename_i length
      rw [not_not.mp length]
      decide

theorem Payload.length_probe {kind : Kind} {payload : Bytes} (good : Payload parse kind payload)
    (probe : domainOf kind = .probe) : payload.length = 20 := by
  rw [Payload, probe] at good
  obtain ⟨result, parsed⟩ := good
  unfold parseProbe at parsed
  split at parsed
  · cases parsed
  · rename_i length
    exact not_not.mp length

theorem Payload.known {kind : Kind} {payload : Bytes} (good : Payload parse kind payload) :
    known kind (domainOf kind) = true := by
  cases domain : domainOf kind with
  | probe => exact probe_known domain
  | control =>
    rw [Payload, domain] at good
    obtain ⟨j, parsed⟩ := good
    unfold parseControl at parsed
    split at parsed
    · cases parsed
    · rename_i fits
      exact Bool.eq_true_of_not_eq_false (not_or.mp fits).1

theorem wire_length : (wire p).length = kHeaderSize + p.payload.length := by
  simp [wire, magic, kHeaderSize, p.generation.size, p.round.size]
  omega

theorem tag_length (b : Bytes) : ((hmac key b).octets.take kTagSize).length = kTagSize := by
  simp [(hmac key b).size, kTagSize]

theorem sealed_length : (sealed hmac p key).length = kHeaderSize + p.payload.length + kTagSize := by
  rw [sealed, List.length_append, wire_length, tag_length]

/-! ### Reading a wire form -/

/-- The fields of the header and the payload, one after the other. -/
theorem wire_fields (rest : Bytes) : wire p ++ rest =
    magic ++ (1 :: p.kind :: (put p.payload.length 2 ++ (p.generation.octets ++ (p.round.octets ++
      (put p.sequence.toNat 4 ++ (p.payload ++ rest)))))) := by
  simp [wire]

section Reading

variable (p) (rest : Bytes)

theorem read_version : byteAt (wire p ++ rest) 4 = 1 := by
  simp [wire_fields, byteAt, magic]

theorem read_kind : byteAt (wire p ++ rest) 5 = p.kind := by
  simp [wire_fields, byteAt, magic]

theorem read_length : slice (wire p ++ rest) 6 2 = put p.payload.length 2 := by
  rw [wire_fields]
  exact slice_middle (a := magic ++ [1, p.kind]) rfl (put_length _ _)

theorem read_generation : slice (wire p ++ rest) 8 16 = p.generation.octets := by
  rw [show wire p ++ rest = (magic ++ [1, p.kind] ++ put p.payload.length 2) ++
    (p.generation.octets ++ (p.round.octets ++ (put p.sequence.toNat 4 ++ (p.payload ++ rest)))) by
      simp [wire]]
  exact slice_middle (by simp [magic]) p.generation.size

theorem read_round : slice (wire p ++ rest) 24 16 = p.round.octets := by
  rw [show wire p ++ rest = (magic ++ [1, p.kind] ++ put p.payload.length 2 ++ p.generation.octets) ++
    (p.round.octets ++ (put p.sequence.toNat 4 ++ (p.payload ++ rest))) by simp [wire]]
  exact slice_middle (by simp [magic, p.generation.size]) p.round.size

theorem read_sequence : slice (wire p ++ rest) 40 4 = put p.sequence.toNat 4 := by
  rw [show wire p ++ rest = (magic ++ [1, p.kind] ++ put p.payload.length 2 ++ p.generation.octets ++
    p.round.octets) ++ (put p.sequence.toNat 4 ++ (p.payload ++ rest)) by simp [wire]]
  exact slice_middle (by simp [magic, p.generation.size, p.round.size]) (put_length _ _)

theorem read_payload : slice (wire p ++ rest) kHeaderSize p.payload.length = p.payload := by
  rw [show wire p ++ rest = (magic ++ [1, p.kind] ++ put p.payload.length 2 ++ p.generation.octets ++
    p.round.octets ++ put p.sequence.toNat 4) ++ (p.payload ++ rest) by simp [wire]]
  exact slice_middle (by simp [magic, p.generation.size, p.round.size, kHeaderSize]) rfl

end Reading

/-! ### Decoding -/

variable {data : Bytes} {domain : Domain} {generation : Id}

/-- The wire form of an accepted packet is accepted, and read as the packet. -/
theorem decode_sealed (accepted : Accepted parse p) :
    decode parse hmac (sealed hmac p key) key (domainOf p.kind) p.generation = some p := by
  have size : (sealed hmac p key).length = kHeaderSize + p.payload.length + kTagSize := sealed_length
  have length := accepted.payload.length_le
  simp only [kHeaderSize, kTagSize, kControlMax] at size length
  have count : get (slice (sealed hmac p key) 6 2) = p.payload.length := by
    rw [sealed, read_length, get_put (by omega)]
  have before : (sealed hmac p key).length - kTagSize = (wire p).length := by
    rw [size, wire_length, kHeaderSize, kTagSize]
    omega
  unfold decode
  rw [if_neg]
  · simp only
    rw [before, if_neg]
    · have sequence : BitVec.ofNat 32 (get (slice (sealed hmac p key) 40 4)) = p.sequence := by
        rw [sealed, read_sequence, get_put (by have := p.sequence.isLt; omega)]
        simp
      have round : Block.read (sealed hmac p key) 24 16 = p.round := by
        apply Block.octets_inj
        rw [Block.read_octets (by omega), sealed, read_round]
      have payload : slice (sealed hmac p key) kHeaderSize ((wire p).length - kHeaderSize) =
          p.payload := by
        rw [wire_length, Nat.add_sub_cancel_left, sealed, read_payload]
      have kind : byteAt (sealed hmac p key) 5 = p.kind := read_kind p _
      rw [sequence, round, payload, kind]
      have checks := accepted_iff.mp accepted
      simp only [not_or] at checks
      rw [if_neg (not_or.mpr ⟨checks.1, checks.2.2.1⟩), if_neg checks.2.2.2]
    · simp [sealed]
  · have known := accepted.payload.known
    simp only [not_or]
    refine ⟨?_, ?_, ?_, ?_, ?_, ?_, ?_, ?_, ?_⟩
    · simp [isMagic, sealed, wire_fields]
    · rw [size, kHeaderSize, kTagSize]
      omega
    · rw [size, kControlMax]
      omega
    · rw [sealed, read_version]
      exact not_not.mpr rfl
    · rw [sealed, read_kind, known]
      exact Bool.true_eq_false.mp
    · rw [count, size, kHeaderSize, kTagSize]
      exact not_not.mpr rfl
    · rintro ⟨probe, wrong⟩
      rw [size, accepted.payload.length_probe probe] at wrong
      exact wrong rfl
    · rw [accepted.generation]
      exact Bool.false_ne_true
    · rw [sealed, read_generation]
      exact not_not.mpr rfl

/-- What follows an octet. -/
theorem drop_eq_byteAt_cons {b : Bytes} {i : Nat} (inside : i < b.length) :
    b.drop i = byteAt b i :: b.drop (i + 1) := by
  rw [byteAt_eq inside, List.drop_eq_getElem_cons inside]

/-- A long string of octets, cut where the fields of a header end. -/
theorem cut_header (long : kHeaderSize + kTagSize ≤ data.length) (starts : data.take 4 = magic) :
    data = magic ++ (byteAt data 4 :: byteAt data 5 :: (slice data 6 2 ++ (slice data 8 16 ++
      (slice data 24 16 ++ (slice data 40 4 ++
        (slice data kHeaderSize (data.length - kTagSize - kHeaderSize) ++
          data.drop (data.length - kTagSize))))))) := by
  simp only [kHeaderSize, kTagSize] at long ⊢
  have last := slice_append_drop data 44 (data.length - 16 - 44)
  rw [show 44 + (data.length - 16 - 44) = data.length - 16 by omega] at last
  rw [last, slice_append_drop data 40 4, slice_append_drop data 24 16, slice_append_drop data 8 16,
    slice_append_drop data 6 2, ← drop_eq_byteAt_cons (i := 5) (by omega),
    ← drop_eq_byteAt_cons (i := 4) (by omega), ← starts, List.take_append_drop]

/-- The packet that `decode` reads. -/
def packetOf (data : Bytes) (generation : Id) : Packet where
  kind := byteAt data 5
  generation := generation
  round := .read data 24 16
  sequence := BitVec.ofNat 32 (get (slice data 40 4))
  payload := slice data kHeaderSize (data.length - kTagSize - kHeaderSize)

theorem wire_packetOf (long : kHeaderSize + kTagSize ≤ data.length) (starts : data.take 4 = magic)
    (version : byteAt data 4 = 1) (count : data.length = kHeaderSize + get (slice data 6 2) + kTagSize)
    (same : generation.octets = slice data 8 16) :
    data = wire (packetOf data generation) ++ data.drop (data.length - kTagSize) := by
  have cut := cut_header long starts
  simp only [kHeaderSize, kTagSize] at long count
  have length : (packetOf data generation).payload.length = get (slice data 6 2) := by
    have size : (packetOf data generation).payload.length =
        min (data.length - kTagSize - kHeaderSize) (data.length - kHeaderSize) := by
      simp [packetOf, slice]
    simp only [kHeaderSize, kTagSize] at size
    omega
  have lengthOctets : put (get (slice data 6 2)) 2 = slice data 6 2 := by
    have two : (slice data 6 2).length = 2 := by
      simp [slice]
      omega
    exact put_get two
  have sequenceOctets : put (packetOf data generation).sequence.toNat 4 = slice data 40 4 := by
    have four : (slice data 40 4).length = 4 := by
      simp [slice]
      omega
    have bound := get_lt (slice data 40 4)
    rw [four] at bound
    have number : (packetOf data generation).sequence.toNat = get (slice data 40 4) := by
      simp only [packetOf, BitVec.toNat_ofNat]
      exact Nat.mod_eq_of_lt bound
    rw [number]
    exact put_get four
  have round : (packetOf data generation).round.octets = slice data 24 16 :=
    Block.read_octets (by omega)
  rw [wire_fields, length, lengthOctets, sequenceOctets, round]
  simpa only [packetOf, same, version] using cut

/-- Only the wire form of an accepted packet is accepted. -/
theorem sealed_of_decode (decoded : decode parse hmac data key domain generation = some p) :
    Accepted parse p ∧ domain = domainOf p.kind ∧ p.generation = generation ∧
      data = sealed hmac p key := by
  simp only [decode, Option.ite_none_left_eq_some, Option.some.injEq] at decoded
  obtain ⟨header, tagged, checks, good, read⟩ := decoded
  have read : packetOf data generation = p := read
  simp only [not_or, Bool.not_eq_false, Bool.not_eq_true, not_lt, ne_eq, not_not] at header tagged
  obtain ⟨starts, long, _, version, is_known, count, _, nonzero, same⟩ := header
  simp only [isMagic, Bool.and_eq_true, decide_eq_true_eq] at starts
  have domains : domain = domainOf p.kind := by
    rw [← read]
    exact known_domainOf is_known
  have whole := wire_packetOf long starts.2 version count same
  have head : data.take (data.length - kTagSize) = wire p := by
    have size : data.length - kTagSize = (wire p).length := by
      rw [wire_length, ← read]
      simp only [kHeaderSize, kTagSize] at long
      simp [packetOf, slice, kHeaderSize, kTagSize]
      omega
    rw [read] at whole
    rw [size] at whole ⊢
    rw [whole, List.take_left']
    rfl
  refine ⟨accepted_iff.mpr ?_, domains, read ▸ rfl, ?_⟩
  · rw [← domains, ← read]
    rw [not_or] at checks
    refine not_or.mpr ⟨checks.1, not_or.mpr ⟨?_, not_or.mpr ⟨checks.2, good⟩⟩⟩
    simp [packetOf, nonzero]
  · rw [sealed, ← head, tagged, List.take_append_drop]

theorem decode_eq_some_iff : decode parse hmac data key domain generation = some p ↔
    Accepted parse p ∧ domain = domainOf p.kind ∧ p.generation = generation ∧
      data = sealed hmac p key := by
  constructor
  · exact sealed_of_decode
  · rintro ⟨accepted, rfl, rfl, rfl⟩
    exact decode_sealed accepted

theorem encode_ne_nil_iff : encode parse hmac p key ≠ [] ↔ Accepted parse p := by
  constructor
  · intro sent
    by_contra refused
    exact sent (encode_of_not_accepted refused)
  · intro accepted
    rw [encode_of_accepted accepted, ← List.length_pos_iff, sealed_length, kHeaderSize]
    omega

/-- The field schema of a kind, or the form of a probe. -/
def Fits (parse : JsonParser) (kind : Kind) (payload : Bytes) : Prop :=
  match domainOf kind with
  | .control => ∃ events j, parse payload = some (events, j) ∧ schema kind j = true
  | .probe => ∃ probe : Probe, probe.socket ≠ 0 ∧ payload = probePayload probe

theorem parseProbe_eq_some_iff {b : Bytes} {probe : Probe} :
    parseProbe b = some probe ↔ probe.socket ≠ 0 ∧ b = probePayload probe := by
  constructor
  · intro parsed
    simp only [parseProbe, Option.ite_none_left_eq_some, ne_eq, Option.ite_none_right_eq_some,
      Option.some.injEq] at parsed
    obtain ⟨length, nonzero, rfl⟩ := parsed
    have eight : (slice b 0 8).length = 8 := by
      simp [slice]
      omega
    have bound := get_lt (slice b 0 8)
    rw [eight] at bound
    refine ⟨nonzero, ?_⟩
    have socket : (BitVec.ofNat 64 (get (slice b 0 8))).toNat = get (slice b 0 8) := by
      rw [BitVec.toNat_ofNat]
      exact Nat.mod_eq_of_lt bound
    have nonce : slice b 8 12 = b.drop 8 := by
      simp only [slice]
      exact List.take_of_length_le (by simp; omega)
    rw [probePayload, if_neg nonzero]
    simp only
    rw [socket, put_get eight, Block.read_octets (by omega), nonce]
    exact (slice_append_drop b 0 8).symm
  · rintro ⟨nonzero, rfl⟩
    have octets : probePayload probe = put probe.socket.toNat 8 ++ (probe.nonce.octets ++ []) := by
      rw [probePayload, if_neg nonzero, List.append_nil]
    have length : (probePayload probe).length = 20 := by
      simp [octets, probe.nonce.size]
    have socket : slice (probePayload probe) 0 8 = put probe.socket.toNat 8 := by
      rw [octets]
      exact slice_middle (a := []) rfl (put_length _ _)
    have nonce : Block.read (probePayload probe) 8 12 = probe.nonce := by
      apply Block.octets_inj
      rw [Block.read_octets (by omega), octets]
      exact slice_middle (put_length _ _) probe.nonce.size
    have number : BitVec.ofNat 64 (get (put probe.socket.toNat 8)) = probe.socket := by
      rw [get_put (by have := probe.socket.isLt; omega)]
      simp
    simp only [parseProbe, length, socket, nonce, number]
    exact if_pos nonzero

theorem Payload.fits {kind : Kind} {payload : Bytes} (good : Payload parse kind payload) :
    Fits parse kind payload := by
  unfold Payload at good
  unfold Fits
  cases domain : domainOf kind with
  | control =>
    rw [domain] at good
    obtain ⟨j, parsed⟩ := good
    simp only [parseControl, Option.ite_none_left_eq_some] at parsed
    obtain ⟨_, parsed⟩ := parsed
    split at parsed
    · cases parsed
    · rename_i events value found
      simp only [Option.ite_none_right_eq_some, Bool.and_eq_true, Option.some.injEq] at parsed
      exact ⟨events, value, found, parsed.1.2⟩
  | probe =>
    rw [domain] at good
    obtain ⟨probe, parsed⟩ := good
    exact ⟨probe, parseProbe_eq_some_iff.mp parsed⟩

/-- The kind and the generation stand in the wire form, whatever its key. -/
theorem sealed_header {q : Packet} {key' : Key} (same : sealed hmac p key = sealed hmac q key') :
    p.kind = q.kind ∧ p.generation = q.generation := by
  constructor
  · rw [← read_kind p, ← read_kind q]
    exact congrArg (byteAt · 5) same
  · apply Block.octets_inj
    rw [← read_generation p, ← read_generation q]
    exact congrArg (slice · 8 16) same

end Codec

/-- Packets and their wire forms under one key. -/
structure WireForms (parse : JsonParser) (hmac : Key → Bytes → Block 32) (key : Key) : Prop where
  decodes : ∀ p, encode parse hmac p key ≠ [] →
    decode parse hmac (encode parse hmac p key) key (domainOf p.kind) p.generation = some p
  encodes : ∀ data domain generation p, decode parse hmac data key domain generation = some p →
    encode parse hmac p key = data ∧ known p.kind domain = true ∧ p.generation = generation ∧
      Fits parse p.kind p.payload
  bijective : Set.BijOn (encode parse hmac · key) {p | encode parse hmac p key ≠ []}
    {data | ∃ domain generation p, decode parse hmac data key domain generation = some p}
  refused : ∀ p, encode parse hmac p key = [] ↔
    ∀ data domain generation, decode parse hmac data key domain generation ≠ some p
  separate : ∀ p, encode parse hmac p key ≠ [] → ∀ key' domain generation,
    domain ≠ domainOf p.kind ∨ generation ≠ p.generation →
      decode parse hmac (encode parse hmac p key) key' domain generation = none

/-- For every JSON parser, every HMAC and every key. -/
theorem wire_forms (parse : JsonParser) (hmac : Key → Bytes → Block 32) (key : Key) :
    WireForms parse hmac key := by
  have decodes : ∀ p, encode parse hmac p key ≠ [] →
      decode parse hmac (encode parse hmac p key) key (domainOf p.kind) p.generation = some p := by
    intro p sent
    have accepted := encode_ne_nil_iff.mp sent
    rw [encode_of_accepted accepted]
    exact decode_sealed accepted
  have encodes : ∀ data domain generation p, decode parse hmac data key domain generation = some p →
      encode parse hmac p key = data := by
    intro data domain generation p decoded
    obtain ⟨accepted, _, _, rfl⟩ := sealed_of_decode decoded
    exact encode_of_accepted accepted
  refine ⟨decodes, ?_, ⟨?_, ?_, ?_⟩, ?_, ?_⟩
  · intro data domain generation p decoded
    obtain ⟨accepted, rfl, same, _⟩ := sealed_of_decode decoded
    exact ⟨encodes data _ generation p decoded, accepted.payload.known, same, accepted.payload.fits⟩
  · intro p sent
    exact ⟨domainOf p.kind, p.generation, p, decodes p sent⟩
  · intro p sent q sentToo same
    have accepted := encode_ne_nil_iff.mp sent
    have acceptedToo := encode_ne_nil_iff.mp sentToo
    have equal : sealed hmac p key = sealed hmac q key := by
      rw [← encode_of_accepted accepted, ← encode_of_accepted acceptedToo]
      exact same
    obtain ⟨kind, generation⟩ := sealed_header equal
    have first : decode parse hmac (sealed hmac p key) key (domainOf p.kind) p.generation = some p :=
        decode_sealed accepted
    rw [equal, kind, generation, decode_sealed acceptedToo] at first
    exact (Option.some.inj first).symm
  · rintro data ⟨domain, generation, p, decoded⟩
    exact ⟨p, encode_ne_nil_iff.mpr (sealed_of_decode decoded).1, encodes data domain generation p decoded⟩
  · intro p
    constructor
    · intro empty data domain generation decoded
      exact encode_ne_nil_iff.mpr (sealed_of_decode decoded).1 empty
    · intro never
      by_contra sent
      exact never _ _ _ (decodes p sent)
  · intro p sent key' domain generation other
    have accepted := encode_ne_nil_iff.mp sent
    cases decoded : decode parse hmac (encode parse hmac p key) key' domain generation with
    | none => rfl
    | some q =>
      obtain ⟨_, rfl, rfl, same⟩ := sealed_of_decode decoded
      rw [encode_of_accepted accepted] at same
      obtain ⟨kind, generation⟩ := sealed_header same
      rcases other with domains | generations
      · exact absurd (by rw [kind]) domains
      · exact absurd generation.symm generations

end MiniRtc.Ice.Punch
