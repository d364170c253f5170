import MiniRtc.Ice.CandidateSignal

/-! What a direct peer accepts as a candidate and as an SDP (direct_ice_policy.h). A character
stands for a byte. How addresses are read and written is a parameter. -/
namespace MiniRtc.Ice

open Text

structure DirectAddresses (α : Type) where
  parseDirectAddress : (text : Text) → (requireScope : Bool) → Option α
  isV4 : α → Bool
  withoutScope : α → α
  directAddressString : α → Text

/-- The address of a candidate does not have the scope of the pinned one. -/
def DirectAddresses.expected {α : Type} (addresses : DirectAddresses α) (pinned : α) : α :=
  if addresses.isV4 pinned then pinned else addresses.withoutScope pinned

/-- The fields of a candidate, as a stream reads them. -/
structure CandidateFields where
  foundation : Text
  component : BitVec 64
  transport : Text
  priority : BitVec 64
  ip : Text
  port : BitVec 64
  typ : Text
  kind : Text
deriving DecidableEq

def readCandidate (s : Text) : Option (CandidateFields × Text) := do
  let (foundation, s) ← word s
  let (component, s) ← unsigned 64 s
  let (transport, s) ← word s
  let (priority, s) ← unsigned 64 s
  let (ip, s) ← word s
  let (port, s) ← unsigned 64 s
  let (typ, s) ← word s
  let (kind, s) ← word s
  some (⟨foundation, component, transport, priority, ip, port, typ, kind⟩, s)

def stripAttribute (foundation : Text) : Text :=
  if "a=".toList.isPrefixOf foundation then foundation.drop 2 else foundation

/-- One end of a line is cut off. -/
def stripLineEnd (candidate : Text) : Text :=
  if "\r\n".toList.isSuffixOf candidate then candidate.take (candidate.length - 2) else candidate

/-- The fields are those of a host candidate over UDP. -/
structure CandidateFields.Host (f : CandidateFields) : Prop where
  prefixed : "candidate:".toList <+: stripAttribute f.foundation
  foundation : 10 < (stripAttribute f.foundation).length ∧ (stripAttribute f.foundation).length ≤ 42
  component : f.component = 1
  transport : f.transport = "UDP".toList ∨ f.transport = "udp".toList
  priority : f.priority.toNat < 2 ^ 32
  port : f.port ≠ 0 ∧ f.port.toNat ≤ 65535
  typ : f.typ = "typ".toList
  kind : f.kind = "host".toList

instance (f : CandidateFields) : Decidable f.Host :=
  decidable_of_iff
    (("candidate:".toList <+: stripAttribute f.foundation) ∧
      (10 < (stripAttribute f.foundation).length ∧
        (stripAttribute f.foundation).length ≤ 42) ∧
      f.component = 1 ∧ (f.transport = "UDP".toList ∨ f.transport = "udp".toList) ∧
      f.priority.toNat < 2 ^ 32 ∧ (f.port ≠ 0 ∧ f.port.toNat ≤ 65535) ∧
      f.typ = "typ".toList ∧ f.kind = "host".toList)
    ⟨fun ⟨a, b, c, d, e, f, g, h⟩ => ⟨a, b, c, d, e, f, g, h⟩,
      fun ⟨a, b, c, d, e, f, g, h⟩ => ⟨a, b, c, d, e, f, g, h⟩⟩

section Normalize

variable {α : Type} [DecidableEq α] (addresses : DirectAddresses α) (address : Text)

/-- The pinned address, if that is what the field says. -/
def pinnedAddress (ip : Text) : Option α := do
  let candidateAddress ← addresses.parseDirectAddress ip false
  let pinned ← addresses.parseDirectAddress address true
  if '%' ∈ ip ∨ addresses.isV4 candidateAddress ≠ addresses.isV4 pinned then none
  else if candidateAddress ≠ addresses.expected pinned then none
  else some (addresses.expected pinned)

def normalCandidate (f : CandidateFields) (ip : Text) : Text :=
  stripAttribute f.foundation ++ " 1 UDP ".toList ++ ofNat f.priority.toNat ++ " ".toList ++ ip ++
    " ".toList ++ ofNat f.port.toNat ++ " typ host".toList

def normalizeDirectCandidate (candidate : Text) : Option Text :=
  if candidate = [] ∨ 2048 < candidate.length then none
  else
    let candidate := stripLineEnd candidate
    if '\r' ∈ candidate ∨ '\n' ∈ candidate ∨ '\x00' ∈ candidate then none
    else do
      let (fields, rest) ← readCandidate candidate
      if ¬ fields.Host then none
      else
        let expected ← pinnedAddress addresses address fields.ip
        if (word rest).isSome then none
        else some (normalCandidate fields (addresses.directAddressString expected))

/-- A UDP host candidate of the first component at the pinned address, without extensions. -/
def HostCandidate (candidate : Text) : Prop :=
  ∃ fields rest, readCandidate (stripLineEnd candidate) = some (fields, rest) ∧ fields.Host ∧
    (∃ pinned, addresses.parseDirectAddress address true = some pinned ∧
      addresses.parseDirectAddress fields.ip false = some (addresses.expected pinned)) ∧
    word rest = none

theorem pinnedAddress_eq {addresses : DirectAddresses α} {address ip : Text} {expected : α}
    (pinned : pinnedAddress addresses address ip = some expected) :
    ∃ pinned, addresses.parseDirectAddress address true = some pinned ∧
      addresses.parseDirectAddress ip false = some (addresses.expected pinned) := by
  simp only [pinnedAddress, Option.bind_eq_bind, Option.bind_eq_some_iff] at pinned
  obtain ⟨candidateAddress, parsed, pinned, parsed', same⟩ := pinned
  refine ⟨pinned, parsed', ?_⟩
  split at same
  · cases same
  split at same
  · cases same
  · rename_i equal
    rw [parsed, not_not.mp equal]

theorem hostCandidate_of_normalize {addresses : DirectAddresses α} {address candidate normal : Text}
    (normalized : normalizeDirectCandidate addresses address candidate = some normal) :
    HostCandidate addresses address candidate := by
  unfold normalizeDirectCandidate at normalized
  split at normalized
  · cases normalized
  simp only at normalized
  split at normalized
  · cases normalized
  simp only [Option.bind_eq_bind, Option.bind_eq_some_iff] at normalized
  obtain ⟨⟨fields, rest⟩, read, checked⟩ := normalized
  simp only at checked
  split at checked
  · cases checked
  rename_i host
  obtain ⟨expected, pinned, ended⟩ := Option.bind_eq_some_iff.mp checked
  split at ended
  · cases ended
  rename_i bare
  exact ⟨fields, rest, read, not_not.mp host, pinnedAddress_eq pinned, by simpa using bare⟩

/-! The lines of an SDP, each without its end. -/

def scanCandidate (candidates : Finset Text) (line : Text) : Option (Finset Text) :=
  if "a=candidate:".toList.isPrefixOf line then
    (normalizeDirectCandidate addresses address line).bind fun candidate =>
      if 128 < (insert candidate candidates).card then none else some (insert candidate candidates)
  else some candidates

def scanUfrag (iceUfrag line : Text) : Option Text :=
  if "a=ice-ufrag:".toList.isPrefixOf line then
    let value := line.drop 12
    if value = [] ∨ 256 < value.length ∨ value.any isIceWhitespace ∨
        iceUfrag ≠ [] ∧ value ≠ iceUfrag then none
    else some value
  else some iceUfrag

def scanLines : Finset Text → Text → List Text → Option (Finset Text × Text)
  | candidates, iceUfrag, [] => some (candidates, iceUfrag)
  | candidates, iceUfrag, line :: rest =>
    (scanCandidate addresses address candidates line).bind fun candidates =>
      (scanUfrag iceUfrag line).bind fun iceUfrag => scanLines candidates iceUfrag rest

/-- The fragment of a valid SDP, and the candidates with those of the SDP. -/
def validateDirectSdp (sdp : Text) (candidates : Finset Text) : Option Text × Finset Text :=
  if sdp = [] ∨ 128 * 1024 < sdp.length ∨ '\x00' ∈ sdp then (none, candidates)
  else
    match scanLines addresses address candidates [] ((lines sdp).map chomp) with
    | none => (none, candidates)
    | some (candidates, iceUfrag) => (if iceUfrag = [] then none else some iceUfrag, candidates)

def candidateLines (sdp : Text) : List Text :=
  ((lines sdp).map chomp).filter ("a=candidate:".toList.isPrefixOf ·)

def ufragLines (sdp : Text) : List Text :=
  ((lines sdp).map chomp).filter ("a=ice-ufrag:".toList.isPrefixOf ·)

variable {addresses : DirectAddresses α} {address : Text}

theorem scanCandidate_spec {candidates candidates' : Finset Text} {line : Text}
    (scanned : scanCandidate addresses address candidates line = some candidates') :
    candidates ⊆ candidates' ∧
      if "a=candidate:".toList.isPrefixOf line then
        (∃ normal ∈ candidates', normalizeDirectCandidate addresses address line = some normal) ∧
          candidates'.card ≤ 128
      else candidates' = candidates := by
  unfold scanCandidate at scanned
  split at scanned
  · rename_i candidate
    obtain ⟨normal, normalized, few⟩ := Option.bind_eq_some_iff.mp scanned
    split at few
    · cases few
    rename_i fits
    cases few
    rw [if_pos candidate]
    exact ⟨Finset.subset_insert _ _, ⟨normal, Finset.mem_insert_self _ _, normalized⟩,
      Nat.le_of_not_lt fits⟩
  · rename_i other
    cases scanned
    rw [if_neg other]
    exact ⟨Finset.Subset.refl _, rfl⟩

theorem scanUfrag_spec {iceUfrag iceUfrag' line : Text}
    (scanned : scanUfrag iceUfrag line = some iceUfrag') :
    (iceUfrag ≠ [] → iceUfrag' = iceUfrag) ∧
      if "a=ice-ufrag:".toList.isPrefixOf line then iceUfrag' = line.drop 12 ∧ iceUfrag' ≠ []
      else iceUfrag' = iceUfrag := by
  unfold scanUfrag at scanned
  split at scanned
  · rename_i fragment
    simp only at scanned
    split at scanned
    · cases scanned
    rename_i fits
    cases scanned
    simp only [not_or, not_and, not_not] at fits
    rw [if_pos fragment]
    exact ⟨fits.2.2.2, rfl, fits.1⟩
  · rename_i other
    cases scanned
    rw [if_neg other]
    exact ⟨fun _ => rfl, rfl⟩

/-- What the scan of an SDP has checked when it comes to the end. -/
structure Scanned (addresses : DirectAddresses α) (address : Text) (candidates : Finset Text)
    (iceUfrag : Text) (ls : List Text) (candidates' : Finset Text) (iceUfrag' : Text) : Prop where
  grown : candidates ⊆ candidates'
  normal : ∀ line ∈ ls.filter ("a=candidate:".toList.isPrefixOf ·), ∃ normal ∈ candidates',
    normalizeDirectCandidate addresses address line = some normal
  few : ls.filter ("a=candidate:".toList.isPrefixOf ·) ≠ [] → candidates'.card ≤ 128
  bare : ls.filter ("a=candidate:".toList.isPrefixOf ·) = [] → candidates' = candidates
  kept : iceUfrag ≠ [] → iceUfrag' = iceUfrag
  same : ∀ line ∈ ls.filter ("a=ice-ufrag:".toList.isPrefixOf ·), line.drop 12 = iceUfrag'
  found : ls.filter ("a=ice-ufrag:".toList.isPrefixOf ·) = [] → iceUfrag' = iceUfrag

theorem scanLines_spec {candidates candidates' : Finset Text} {iceUfrag iceUfrag' : Text}
    {ls : List Text}
    (scanned : scanLines addresses address candidates iceUfrag ls = some (candidates', iceUfrag')) :
    Scanned addresses address candidates iceUfrag ls candidates' iceUfrag' := by
  induction ls generalizing candidates iceUfrag with
  | nil =>
    cases scanned
    exact ⟨Finset.Subset.refl _, by simp, fun some => absurd rfl some, fun _ => rfl,
      fun _ => rfl, by simp, fun _ => rfl⟩
  | cons line rest ih =>
    simp only [scanLines, Option.bind_eq_some_iff] at scanned
    obtain ⟨middle, one, fragment, other, scanned⟩ := scanned
    obtain ⟨grown, candidate⟩ := scanCandidate_spec one
    obtain ⟨kept, ufrag⟩ := scanUfrag_spec other
    have later := ih scanned
    constructor
    · exact grown.trans later.grown
    · intro l mem
      rw [List.filter_cons] at mem
      split at mem
      · rename_i here
        rw [if_pos here] at candidate
        obtain rfl | mem := List.mem_cons.mp mem
        · obtain ⟨normal, member, normalized⟩ := candidate.1
          exact ⟨normal, later.grown member, normalized⟩
        · exact later.normal l mem
      · exact later.normal l mem
    · intro some
      by_cases more : rest.filter ("a=candidate:".toList.isPrefixOf ·) = []
      · rw [later.bare more]
        split at candidate
        · exact candidate.2
        · rename_i absent
          rw [List.filter_cons_of_neg (by simpa using absent)] at some
          exact absurd more some
      · exact later.few more
    · intro none
      rw [List.filter_cons] at none
      split at none
      · cases none
      · rename_i absent
        rw [if_neg absent] at candidate
        rw [later.bare none, candidate]
    · intro given
      have first := kept given
      rw [later.kept (by rwa [first]), first]
    · intro l mem
      rw [List.filter_cons] at mem
      split at mem
      · rename_i here
        rw [if_pos here] at ufrag
        obtain rfl | mem := List.mem_cons.mp mem
        · rw [later.kept ufrag.2, ufrag.1]
        · exact later.same l mem
      · exact later.same l mem
    · intro none
      rw [List.filter_cons] at none
      split at none
      · cases none
      · rename_i absent
        rw [if_neg absent] at ufrag
        rw [later.found none, ufrag]

/-- The candidates grow even if the SDP is not valid; if it is, its lines are those of one
fragment, and of candidates in the set. -/
theorem validateDirectSdp_spec (addresses : DirectAddresses α) (address sdp : Text)
    (candidates : Finset Text) :
    candidates ⊆ (validateDirectSdp addresses address sdp candidates).2 ∧
      ∀ ufrag, (validateDirectSdp addresses address sdp candidates).1 = some ufrag →
        ufrag ≠ [] ∧ ufragLines sdp ≠ [] ∧ (∀ line ∈ ufragLines sdp, line.drop 12 = ufrag) ∧
          (∀ line ∈ candidateLines sdp,
            ∃ normal ∈ (validateDirectSdp addresses address sdp candidates).2,
              normalizeDirectCandidate addresses address line = some normal) ∧
          (candidateLines sdp ≠ [] →
            (validateDirectSdp addresses address sdp candidates).2.card ≤ 128) := by
  unfold validateDirectSdp
  split
  · exact ⟨Finset.Subset.refl _, by simp⟩
  split
  · exact ⟨Finset.Subset.refl _, by simp⟩
  rename_i grown iceUfrag scanned
  have spec := scanLines_spec scanned
  refine ⟨spec.grown, fun ufrag valid => ?_⟩
  simp only at valid
  split at valid
  · cases valid
  rename_i filled
  cases valid
  refine ⟨filled, fun none => filled (spec.found none), spec.same, spec.normal, spec.few⟩

end Normalize

end MiniRtc.Ice
