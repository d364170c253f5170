import MiniRtc.Lib.Text

/-! The signals of a remote peer about its candidates: one candidate line, or the marker that no
more will come. -/
namespace MiniRtc.Ice

open Text

/-- The characters of `" \t\r\n"`. -/
def isIceWhitespace (c : Char) : Bool := c = ' ' || c = '\t' || c = '\r' || c = '\n'

def trimIceWhitespace (value : Text) : Text :=
  (value.dropWhile isIceWhitespace).rdropWhile isIceWhitespace

def getIceUsername (sdp : Text) : Text :=
  match (lines sdp).find? ("a=ice-ufrag:".toList.isPrefixOf ·) with
  | none => []
  | some line => trimIceWhitespace (line.drop "a=ice-ufrag:".length)

structure IceCandidateSignal where
  sdp : Text
  ufrag : Text
deriving DecidableEq, Repr

def IceCandidateSignal.complete (signal : IceCandidateSignal) : Bool := signal.sdp.isEmpty

/-- The pairs of extensions after the eight fields of a candidate. -/
def extensions : List Text → IceCandidateSignal → Option IceCandidateSignal
  | [], signal => some signal
  | [_], _ => none
  | token :: value :: rest, signal =>
    if token = "ufrag".toList then
      if 256 < value.length ∨ signal.ufrag ≠ [] ∧ signal.ufrag ≠ value then none
      else extensions rest { signal with ufrag := value }
    else extensions rest signal

/-- The fields of a candidate line without its `a=`. -/
def parseCandidate (sdp ufrag : Text) : Option IceCandidateSignal :=
  if "candidate:".toList.isPrefixOf sdp = false then none
  else if (fields sdp).length < 8 then none
  else extensions ((fields sdp).drop 8) ⟨"a=".toList ++ sdp, ufrag⟩

def parseIceCandidateSignal (candidateSdp ufrag : Text) : Option IceCandidateSignal :=
  if 4096 < candidateSdp.length ∨ 256 < ufrag.length ∨ '\x00' ∈ candidateSdp ∨ '\x00' ∈ ufrag ∨
      ufrag.any isIceWhitespace then none
  else
    let sdp := trimIceWhitespace candidateSdp
    if sdp = [] ∨ sdp = "a=end-of-candidates".toList ∨ sdp = "end-of-candidates".toList then
      some ⟨[], ufrag⟩
    else if '\r' ∈ sdp ∨ '\n' ∈ sdp then none
    else parseCandidate (if "a=".toList.isPrefixOf sdp then sdp.drop 2 else sdp) ufrag

section Again

variable {sdp ufrag : Text} {signal : IceCandidateSignal}

theorem extensions_sdp {rest : List Text} {first : IceCandidateSignal}
    (parsed : extensions rest first = some signal) : signal.sdp = first.sdp := by
  fun_induction extensions rest first with
  | case1 => cases parsed; rfl
  | case2 => cases parsed
  | case3 => cases parsed
  | case4 => rename_i ih; exact ih parsed
  | case5 => rename_i ih; exact ih parsed

/-- The fragment is the one that came with the line, or a value of the line. -/
theorem extensions_ufrag {rest : List Text} {first : IceCandidateSignal}
    (parsed : extensions rest first = some signal) :
    signal.ufrag = first.ufrag ∨ signal.ufrag ∈ rest ∧ signal.ufrag.length ≤ 256 := by
  fun_induction extensions rest first with
  | case1 => cases parsed; exact .inl rfl
  | case2 => cases parsed
  | case3 => cases parsed
  | case4 value rest first fits ih =>
    obtain same | ⟨mem, short⟩ := ih parsed
    · refine .inr ⟨?_, ?_⟩
      · simp [same]
      · rw [same]
        simp only [not_or] at fits
        exact Nat.le_of_not_lt fits.1
    · exact .inr ⟨by simp [mem], short⟩
  | case5 token value rest first other ih =>
    obtain same | ⟨mem, short⟩ := ih parsed
    · exact .inl same
    · exact .inr ⟨by simp [mem], short⟩

/-- With the fragment that was found, the extensions are read as before. -/
theorem extensions_again {rest : List Text} {first : IceCandidateSignal}
    (filled : ∀ t ∈ rest, t ≠ []) (parsed : extensions rest first = some signal) :
    (first.ufrag ≠ [] → signal.ufrag = first.ufrag) ∧ extensions rest signal = some signal := by
  fun_induction extensions rest first with
  | case1 => cases parsed; exact ⟨fun _ => rfl, rfl⟩
  | case2 => cases parsed
  | case3 => cases parsed
  | case4 value rest first fits ih =>
    obtain ⟨kept, again⟩ := ih (fun t mem => filled t (by simp [mem])) parsed
    have same : signal.ufrag = value := kept (filled value (by simp))
    simp only [not_or, not_and, not_not] at fits
    refine ⟨fun given => same.trans (fits.2 given).symm, ?_⟩
    have long : ¬ (256 < value.length ∨ signal.ufrag ≠ [] ∧ signal.ufrag ≠ value) := by
      rw [same]
      simpa using Nat.le_of_not_lt fits.1
    rw [extensions, if_pos rfl, if_neg long, ← same]
    exact again
  | case5 token value rest first other ih =>
    obtain ⟨kept, again⟩ := ih (fun t mem => filled t (by simp [mem])) parsed
    refine ⟨kept, ?_⟩
    rw [extensions, if_neg other]
    exact again

/-- A signal of a candidate is read from its own line as it is. -/
theorem parseCandidate_again (parsed : parseCandidate sdp ufrag = some signal) :
    signal.sdp = "a=".toList ++ sdp ∧ "candidate:".toList <+: sdp ∧
      parseCandidate sdp signal.ufrag = some signal ∧
      (signal.ufrag = ufrag ∨ signal.ufrag ∈ fields sdp ∧ signal.ufrag.length ≤ 256) := by
  unfold parseCandidate at parsed
  split at parsed
  · cases parsed
  split at parsed
  · cases parsed
  rename_i starts enough
  have line : signal.sdp = "a=".toList ++ sdp := extensions_sdp parsed
  have filled : ∀ t ∈ (fields sdp).drop 8, t ≠ [] :=
    fun t mem => (mem_fields (List.mem_of_mem_drop mem)).1
  refine ⟨line, List.isPrefixOf_iff_prefix.mp (by simpa using starts), ?_, ?_⟩
  · have same : (⟨"a=".toList ++ sdp, signal.ufrag⟩ : IceCandidateSignal) = signal := by
      rw [← line]
    rw [parseCandidate, if_neg starts, if_neg enough, same]
    exact (extensions_again filled parsed).2
  · exact (extensions_ufrag parsed).imp_right fun found => ⟨List.mem_of_mem_drop found.1, found.2⟩

theorem trimIceWhitespace_trimmed {s : Text} (first : ∀ c ∈ s.head?, isIceWhitespace c = false)
    (last : ∀ c ∈ s.getLast?, isIceWhitespace c = false) : trimIceWhitespace s = s := by
  have front : s.dropWhile isIceWhitespace = s := by
    cases s with
    | nil => rfl
    | cons c s => rw [List.dropWhile_cons, if_neg (by simp [first c (by simp)])]
  rw [trimIceWhitespace, front]
  rw [List.rdropWhile_eq_self_iff]
  intro filled
  rw [last _ (List.getLast?_eq_getLast_of_ne_nil filled)]
  exact Bool.false_ne_true

theorem mem_trimIceWhitespace {s : Text} {c : Char} (mem : c ∈ trimIceWhitespace s) : c ∈ s :=
  (List.dropWhile_sublist _).subset ((List.rdropWhile_prefix _ _).subset mem)

/-- What is left after trimming does not end in whitespace. -/
theorem trimIceWhitespace_last {s : Text} {c : Char} (last : c ∈ (trimIceWhitespace s).getLast?) :
    isIceWhitespace c = false := by
  obtain ⟨filled, rfl⟩ := List.mem_getLast?_eq_getLast last
  have kept := List.rdropWhile_last_not isIceWhitespace (s.dropWhile isIceWhitespace) filled
  exact Bool.eq_false_of_not_eq_true kept

theorem isIceWhitespace_of_isSpace {c : Char} (plain : isSpace c = false) :
    isIceWhitespace c = false := by
  simp only [isSpace, isIceWhitespace, Bool.or_eq_false_iff] at plain ⊢
  tauto

/-- The line of a candidate without its `a=`, as it is read. -/
structure CandidateLine (sdp body : Text) : Prop where
  inside : ∀ c ∈ body, c ∈ sdp
  single : '\r' ∉ body ∧ '\n' ∉ body
  last : ∀ c ∈ body.getLast?, isIceWhitespace c = false

theorem candidateLine {trimmed : Text} (trim : trimIceWhitespace sdp = trimmed)
    (single : ¬ ('\r' ∈ trimmed ∨ '\n' ∈ trimmed)) :
    CandidateLine sdp (if "a=".toList.isPrefixOf trimmed then trimmed.drop 2 else trimmed) := by
  obtain ⟨noReturn, noFeed⟩ := not_or.mp single
  subst trim
  split
  · refine ⟨fun c mem => mem_trimIceWhitespace (List.mem_of_mem_drop mem),
      ⟨fun mem => noReturn (List.mem_of_mem_drop mem), fun mem => noFeed (List.mem_of_mem_drop mem)⟩,
      fun c last => ?_⟩
    rw [List.getLast?_drop] at last
    split at last
    · cases last
    · exact trimIceWhitespace_last last
  · exact ⟨fun c mem => mem_trimIceWhitespace mem, ⟨noReturn, noFeed⟩,
      fun c last => trimIceWhitespace_last last⟩

theorem parseIceCandidateSignal_line {body : Text} (starts : "candidate:".toList <+: body)
    (single : '\r' ∉ body ∧ '\n' ∉ body)
    (last : ∀ c ∈ body.getLast?, isIceWhitespace c = false)
    (plain : '\x00' ∉ body) (fragment : ¬ 256 < ufrag.length ∧ '\x00' ∉ ufrag ∧
      ufrag.any isIceWhitespace = false) (short : ¬ 4096 < ("a=".toList ++ body).length) :
    parseIceCandidateSignal ("a=".toList ++ body) ufrag = parseCandidate body ufrag := by
  obtain ⟨rest, rfl⟩ := starts
  have trim : trimIceWhitespace ("a=".toList ++ ("candidate:".toList ++ rest)) =
      "a=".toList ++ ("candidate:".toList ++ rest) := by
    apply trimIceWhitespace_trimmed
    · intro c head
      cases head
      rfl
    · intro c tail
      rw [List.getLast?_append_of_ne_nil _ (by simp)] at tail
      exact last c tail
  obtain ⟨brief, whole, tight⟩ := fragment
  have outside : '\x00' ∉ "a=".toList ++ ("candidate:".toList ++ rest) := by
    intro mem
    obtain prefixed | mem := List.mem_append.mp mem
    · exact absurd prefixed (by decide)
    · exact plain mem
  have line : ¬ ('\r' ∈ "a=".toList ++ ("candidate:".toList ++ rest) ∨
      '\n' ∈ "a=".toList ++ ("candidate:".toList ++ rest)) := by
    rintro (mem | mem) <;> obtain prefixed | mem := List.mem_append.mp mem
    · exact absurd prefixed (by decide)
    · exact single.1 mem
    · exact absurd prefixed (by decide)
    · exact single.2 mem
  have fits : ¬ (4096 < ("a=".toList ++ ("candidate:".toList ++ rest)).length ∨
      256 < ufrag.length ∨ '\x00' ∈ "a=".toList ++ ("candidate:".toList ++ rest) ∨
      '\x00' ∈ ufrag ∨ ufrag.any isIceWhitespace = true) := by
    rw [tight]
    tauto
  rw [parseIceCandidateSignal, if_neg fits]
  simp only [trim]
  rw [if_neg (by simp), if_neg line]
  rfl

/-- A well-formed signal with a line that is not too long is read as itself. -/
theorem parseIceCandidateSignal_again (parsed : parseIceCandidateSignal sdp ufrag = some signal) :
    parseIceCandidateSignal signal.sdp signal.ufrag =
      if 4096 < signal.sdp.length then none else some signal := by
  unfold parseIceCandidateSignal at parsed
  split at parsed
  · cases parsed
  rename_i fits
  simp only [not_or] at fits
  obtain ⟨-, brief, plain, whole, tight⟩ := fits
  have tight : ufrag.any isIceWhitespace = false := Bool.eq_false_of_not_eq_true tight
  simp only at parsed
  split at parsed
  · cases parsed
    simp [parseIceCandidateSignal, brief, whole, tight, trimIceWhitespace]
  split at parsed
  · cases parsed
  rename_i single
  have body := candidateLine rfl single
  generalize (if "a=".toList.isPrefixOf (trimIceWhitespace sdp) = true
    then (trimIceWhitespace sdp).drop 2 else trimIceWhitespace sdp) = line at parsed body
  obtain ⟨same, starts, again, found⟩ := parseCandidate_again parsed
  have plainLine : '\x00' ∉ line := fun mem => plain (body.inside _ mem)
  have fragment : ¬ 256 < signal.ufrag.length ∧ '\x00' ∉ signal.ufrag ∧
      signal.ufrag.any isIceWhitespace = false := by
    obtain same | ⟨mem, short⟩ := found
    · rw [same]
      exact ⟨brief, whole, tight⟩
    · obtain ⟨-, spaceless, within⟩ := mem_fields mem
      refine ⟨Nat.not_lt_of_le short, fun nul => plainLine (within _ nul), ?_⟩
      rw [List.any_eq_false]
      intro c mem
      simp [isIceWhitespace_of_isSpace (spaceless c mem)]
  by_cases long : 4096 < signal.sdp.length
  · rw [if_pos long, parseIceCandidateSignal, if_pos (.inl long)]
  · rw [if_neg long, ← again, same]
    exact parseIceCandidateSignal_line starts body.single body.last plainLine fragment (same ▸ long)

end Again

end MiniRtc.Ice
