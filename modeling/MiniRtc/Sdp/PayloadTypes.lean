import MiniRtc.Sdp.Transport

/-! Which payload type a transport takes from a media line. The three functions of the source
differ in the name of the line and in the fields they use. -/
namespace MiniRtc.Sdp
open Text

inductive Media where
  | video
  | audio
  | data
deriving DecidableEq, Repr

namespace IceTransport

def negotiateVideoPayloadType (t : IceTransport) (sdp : Text) : Bool × IceTransport :=
  let negotiatedVideoPt :=
    negotiatePayloadType sdp "video".toList t.supportVideoPayloadTypes t.negotiatedVideoPt
  (negotiatedVideoPt ≠ PayloadType.undefined, { t with negotiatedVideoPt })

def negotiateAudioPayloadType (t : IceTransport) (sdp : Text) : Bool × IceTransport :=
  let negotiatedAudioPt :=
    negotiatePayloadType sdp "audio".toList t.supportAudioPayloadTypes t.negotiatedAudioPt
  (negotiatedAudioPt ≠ PayloadType.undefined, { t with negotiatedAudioPt })

def negotiateDataPayloadType (t : IceTransport) (sdp : Text) : Bool × IceTransport :=
  let negotiatedDataPt :=
    negotiatePayloadType sdp "data".toList t.supportDataPayloadTypes t.negotiatedDataPt
  (negotiatedDataPt ≠ PayloadType.undefined, { t with negotiatedDataPt })

/-- The function of a kind of media. -/
def negotiate (t : IceTransport) (sdp : Text) : Media → Bool × IceTransport
  | .video => t.negotiateVideoPayloadType sdp
  | .audio => t.negotiateAudioPayloadType sdp
  | .data => t.negotiateDataPayloadType sdp

def supported (t : IceTransport) : Media → List Int
  | .video => t.supportVideoPayloadTypes
  | .audio => t.supportAudioPayloadTypes
  | .data => t.supportDataPayloadTypes

def negotiated (t : IceTransport) : Media → Int
  | .video => t.negotiatedVideoPt
  | .audio => t.negotiatedAudioPt
  | .data => t.negotiatedDataPt

end IceTransport

def Media.tag : Media → Text
  | .video => "video".toList
  | .audio => "audio".toList
  | .data => "data".toList

theorem negotiate_eq (t : IceTransport) (sdp : Text) (media : Media) :
    (t.negotiate sdp media).2.negotiated media =
        negotiatePayloadType sdp media.tag (t.supported media) (t.negotiated media) ∧
      ((t.negotiate sdp media).1 = true ↔
        (t.negotiate sdp media).2.negotiated media ≠ PayloadType.undefined) := by
  cases media with
  | video => exact ⟨rfl, decide_eq_true_iff⟩
  | audio => exact ⟨rfl, decide_eq_true_iff⟩
  | data => exact ⟨rfl, decide_eq_true_iff⟩

/-- The three of them in their order, each only after the one before. -/
theorem negotiatePayloadTypes_eq (t : IceTransport) (sdp : Text) :
    t.negotiatePayloadTypes sdp =
      if (t.negotiateVideoPayloadType sdp).1 then
        if ((t.negotiateVideoPayloadType sdp).2.negotiateAudioPayloadType sdp).1 then
          (((t.negotiateVideoPayloadType sdp).2.negotiateAudioPayloadType sdp).2.negotiateDataPayloadType
            sdp).swap
        else ((t.negotiateVideoPayloadType sdp).2.negotiateAudioPayloadType sdp).swap
      else (t.negotiateVideoPayloadType sdp).swap := by
  simp only [IceTransport.negotiatePayloadTypes, IceTransport.negotiateVideoPayloadType,
    IceTransport.negotiateAudioPayloadType, IceTransport.negotiateDataPayloadType, Prod.swap]
  obtain ⟨video, named⟩ : ∃ video, negotiatePayloadType sdp "video".toList t.supportVideoPayloadTypes
      t.negotiatedVideoPt = video := ⟨_, rfl⟩
  obtain ⟨audio, named'⟩ : ∃ audio, negotiatePayloadType sdp "audio".toList t.supportAudioPayloadTypes
      t.negotiatedAudioPt = audio := ⟨_, rfl⟩
  obtain ⟨data, named''⟩ : ∃ data, negotiatePayloadType sdp "data".toList t.supportDataPayloadTypes
      t.negotiatedDataPt = data := ⟨_, rfl⟩
  simp only [named, named', named'']
  by_cases noVideo : video = PayloadType.undefined
  · simp [noVideo]
  by_cases noAudio : audio = PayloadType.undefined
  · simp [noVideo, noAudio]
  by_cases noData : data = PayloadType.undefined
  · simp [noVideo, noAudio, noData]
  · simp [noVideo, noAudio, noData]

/-! ### What the loop looks at -/

/-- What is before the first space. -/
def firstPiece (s : Text) : Text := s.takeWhile fun c => decide (c ≠ ' ')

section Loop

variable (capabilities : Text) (supported : List Int) (otherwise : Int)

/-- A text that is cut at a space gives its number, or what is before its first space. -/
theorem atoi_take {stop : Nat} (cut : capabilities = capabilities.take stop ++ ' ' :: capabilities.drop (stop + 1)) :
    atoi (capabilities.take stop) = atoi capabilities ∨
      atoi (capabilities.take stop) = atoi (firstPiece capabilities) := by
  by_cases blank : (capabilities.take stop).dropWhile isSpace = []
  · right
    rw [atoi_blank blank, firstPiece, atoi_blank]
    rw [List.dropWhile_eq_nil_iff] at blank ⊢
    intro c member
    apply blank
    rw [cut, List.takeWhile_append] at member
    split at member
    · rw [List.takeWhile_cons, if_neg (by simp), List.append_nil] at member
      exact member
    · exact (List.takeWhile_prefix _).subset member
  · left
    conv => rhs; rw [cut]
    exact (atoi_cut blank (by decide) _).symm

theorem take_first (s : Text) : s.take (firstPiece s).length = firstPiece s :=
  (List.prefix_iff_eq_take.mp (List.takeWhile_prefix _)).symm

theorem findFrom_first {s : Text} (space : ' ' ∈ s) :
    findFrom " ".toList s 0 = some (firstPiece s).length := by
  obtain ⟨l, m, rfl, plain⟩ := List.eq_append_cons_of_mem space
  have first : firstPiece (l ++ ' ' :: m) = l := by
    have all : ∀ c ∈ l, decide (c ≠ ' ') = true := fun c member =>
      decide_eq_true fun same => plain (same ▸ member)
    rw [firstPiece, List.takeWhile_append_of_pos all, List.takeWhile_cons, if_neg (by simp), List.append_nil]
  rw [first, findFrom, List.drop_zero]
  exact congrArg (Option.map (· + 0)) (find_char plain m)

/-- Behind the first number, unless it is supported, the loop only sees that number again, and at
its end the number of the whole text. -/
theorem choosePayloadType_later (first : atoi (firstPiece capabilities) ∉ supported) {turns start : Nat}
    (inside : start ≤ capabilities.length) (enough : capabilities.length < start + turns) :
    choosePayloadType capabilities supported otherwise turns start =
      if atoi capabilities ∈ supported then atoi capabilities else otherwise := by
  induction turns generalizing start with
  | zero => exact absurd enough (Nat.not_lt.mpr inside)
  | succ turns ih =>
    rw [choosePayloadType, if_neg (Nat.not_lt.mpr inside)]
    simp only
    cases found : findFrom " ".toList capabilities start with
    | none => rfl
    | some stop =>
      obtain ⟨cut, later, within⟩ := findFrom_char_some inside found
      simp only
      have seen := atoi_take capabilities cut
      by_cases here : atoi (capabilities.take stop) ∈ supported
      · rw [if_pos here]
        rcases seen with same | same
        · rw [same] at here
          rw [same, if_pos here]
        · rw [same] at here
          exact absurd here first
      · rw [if_neg here]
        exact ih within (by omega)

/-- The loop ends, and gives the number before the first space, or that of the whole text, or
nothing new. -/
theorem choosePayloadType_eq {turns : Nat} (enough : capabilities.length < turns) :
    choosePayloadType capabilities supported otherwise turns 0 =
      if atoi (firstPiece capabilities) ∈ supported then atoi (firstPiece capabilities)
      else if atoi capabilities ∈ supported then atoi capabilities
      else otherwise := by
  by_cases first : atoi (firstPiece capabilities) ∈ supported
  · rw [if_pos first]
    cases turns with
    | zero => exact absurd enough (Nat.not_lt_zero _)
    | succ turns =>
      rw [choosePayloadType, if_neg (Nat.not_lt_zero _)]
      by_cases space : ' ' ∈ capabilities
      · have found := findFrom_first space
        simp only [found, take_first, if_pos first]
      · have found : findFrom " ".toList capabilities 0 = none := by
          rw [findFrom, List.drop_zero]
          exact Option.map_eq_none_iff.mpr (find_char_none space)
        have whole : firstPiece capabilities = capabilities :=
          List.takeWhile_eq_self_iff.mpr fun c member => decide_eq_true fun same => space (same ▸ member)
        rw [whole] at first ⊢
        simp only [found, if_pos first]
  · rw [if_neg first]
    exact choosePayloadType_later capabilities supported otherwise first (Nat.zero_le _) (by omega)

end Loop

/-! ### The text that is looked at -/

/-- A description that lists payload types in the line of a kind of media. -/
structure MediaDescription where
  before : Text
  port : Text
  proto : Text
  types : List Nat
  carriageReturn : Bool
  after : Text
deriving DecidableEq, Repr

namespace MediaDescription

variable (d : MediaDescription) (media : Media)

/-- The payload types, each behind a space. -/
def typesText (types : List Nat) : Text := types.flatMap fun p => ' ' :: ofNat p

def ending : Text := if d.carriageReturn then ['\r'] else []

def text : Text :=
  d.before ++ ("m=".toList ++ media.tag ++ (' ' :: (d.port ++ (' ' :: (d.proto ++
    (typesText d.types ++ (d.ending ++ '\n' :: d.after)))))))

/-- The line is the first that is named so, and a `size_t` counts the text. -/
structure WellFormed : Prop where
  first : find ("m=".toList ++ media.tag) (d.text media) = some d.before.length
  port : ' ' ∉ d.port ∧ '\n' ∉ d.port
  proto : ' ' ∉ d.proto ∧ '\n' ∉ d.proto
  fits : (d.text media).length < 2 ^ 64

/-- What is taken for the list: without a payload type in the line, it is what follows the next
space of a later line. -/
def listed : Text :=
  match d.types with
  | [] => (d.after.dropWhile fun c => decide (c ≠ ' ')).drop 1
  | p :: ps => ofNat p ++ (typesText ps ++ d.ending)

theorem plain_typesText {c : Char} (space : c ≠ ' ') (digit : c.isDigit = false) (types : List Nat) :
    c ∉ typesText types := by
  intro member
  obtain ⟨p, _, inside⟩ := List.mem_flatMap.mp member
  rcases List.mem_cons.mp inside with same | inside
  · exact space same
  · have isDigit := Nat.isDigit_of_mem_toDigits (by decide) (by decide) inside
    rw [digit] at isDigit
    cases isDigit

section Searches

variable {front port proto rest : Text}

theorem findFrom_append (pattern done s : Text) {pos : Nat} (here : pos = done.length) :
    findFrom pattern (done ++ s) pos = (find pattern s).map (· + pos) := by
  rw [here, findFrom, List.drop_left]

/-- The first two spaces behind the name of a line, and where the third is looked for. -/
theorem find_spaces (plain : ' ' ∉ port) :
    findFrom [' '] (front ++ ' ' :: (port ++ ' ' :: (proto ++ rest))) front.length = some front.length ∧
    findFrom [' '] (front ++ ' ' :: (port ++ ' ' :: (proto ++ rest))) (front.length + 1) =
      some (port.length + (front.length + 1)) ∧
    findFrom [' '] (front ++ ' ' :: (port ++ ' ' :: (proto ++ rest))) (port.length + (front.length + 1) + 1) =
      (find [' '] (proto ++ rest)).map (· + (port.length + (front.length + 1) + 1)) := by
  refine ⟨?_, ?_, ?_⟩
  · have here : find [' '] (' ' :: (port ++ ' ' :: (proto ++ rest))) = some 0 := find_here ⟨_, rfl⟩
    rw [findFrom_append [' '] front _ rfl, here]
    exact congrArg some (Nat.zero_add _)
  · have split : front ++ ' ' :: (port ++ ' ' :: (proto ++ rest)) =
        (front ++ [' ']) ++ (port ++ ' ' :: (proto ++ rest)) := by simp
    rw [split, findFrom_append [' '] (front ++ [' ']) _ (by simp), find_char plain]
    rfl
  · have split : front ++ ' ' :: (port ++ ' ' :: (proto ++ rest)) =
        (front ++ (' ' :: port ++ [' '])) ++ (proto ++ rest) := by simp
    rw [split, findFrom_append [' '] (front ++ (' ' :: port ++ [' '])) _ (by simp; omega)]

/-- What is behind a text that was passed by. -/
theorem substr_append (done s : Text) {pos : Nat} (here : pos = done.length) (count : Nat) :
    substr (done ++ s) pos count = s.take count := by
  rw [here, substr, List.drop_left]

end Searches

theorem remoteCapabilities_text (wellFormed : d.WellFormed media) :
    remoteCapabilities (d.text media) media.tag = d.listed := by
  obtain ⟨first, ⟨port, port'⟩, ⟨proto, proto'⟩, fits⟩ := wellFormed
  have ending : ' ' ∉ d.ending ∧ '\n' ∉ d.ending := by
    unfold MediaDescription.ending
    cases d.carriageReturn <;> decide
  rw [remoteCapabilities]
  simp only [first]
  have space : " ".toList = [' '] := rfl
  have newline : "\n".toList = ['\n'] := rfl
  rw [space, newline]
  unfold text at fits ⊢
  clear first
  generalize "m=".toList ++ media.tag = name at *
  rw [← List.append_assoc d.before name] at fits ⊢
  rw [← List.length_append]
  generalize d.before ++ name = front at *
  obtain ⟨one, two, three⟩ :=
    @find_spaces front d.port d.proto (typesText d.types ++ (d.ending ++ '\n' :: d.after)) port
  have line (types : Text) (plain : '\n' ∉ types) :
      findFrom ['\n'] (front ++ ' ' :: (d.port ++ ' ' :: (d.proto ++ (types ++ (d.ending ++ '\n' :: d.after)))))
        front.length = some (d.port.length + d.proto.length + types.length + d.ending.length + 2 + front.length) := by
    have split : ' ' :: (d.port ++ ' ' :: (d.proto ++ (types ++ (d.ending ++ '\n' :: d.after)))) =
        (' ' :: (d.port ++ ' ' :: (d.proto ++ (types ++ d.ending)))) ++ '\n' :: d.after := by simp
    rw [split, findFrom_append ['\n'] front _ rfl, find_char (by simp [port', proto', plain, ending.2]),
      Option.map_some]
    congr 2
    simp only [List.length_cons, List.length_append]
    omega
  rw [one, Option.bind_some, two, Option.bind_some, three,
    line _ (plain_typesText (by decide) (by decide) d.types)]
  unfold listed
  cases types : d.types with
  | nil =>
    have behind : d.proto ++ (typesText [] ++ (d.ending ++ '\n' :: d.after)) =
        (d.proto ++ (d.ending ++ ['\n'])) ++ d.after := by simp [typesText]
    rw [behind]
    by_cases space : ' ' ∈ d.after
    · obtain ⟨u, v, after, plain⟩ := List.eq_append_cons_of_mem space
      have stray : (d.after.dropWhile fun c => decide (c ≠ ' ')).drop 1 = v := by
        have all : ∀ c ∈ u, decide (c ≠ ' ') = true := fun c member =>
          decide_eq_true fun same => plain (same ▸ member)
        rw [after, List.dropWhile_append_of_pos all, List.dropWhile_cons, if_neg (by simp)]
        rfl
      have passed : d.proto ++ (d.ending ++ ['\n']) ++ d.after =
          (d.proto ++ (d.ending ++ '\n' :: u)) ++ ' ' :: v := by simp [after]
      have whole : front ++ ' ' :: (d.port ++ ' ' :: ((d.proto ++ (d.ending ++ '\n' :: u)) ++ ' ' :: v)) =
          (front ++ (' ' :: d.port ++ ' ' :: (d.proto ++ (d.ending ++ '\n' :: u)) ++ [' '])) ++ v := by simp
      rw [passed, find_char (by simp [proto, ending.1, plain]), Option.map_some, stray]
      simp only
      rw [types, behind, passed, whole] at fits
      rw [whole, substr_append _ _ (by simp; omega)]
      simp only [List.length_append, List.length_cons, List.length_nil] at fits
      apply List.take_of_length_le
      rw [sizeSub]
      simp only [typesText, List.flatMap_nil, List.length_append, List.length_cons, List.length_nil]
      split <;> omega
    · have none : find [' '] (d.proto ++ (d.ending ++ ['\n']) ++ d.after) = none :=
        find_char_none (by simp [proto, ending.1, space])
      have passed : d.after.dropWhile (fun c => decide (c ≠ ' ')) = [] := by
        rw [List.dropWhile_eq_nil_iff]
        exact fun c member => decide_eq_true fun same => space (same ▸ member)
      rw [none, passed]
      rfl
  | cons p ps =>
    have behind : d.proto ++ (typesText (p :: ps) ++ (d.ending ++ '\n' :: d.after)) =
        d.proto ++ ' ' :: (ofNat p ++ (typesText ps ++ d.ending) ++ '\n' :: d.after) := by
      simp [typesText]
    have whole : front ++ ' ' :: (d.port ++ ' ' :: (d.proto ++ ' ' ::
          (ofNat p ++ (typesText ps ++ d.ending) ++ '\n' :: d.after))) =
        (front ++ (' ' :: d.port ++ ' ' :: d.proto ++ [' '])) ++
          (ofNat p ++ (typesText ps ++ d.ending) ++ '\n' :: d.after) := by simp
    rw [behind, find_char proto, Option.map_some]
    simp only
    rw [whole, substr_append _ _ (by simp; omega)]
    have length : (typesText (p :: ps)).length = (ofNat p).length + (typesText ps).length + 1 := by
      simp only [typesText, List.flatMap_cons, List.length_append, List.length_cons]
      omega
    have all : sizeSub
          (d.port.length + d.proto.length + (typesText (p :: ps)).length + d.ending.length + 2 + front.length)
          (d.proto.length + (d.port.length + (front.length + 1) + 1) + 1) =
        (ofNat p ++ (typesText ps ++ d.ending)).length := by
      rw [sizeSub, length]
      simp only [List.length_append]
      split <;> omega
    rw [all, List.take_left]

end MediaDescription

/-! ### What is negotiated -/

/-- The first payload type of the list that is supported. -/
def firstSupported (supported : List Int) (types : List Nat) : Option Int :=
  (types.map fun p => (p : Int)).find? fun p => decide (p ∈ supported)

/-- The first supported payload type is taken, and only without one it fails. -/
def Selects (supported : List Int) (types : List Nat) (succeeded : Bool) (negotiated : Int) : Prop :=
  (succeeded = true ↔ ∃ p ∈ types, (p : Int) ∈ supported) ∧
    ∀ p ∈ firstSupported supported types, negotiated = p

/-- The first of the listed payload types is supported, or what was negotiated before is what
should be taken now, and that is not the number for none. Where the line lists nothing, the text that
is read in its place does not start with a supported number. -/
def Selectable (supported : List Int) (before : Int) (d : MediaDescription) : Prop :=
  match d.types with
  | p :: _ =>
    ((p : Int) ∈ supported ∨ before = (firstSupported supported d.types).getD PayloadType.undefined) ∧
      firstSupported supported d.types ≠ some PayloadType.undefined
  | [] =>
    if atoi (firstPiece d.listed) ∈ supported then atoi (firstPiece d.listed) = PayloadType.undefined
    else if atoi d.listed ∈ supported then atoi d.listed = PayloadType.undefined
    else before = PayloadType.undefined

theorem firstSupported_isSome (supported : List Int) (types : List Nat) :
    (∃ p ∈ types, (p : Int) ∈ supported) ↔ (firstSupported supported types).isSome := by
  simp [firstSupported]

/-- All that the loop reads of a list is its first number. -/
theorem MediaDescription.listed_number (d : MediaDescription) {p : Nat} {ps : List Nat}
    (types : d.types = p :: ps) : atoi d.listed = p ∧ atoi (firstPiece d.listed) = p := by
  have ending : d.ending = [] ∨ d.ending = ['\r'] := by
    unfold ending
    cases d.carriageReturn
    · exact Or.inl rfl
    · exact Or.inr rfl
  have plain : ∀ c ∈ ofNat p, decide (c ≠ ' ') = true := by
    intro c member
    have digit := Nat.isDigit_of_mem_toDigits (by decide) (by decide) member
    refine decide_eq_true fun same => ?_
    rw [same] at digit
    exact absurd digit (by decide)
  have list : d.listed = ofNat p ++ (typesText ps ++ d.ending) := by
    rw [listed, types]
  rw [list, firstPiece, List.takeWhile_append_of_pos plain]
  cases ps with
  | nil =>
    rcases ending with none | carriage
    · rw [none]
      exact ⟨atoi_ofNat_append p nofun, atoi_ofNat_append p nofun⟩
    · rw [carriage]
      have stop : ∀ c ∈ ['\r'].head?, c.isDigit = false := by
        intro c head
        cases head
        decide
      exact ⟨atoi_ofNat_append p stop, atoi_ofNat_append p stop⟩
  | cons q qs =>
    have stop : ∀ c ∈ (typesText (q :: qs) ++ d.ending).head?, c.isDigit = false := by
      intro c head
      cases head
      decide
    refine ⟨atoi_ofNat_append p stop, atoi_ofNat_append p ?_⟩
    intro c head
    cases head

theorem selects_iff (supported : List Int) (before : Int) (d : MediaDescription) (capabilities : Text)
    (list : capabilities = d.listed) (succeeded : Bool) {negotiated : Int}
    (named : succeeded = true ↔ negotiated ≠ PayloadType.undefined)
    (chosen : negotiated =
      if atoi (firstPiece capabilities) ∈ supported then atoi (firstPiece capabilities)
      else if atoi capabilities ∈ supported then atoi capabilities
      else before) :
    Selects supported d.types succeeded negotiated ↔ Selectable supported before d := by
  subst list
  unfold Selects Selectable
  rw [firstSupported_isSome, named]
  cases types : d.types with
  | nil =>
    have nothing : firstSupported supported [] = none := rfl
    simp only [nothing]
    generalize atoi (firstPiece d.listed) = first at *
    generalize atoi d.listed = number at *
    have failed : ((negotiated ≠ PayloadType.undefined ↔ (none : Option Int).isSome = true) ∧
        ∀ p ∈ (none : Option Int), negotiated = p) ↔ negotiated = PayloadType.undefined := by
      simp
    rw [failed, chosen]
    by_cases one : first ∈ supported
    · rw [if_pos one, if_pos one]
    · rw [if_neg one, if_neg one]
      by_cases two : number ∈ supported
      · rw [if_pos two, if_pos two]
      · rw [if_neg two, if_neg two]
  | cons p ps =>
    obtain ⟨number, piece⟩ := d.listed_number types
    rw [number, piece] at chosen
    have head : (p : Int) ∈ supported → firstSupported supported (p :: ps) = some (p : Int) := fun member =>
      List.find?_cons_of_pos (by simpa using member)
    generalize firstSupported supported (p :: ps) = wanted at head
    simp only
    by_cases member : (p : Int) ∈ supported
    · rw [if_pos member] at chosen
      rw [head member, chosen]
      simp [member]
    · rw [if_neg member, if_neg member] at chosen
      rw [chosen]
      cases wanted with
      | none => simp [member]
      | some q =>
        simp only [Option.isSome_some, Option.getD_some, member, false_or, ne_eq, Option.some.injEq,
          Option.mem_def, iff_true]
        constructor
        · rintro ⟨defined, same⟩
          have taken := same q rfl
          exact ⟨taken, fun none => defined (taken.trans none)⟩
        · rintro ⟨taken, defined⟩
          exact ⟨fun none => defined (taken.symm.trans none), fun r same => taken.trans same⟩

/-- The loop of each of the three functions ends, whatever the description lists, and it takes the
right payload type if and only if the condition is met. -/
theorem negotiate_selects (t : IceTransport) (media : Media) (d : MediaDescription)
    (wellFormed : d.WellFormed media) :
    (∀ turns, (remoteCapabilities (d.text media) media.tag).length < turns →
      choosePayloadType (remoteCapabilities (d.text media) media.tag) (t.supported media)
        (t.negotiated media) turns 0 = (t.negotiate (d.text media) media).2.negotiated media) ∧
    (Selects (t.supported media) d.types (t.negotiate (d.text media) media).1
        ((t.negotiate (d.text media) media).2.negotiated media) ↔
      Selectable (t.supported media) (t.negotiated media) d) := by
  obtain ⟨chosen, named⟩ := negotiate_eq t (d.text media) media
  rw [negotiatePayloadType, choosePayloadType_eq _ _ _ (Nat.lt_succ_self _)] at chosen
  constructor
  · intro turns enough
    rw [choosePayloadType_eq _ _ _ enough, chosen]
  · exact selects_iff _ _ d _ (d.remoteCapabilities_text media wellFormed) _ named chosen

/-- A controller that numbers everything alike. -/
def plainController : IceTransportController where
  videoSsrc := fun _ => ⟨1, by decide⟩
  videoRtxSsrc := fun _ => ⟨2, by decide⟩
  audioSsrc := fun _ => ⟨3, by decide⟩
  dataSsrc := fun _ => ⟨4, by decide⟩

/-- A transport that can do H.264 and Opus. -/
def h264Only : IceTransport where
  offerPeer := false
  directPolicy := false
  enableSrtp := false
  preferedVideoPayloadType := PayloadType.h264
  supportVideoPayloadTypes := [PayloadType.h264]
  supportAudioPayloadTypes := [PayloadType.opus]
  videoStreamIds := []
  audioStreamIds := []
  dataStreamIds := .empty
  controller := plainController

/-- A description that prefers one video codec and has another. -/
def twoCodecs (first second : Nat) : MediaDescription where
  before := "v=0\r\n".toList
  port := "9".toList
  proto := "UDP/TLS/RTP/SAVPF".toList
  types := [first, second]
  carriageReturn := true
  after := "c=IN IP4 0.0.0.0\r\n".toList

theorem negotiate_selects_h264 :
    (∀ turns, (remoteCapabilities ((twoCodecs 96 99).text .video) Media.video.tag).length < turns →
      choosePayloadType (remoteCapabilities ((twoCodecs 96 99).text .video) Media.video.tag)
        (h264Only.supported .video) (h264Only.negotiated .video) turns 0 =
          (h264Only.negotiate ((twoCodecs 96 99).text .video) .video).2.negotiated .video) ∧
    (Selects (h264Only.supported .video) (twoCodecs 96 99).types
        (h264Only.negotiate ((twoCodecs 96 99).text .video) .video).1
        ((h264Only.negotiate ((twoCodecs 96 99).text .video) .video).2.negotiated .video) ↔
      Selectable (h264Only.supported .video) (h264Only.negotiated .video) (twoCodecs 96 99)) :=
  negotiate_selects h264Only .video (twoCodecs 96 99)
    ⟨by decide, by decide, by decide, by decide⟩

/-- The second payload type is supported, and the negotiation fails. -/
theorem second_codec_refused : ¬ ∀ (t : IceTransport) (media : Media) (d : MediaDescription),
    d.WellFormed media → Selects (t.supported media) d.types (t.negotiate (d.text media) media).1
      ((t.negotiate (d.text media) media).2.negotiated media) := by
  intro selects
  have selected := (selects h264Only .video (twoCodecs 99 96)
    ⟨by decide, by decide, by decide, by decide⟩).2 96 (by decide)
  have refused : (h264Only.negotiate ((twoCodecs 99 96).text .video) .video).2.negotiated .video = 0 := by
    decide
  rw [refused] at selected
  exact absurd selected (by decide)

end MiniRtc.Sdp
