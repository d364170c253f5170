import Mathlib

/-! Texts as `std::string` and its streams read them: searching and cutting, lines, fields and
numbers. Text that is made of lines is read back line by line, and the first line that has a
pattern is where a search ends. -/

abbrev Text := List Char

namespace Text

/-! ### Searching -/

/-- `find`: where the pattern starts. -/
def find (pattern : Text) : Text → Option Nat
  | [] => if pattern.isEmpty then some 0 else none
  | c :: s => if pattern.isPrefixOf (c :: s) then some 0 else (find pattern s).map (· + 1)

/-- `find` from a position on. -/
def findFrom (pattern s : Text) (pos : Nat) : Option Nat := (find pattern (s.drop pos)).map (· + pos)

/-- `substr` -/
def substr (s : Text) (pos count : Nat) : Text := (s.drop pos).take count

/-- Every occurrence of a pattern becomes another text, from the left; so many characters of the
last occurrence are still to be passed by. -/
def replaceFrom (pattern replacement : Text) : Nat → Text → Text
  | _, [] => []
  | skip + 1, _ :: s => replaceFrom pattern replacement skip s
  | 0, c :: s =>
    if pattern.isPrefixOf (c :: s) then replacement ++ replaceFrom pattern replacement (pattern.length - 1) s
    else c :: replaceFrom pattern replacement 0 s

def replaceAll (pattern replacement s : Text) : Text := replaceFrom pattern replacement 0 s

/-! ### Pieces -/

/-- `getline` over and over: the pieces that end with a separator, and what is left. -/
def piecesFrom (separator : Char) : Text → Text → List Text
  | piece, [] => if piece.isEmpty then [] else [piece]
  | piece, c :: s =>
    if c = separator then piece :: piecesFrom separator [] s
    else piecesFrom separator (piece ++ [c]) s

def pieces (separator : Char) (s : Text) : List Text := piecesFrom separator [] s

def lines (s : Text) : List Text := pieces '\n' s

/-- Lines, each with its end. -/
def unlines (ls : List Text) : Text := ls.flatMap fun l => l ++ ['\n']

/-! ### Spaces -/

def isSpace (c : Char) : Bool := c = ' ' || c = '\t' || c = '\n' || c = '\x0b' || c = '\x0c' || c = '\r'

def trim (s : Text) : Text := (s.dropWhile isSpace).rdropWhile isSpace

/-- A line without the carriage return at its end. -/
def chomp (s : Text) : Text := if s.getLast? = some '\r' then s.dropLast else s

/-- `>>` into a string. -/
def word (s : Text) : Option (Text × Text) :=
  let s := s.dropWhile isSpace
  let field := s.takeWhile fun c => !isSpace c
  if field.isEmpty then none else some (field, s.dropWhile fun c => !isSpace c)

/-- `>>` into a string, over and over. -/
def fieldsFrom : Text → Text → List Text
  | field, [] => if field.isEmpty then [] else [field]
  | field, c :: s =>
    if isSpace c then
      if field.isEmpty then fieldsFrom [] s else field :: fieldsFrom [] s
    else fieldsFrom (field ++ [c]) s

def fields (s : Text) : List Text := fieldsFrom [] s

/-! ### Numbers -/

abbrev Uint32 := Fin (2 ^ 32)

/-- `to_string` -/
def ofNat (n : Nat) : Text := Nat.toDigits 10 n

def ofInt : Int → Text
  | .ofNat n => ofNat n
  | .negSucc n => '-' :: ofNat (n + 1)

/-- `from_chars`, where the whole text must be a number that fits. -/
def parseUint32 (s : Text) : Option Uint32 :=
  if s.isEmpty || !s.all Char.isDigit then none
  else
    let n := Nat.ofDigitChars 10 s 0
    if fits : n < 2 ^ 32 then some ⟨n, fits⟩ else none

/-- The sign of a number and what follows. -/
def sign : Text → Bool × Text
  | '-' :: s => (true, s)
  | '+' :: s => (false, s)
  | s => (false, s)

/-- `>>` into a `uint32_t`; a minus negates modulo the width. -/
def number (s : Text) : Option (Uint32 × Text) :=
  let (negative, s) := sign (s.dropWhile isSpace)
  let digits := s.takeWhile Char.isDigit
  let n := Nat.ofDigitChars 10 digits 0
  if digits.isEmpty then none
  else if fits : n < 2 ^ 32 then
    some (if negative then -⟨n, fits⟩ else ⟨n, fits⟩, s.dropWhile Char.isDigit)
  else none

/-- `>>` into an unsigned integer of any width. -/
def unsigned (width : Nat) (s : Text) : Option (BitVec width × Text) :=
  let (negative, s) := sign (s.dropWhile isSpace)
  let digits := s.takeWhile Char.isDigit
  let n := Nat.ofDigitChars 10 digits 0
  if digits.isEmpty then none
  else if n < 2 ^ width then
    let v := BitVec.ofNat width n
    some (if negative then -v else v, s.dropWhile Char.isDigit)
  else none

def atoi (s : Text) : Int :=
  let (negative, s) := sign (s.dropWhile isSpace)
  let n : Int := Nat.ofDigitChars 10 (s.takeWhile Char.isDigit) 0
  if negative then -n else n

/-! ### What lines read back -/

theorem unlines_cons (l : Text) (ls : List Text) : unlines (l :: ls) = l ++ '\n' :: unlines ls := by
  simp [unlines]

@[simp] theorem unlines_append (ls ms : List Text) : unlines (ls ++ ms) = unlines ls ++ unlines ms :=
  List.flatMap_append

@[simp] theorem unlines_nil : unlines [] = [] := rfl

theorem piecesFrom_separated {separator : Char} {l : Text} (plain : separator ∉ l) (piece s : Text) :
    piecesFrom separator piece (l ++ separator :: s) = (piece ++ l) :: piecesFrom separator [] s := by
  induction l generalizing piece with
  | nil => simp [piecesFrom]
  | cons c l ih =>
    obtain ⟨other, rest⟩ := not_or.mp fun member => plain (List.mem_cons.mpr member)
    rw [List.cons_append, piecesFrom, if_neg fun same => other same.symm, ih rest]
    simp

theorem piecesFrom_rest {separator : Char} {l : Text} (plain : separator ∉ l) (piece : Text) :
    piecesFrom separator piece l = if (piece ++ l).isEmpty then [] else [piece ++ l] := by
  induction l generalizing piece with
  | nil => simp [piecesFrom]
  | cons c l ih =>
    obtain ⟨other, rest⟩ := not_or.mp fun member => plain (List.mem_cons.mpr member)
    rw [piecesFrom, if_neg fun same => other same.symm, ih rest]
    simp

theorem lines_unlines {ls : List Text} (plain : ∀ l ∈ ls, '\n' ∉ l) : lines (unlines ls) = ls := by
  unfold lines pieces
  induction ls with
  | nil => rfl
  | cons l ls ih =>
    rw [unlines_cons, piecesFrom_separated (plain l List.mem_cons_self), List.nil_append,
      ih fun m member => plain m (List.mem_cons_of_mem _ member)]

theorem mem_fieldsFrom {field s t : Text} (plain : ∀ c ∈ field, isSpace c = false)
    (mem : t ∈ fieldsFrom field s) :
    t ≠ [] ∧ (∀ c ∈ t, isSpace c = false) ∧ ∀ c ∈ t, c ∈ field ++ s := by
  induction s generalizing field with
  | nil =>
    rw [fieldsFrom] at mem
    split at mem
    · cases mem
    · rename_i filled
      obtain rfl := List.mem_singleton.mp mem
      exact ⟨by simpa using filled, plain, fun c inside => by simpa using inside⟩
  | cons d s ih =>
    rw [fieldsFrom] at mem
    have later {start : Text} (plain : ∀ c ∈ start, isSpace c = false)
        (inside : ∀ c ∈ start, c ∈ field ++ d :: s) (mem : t ∈ fieldsFrom start s) :
        t ≠ [] ∧ (∀ c ∈ t, isSpace c = false) ∧ ∀ c ∈ t, c ∈ field ++ d :: s := by
      obtain ⟨filled, plain, within⟩ := ih plain mem
      refine ⟨filled, plain, fun c member => ?_⟩
      obtain first | rest := List.mem_append.mp (within c member)
      · exact inside c first
      · simp [rest]
    split at mem
    · split at mem
      · exact later (by simp) (by simp) mem
      · rename_i filled
        obtain rfl | mem := List.mem_cons.mp mem
        · exact ⟨by simpa using filled, plain, fun c member => by simp [member]⟩
        · exact later (by simp) (by simp) mem
    · rename_i other
      refine later (fun c member => ?_) (fun c member => ?_) mem
      · obtain old | new := List.mem_append.mp member
        · exact plain c old
        · rw [List.mem_singleton.mp new]
          simpa using other
      · simp only [List.mem_append, List.mem_singleton] at member
        simp only [List.mem_append, List.mem_cons]
        tauto

/-- A text without a space is one field. -/
theorem fieldsFrom_plain {field s : Text} (plain : ∀ c ∈ s, isSpace c = false)
    (filled : field ++ s ≠ []) : fieldsFrom field s = [field ++ s] := by
  induction s generalizing field with
  | nil =>
    rw [List.append_nil] at filled
    simp [fieldsFrom, filled]
  | cons c s ih =>
    rw [fieldsFrom, plain c List.mem_cons_self, if_neg Bool.false_ne_true,
      ih (fun d member => plain d (List.mem_cons_of_mem _ member)) (by simp)]
    simp

/-- A field is not empty, has no space, and is made of characters of the text. -/
theorem mem_fields {s t : Text} (mem : t ∈ fields s) :
    t ≠ [] ∧ (∀ c ∈ t, isSpace c = false) ∧ ∀ c ∈ t, c ∈ s :=
  mem_fieldsFrom (by simp) mem

/-! ### Where a search ends -/

theorem find_here {pattern s : Text} (here : pattern <+: s) : find pattern s = some 0 := by
  cases s with
  | nil =>
    rw [List.prefix_nil.mp here]
    rfl
  | cons c s => rw [find, if_pos (List.isPrefixOf_iff_prefix.mpr here)]

theorem find_cons {pattern s : Text} {c : Char} (not : ¬ pattern <+: c :: s) :
    find pattern (c :: s) = (find pattern s).map (· + 1) := by
  rw [find, if_neg fun here => not (List.isPrefixOf_iff_prefix.mp here)]

theorem find_none {pattern s : Text} (absent : ¬ pattern <:+: s) : find pattern s = none := by
  induction s with
  | nil =>
    cases pattern with
    | nil => exact absurd List.infix_rfl absent
    | cons c p => rfl
  | cons c s ih =>
    rw [find_cons fun here => absent here.isInfix,
      ih fun inside => absent (inside.trans (List.suffix_cons c s).isInfix)]
    rfl

/-- A prefix that stops before a character that it does not have lies before that character. -/
theorem prefix_before {pattern l s : Text} {c : Char} (plain : c ∉ pattern)
    (here : pattern <+: l ++ c :: s) : pattern <+: l := by
  induction pattern generalizing l with
  | nil => exact List.nil_prefix
  | cons d pattern ih =>
    obtain ⟨other, rest⟩ := not_or.mp fun member => plain (List.mem_cons.mpr member)
    cases l with
    | nil =>
      rw [List.nil_append, List.cons_prefix_cons] at here
      exact absurd here.1.symm other
    | cons e l =>
      rw [List.cons_append, List.cons_prefix_cons] at here
      exact List.cons_prefix_cons.mpr ⟨here.1, ih rest here.2⟩

/-- A search passes by a line that does not have the pattern. -/
theorem find_line {pattern l : Text} {c : Char} (plain : c ∉ pattern) (some : pattern ≠ [])
    (absent : ¬ pattern <:+: l) (s : Text) :
    find pattern (l ++ c :: s) = (find pattern s).map (· + (l.length + 1)) := by
  induction l with
  | nil =>
    rw [List.nil_append, find_cons]
    · rfl
    · intro here
      exact some (List.prefix_nil.mp (prefix_before (l := []) plain here))
  | cons d l ih =>
    rw [List.cons_append, find_cons, ih fun inside => absent (inside.trans (List.suffix_cons d l).isInfix),
      Option.map_map]
    · congr 1
    · exact fun here => absent (prefix_before (l := d :: l) plain here).isInfix

theorem find_unlines {pattern : Text} (plain : '\n' ∉ pattern) (some : pattern ≠ []) {ls : List Text}
    (absent : ∀ l ∈ ls, ¬ pattern <:+: l) (s : Text) :
    find pattern (unlines ls ++ s) = (find pattern s).map (· + (unlines ls).length) := by
  induction ls with
  | nil => simp
  | cons l ls ih =>
    rw [unlines_cons, List.append_assoc, List.cons_append,
      find_line plain some (absent l List.mem_cons_self),
      ih fun m member => absent m (List.mem_cons_of_mem _ member), Option.map_map]
    congr 1
    funext n
    simp only [Function.comp_apply, List.length_append, List.length_cons]
    omega

/-- A search for one character ends at its first occurrence. -/
theorem find_char {c : Char} {l : Text} (plain : c ∉ l) (s : Text) :
    find [c] (l ++ c :: s) = some l.length := by
  induction l with
  | nil => exact find_here ⟨s, rfl⟩
  | cons d l ih =>
    obtain ⟨other, rest⟩ := not_or.mp fun member => plain (List.mem_cons.mpr member)
    rw [List.cons_append, find_cons fun here => other (List.cons_prefix_cons.mp here).1, ih rest]
    rfl

theorem find_char_none {c : Char} {s : Text} (absent : c ∉ s) : find [c] s = none :=
  find_none fun inside => absent (inside.subset List.mem_cons_self)

/-- What is before the place that a search for one character finds, and what is behind it. -/
theorem find_char_some {c : Char} {s : Text} {k : Nat} (found : find [c] s = some k) :
    s = s.take k ++ c :: s.drop (k + 1) := by
  induction s generalizing k with
  | nil => cases found
  | cons d s ih =>
    by_cases here : [c] <+: d :: s
    · rw [find_here here] at found
      cases found
      rw [(List.cons_prefix_cons.mp here).1]
      rfl
    · rw [find_cons here, Option.map_eq_some_iff] at found
      obtain ⟨j, found, rfl⟩ := found
      rw [List.take_succ_cons, List.drop_succ_cons, List.cons_append, ← ih found]

theorem findFrom_char_some {c : Char} {s : Text} {pos stop : Nat} (inside : pos ≤ s.length)
    (found : findFrom [c] s pos = some stop) :
    s = s.take stop ++ c :: s.drop (stop + 1) ∧ pos ≤ stop ∧ stop < s.length := by
  obtain ⟨k, here, rfl⟩ := Option.map_eq_some_iff.mp found
  have cut := find_char_some here
  have length := congrArg List.length cut
  rw [List.length_append, List.length_cons, List.length_take, List.length_drop, List.length_drop] at length
  refine ⟨?_, Nat.le_add_left pos k, by omega⟩
  rw [Nat.add_comm k pos, List.take_add, Nat.add_assoc, ← List.drop_drop, List.append_assoc, ← cut,
    List.take_append_drop]

/-! ### What a number is read from -/

theorem atoi_blank {s : Text} (blank : s.dropWhile isSpace = []) : atoi s = 0 := by
  rw [atoi, blank]
  rfl

/-- Once there is more than spaces, a number does not go beyond a character that is not a digit. -/
theorem atoi_cut {s : Text} (some : s.dropWhile isSpace ≠ []) {c : Char} (stop : c.isDigit = false)
    (t : Text) : atoi (s ++ c :: t) = atoi s := by
  have cut (digits : Text) : (digits ++ c :: t).takeWhile Char.isDigit = digits.takeWhile Char.isDigit := by
    rw [List.takeWhile_append]
    split
    · rw [List.takeWhile_cons, stop, if_neg Bool.false_ne_true, List.append_nil]
      rename_i whole
      exact (List.takeWhile_prefix _).eq_of_length whole |>.symm
    · rfl
  rw [atoi, atoi, List.dropWhile_append, if_neg (by simpa using some)]
  generalize s.dropWhile isSpace = rest at some
  cases rest with
  | nil => exact absurd rfl some
  | cons d rest =>
    by_cases minus : d = '-'
    · subst minus
      simp only [List.cons_append, sign, cut]
    by_cases plus : d = '+'
    · subst plus
      simp only [List.cons_append, sign, cut]
    · have unsigned (l : Text) : sign (d :: l) = (false, d :: l) := by
        unfold sign
        split
        · rename_i head
          exact absurd (List.cons.inj head).1 minus
        · rename_i head
          exact absurd (List.cons.inj head).1 plus
        · rfl
      rw [List.cons_append, unsigned, unsigned, ← List.cons_append]
      simp only [cut]

theorem isSpace_digit {c : Char} (digit : c.isDigit = true) : isSpace c = false := by
  by_contra space
  rw [Bool.not_eq_false] at space
  simp only [isSpace, Bool.or_eq_true, decide_eq_true_eq] at space
  rcases space with ((((rfl | rfl) | rfl) | rfl) | rfl) | rfl <;> exact absurd digit (by decide)

theorem atoi_ofNat (n : Nat) : atoi (ofNat n) = n := by
  have digits : ∀ c ∈ ofNat n, c.isDigit = true := fun c member =>
    Nat.isDigit_of_mem_toDigits (by decide) (by decide) member
  have all : (ofNat n).takeWhile Char.isDigit = ofNat n := List.takeWhile_eq_self_iff.mpr digits
  have value : Nat.ofDigitChars 10 (ofNat n) 0 = n := Nat.ofDigitChars_ten_toDigits
  rw [atoi]
  generalize ofNat n = text at *
  cases text with
  | nil =>
    rw [← value]
    rfl
  | cons c rest =>
    have digit := digits c List.mem_cons_self
    have plain : sign (c :: rest) = (false, c :: rest) := by
      unfold sign
      split
      · rename_i head
        rw [(List.cons.inj head).1] at digit
        exact absurd digit (by decide)
      · rename_i head
        rw [(List.cons.inj head).1] at digit
        exact absurd digit (by decide)
      · rfl
    rw [List.dropWhile_cons, isSpace_digit digit, if_neg Bool.false_ne_true, plain]
    simp only [all, value, if_neg Bool.false_ne_true]

/-- A number and what follows it. -/
theorem atoi_ofNat_append (n : Nat) {t : Text} (stop : ∀ c ∈ t.head?, c.isDigit = false) :
    atoi (ofNat n ++ t) = n := by
  cases t with
  | nil => rw [List.append_nil, atoi_ofNat]
  | cons c t =>
    have some : (ofNat n).dropWhile isSpace ≠ [] := by
      intro blank
      have spaces := List.dropWhile_eq_nil_iff.mp blank
      obtain ⟨d, member⟩ := List.exists_mem_of_ne_nil _ (Nat.toDigits_ne_nil (n := n) (b := 10))
      have digit := Nat.isDigit_of_mem_toDigits (by decide) (by decide) member
      have space := spaces d member
      rw [isSpace_digit digit] at space
      cases space
    rw [atoi_cut some (stop c rfl), atoi_ofNat]

end Text
