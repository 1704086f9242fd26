/-!
# Token classes

The lexical rules of the notation.  A rule reads from the front of a text; sugar and words may stop anywhere, and
an atom, a symbol or an integer has to use up the whole text.  All classes are ASCII: a letter, digit or sign
outside ASCII belongs to none of them.
-/

namespace PolyDeriv

/-- The one-character operators. -/
def isSugar (c : Char) : Bool := c = '+' || c = '^' || c = '*' || c = '\x27'

/-- The characters of words. -/
def isWordChar (c : Char) : Bool := c.isAlphanum || c = '-'

/-- A class of tokens. -/
inductive TokenClass
  /-- One operator character. -/
  | sugar
  /-- A run of letters, digits and hyphens. -/
  | word
  /-- Sugar or a word, up to the end of the text. -/
  | atom
  /-- Letters, up to the end of the text. -/
  | symbol
  /-- Digits behind an optional minus sign, up to the end of the text. -/
  | integer
  /-- Nothing, at the end of the text. -/
  | endOfText
deriving DecidableEq

/-- A piece of a text that belongs to a class, between two byte offsets. -/
structure Span where
  kind : TokenClass
  text : String
  start : Nat
  stop : Nat
deriving DecidableEq

/-- What a rule found: the piece it matched, and the pieces that one is made of. -/
structure TokenMatch where
  span : Span
  parts : List Span
deriving DecidableEq

/-- The longest run of characters with property `p` at the front, if it is not empty, and what follows it. -/
def takeRun (p : Char → Bool) (cs : List Char) : Option (List Char × List Char) :=
  if (cs.takeWhile p).isEmpty then none else some (cs.takeWhile p, cs.dropWhile p)

/-- One operator at the front, and what follows it. -/
def takeSugar : List Char → Option (List Char × List Char)
  | [] => none
  | c :: rest => if isSugar c then some ([c], rest) else none

/-- The longest run of digits at the front, with a minus sign before it if there is one, and what follows. -/
def takeInteger : List Char → Option (List Char × List Char)
  | '-' :: rest => (takeRun Char.isDigit rest).map fun (digits, rest) => ('-' :: digits, rest)
  | cs => takeRun Char.isDigit cs

/-- What was read, provided that nothing follows it. -/
def whole : List Char × List Char → Option (List Char)
  | (taken, []) => some taken
  | (_, _ :: _) => none

/-- The span of characters read at the front of a text. -/
def Span.ofFront (kind : TokenClass) (taken : List Char) : Span :=
  let text := String.ofList taken
  ⟨kind, text, 0, text.utf8ByteSize⟩

/-- The one piece that an atom consists of.  A text that starts with an operator is never tried as a word. -/
def takeAtom (cs : List Char) : Option Span :=
  match takeSugar cs with
  | some read => (whole read).map (.ofFront .sugar)
  | none => (takeRun isWordChar cs).bind fun read => (whole read).map (.ofFront .word)

namespace TokenClass

/-- What the rule of a class matches at the front of a text. -/
def match? (text : String) : TokenClass → Option TokenMatch
  | sugar => (takeSugar text.toList).map fun read => ⟨.ofFront .sugar read.1, []⟩
  | word => (takeRun isWordChar text.toList).map fun read => ⟨.ofFront .word read.1, []⟩
  | atom => (takeAtom text.toList).map fun part =>
      ⟨{ part with kind := .atom }, [part, ⟨.endOfText, "", part.stop, part.stop⟩]⟩
  | symbol => ((takeRun Char.isAlpha text.toList).bind whole).map fun taken => ⟨.ofFront .symbol taken, []⟩
  | integer => ((takeInteger text.toList).bind whole).map fun taken => ⟨.ofFront .integer taken, []⟩
  | endOfText => if text.isEmpty then some ⟨.ofFront .endOfText [], []⟩ else none

/-- Whether the rule of a class matches.  For atoms, symbols and integers this is a matter of the whole text. -/
def accepts (kind : TokenClass) (text : String) : Bool := (kind.match? text).isSome

end TokenClass

/-! ### The anchored classes as conditions on the whole text -/

private theorem dropWhile_eq_nil_iff {p : Char → Bool} {cs : List Char} : cs.dropWhile p = [] ↔ ∀ c ∈ cs, p c := by
  induction cs with
  | nil => simp
  | cons c cs ih => by_cases hc : p c <;> simp [hc, ih]

/-- A whole text is a run exactly when it is not empty and all its characters have the property. -/
theorem takeRun_bind_whole {p : Char → Bool} {cs taken : List Char} :
    (takeRun p cs).bind whole = some taken ↔ taken = cs ∧ cs ≠ [] ∧ ∀ c ∈ cs, p c := by
  have append_eq := List.takeWhile_append_dropWhile (p := p) (l := cs)
  rw [← dropWhile_eq_nil_iff, takeRun]
  cases hd : cs.dropWhile p with
  | nil =>
    rw [hd, List.append_nil] at append_eq
    cases cs <;> simp [append_eq, whole, eq_comm]
  | cons d ds => split <;> simp [whole]

private theorem accepts_run {p : Char → Bool} {cs : List Char} {f : List Char → TokenMatch} :
    (((takeRun p cs).bind whole).map f).isSome ↔ cs ≠ [] ∧ ∀ c ∈ cs, p c := by
  rw [Option.isSome_map, Option.isSome_iff_exists]
  simp only [takeRun_bind_whole, exists_eq_left]

/-- A symbol is a text of one or more letters. -/
theorem accepts_symbol_iff {text : String} :
    TokenClass.symbol.accepts text ↔ text.toList ≠ [] ∧ ∀ c ∈ text.toList, c.isAlpha := accepts_run

/-- A whole text is an integer exactly when it consists of digits, with or without a minus sign in front of them. -/
theorem takeInteger_bind_whole {cs taken : List Char} : (takeInteger cs).bind whole = some taken ↔
    taken = cs ∧ ∃ digits, digits ≠ [] ∧ (∀ c ∈ digits, c.isDigit) ∧ (cs = digits ∨ cs = '-' :: digits) := by
  unfold takeInteger
  split
  · next rest =>
    have behind_sign : ((takeRun Char.isDigit rest).map fun read => ('-' :: read.1, read.2)).bind whole =
        ((takeRun Char.isDigit rest).bind whole).map ('-' :: ·) := by
      rcases takeRun Char.isDigit rest with _ | ⟨taken, _ | _⟩ <;> rfl
    rw [behind_sign, Option.map_eq_some_iff]
    simp only [takeRun_bind_whole]
    constructor
    · rintro ⟨_, ⟨rfl, ne, digits⟩, rfl⟩
      exact ⟨rfl, _, ne, digits, .inr rfl⟩
    · rintro ⟨rfl, digits, ne, all_digits, rfl | h⟩
      · exact absurd (all_digits '-' (by simp)) (by decide)
      · obtain rfl := (List.cons.inj h).2
        exact ⟨_, ⟨rfl, ne, all_digits⟩, rfl⟩
  · next no_sign =>
    rw [takeRun_bind_whole]
    refine and_congr_right fun _ => ?_
    constructor
    · rintro ⟨ne, digits⟩
      exact ⟨cs, ne, digits, .inl rfl⟩
    · rintro ⟨digits, ne, all_digits, rfl | rfl⟩
      · exact ⟨ne, all_digits⟩
      · exact absurd rfl (no_sign digits)

/-- An integer is a text of one or more digits, with or without a minus sign in front of them. -/
theorem accepts_integer_iff {text : String} :
    TokenClass.integer.accepts text ↔
      ∃ digits, digits ≠ [] ∧ (∀ c ∈ digits, c.isDigit) ∧ (text.toList = digits ∨ text.toList = '-' :: digits) := by
  rw [TokenClass.accepts, TokenClass.match?, Option.isSome_map, Option.isSome_iff_exists]
  simp only [takeInteger_bind_whole, exists_eq_left]

/-- An atom is one of the four operators, or one or more letters, digits and hyphens. -/
def IsAtom (text : String) : Prop :=
  text ∈ ["+", "^", "*", "\x27"] ∨ text.toList ≠ [] ∧ ∀ c ∈ text.toList, c.isAlphanum ∨ c = '-'

private theorem not_isWordChar_of_isSugar {c : Char} (h : isSugar c) : ¬ isWordChar c := by
  simp only [isSugar, Bool.or_eq_true, decide_eq_true_eq] at h
  rcases h with ((rfl | rfl) | rfl) | rfl <;> decide

/-- An atom is an operator alone, or a run of word characters up to the end of the text. -/
theorem takeAtom_eq_some_iff {cs : List Char} {part : Span} : takeAtom cs = some part ↔
    (∃ c, isSugar c ∧ cs = [c]) ∧ part = .ofFront .sugar cs ∨
      (cs ≠ [] ∧ ∀ c ∈ cs, isWordChar c) ∧ part = .ofFront .word cs := by
  unfold takeAtom
  cases cs with
  | nil => simp [takeSugar, takeRun]
  | cons c rest =>
    by_cases hc : isSugar c
    · -- an operator is no part of a word, so the text is the operator alone
      have not_word : ¬ ∀ d ∈ c :: rest, isWordChar d := fun h => not_isWordChar_of_isSugar hc (h c (by simp))
      have one_sugar : takeSugar (c :: rest) = some ([c], rest) := by simp [takeSugar, hc]
      simp only [one_sugar]
      rw [or_iff_left fun ⟨⟨_, word⟩, _⟩ => not_word word]
      cases rest with
      | nil =>
        rw [eq_comm (a := part)]
        simp [whole, hc]
      | cons d rest => simp [whole]
    · have no_sugar : takeSugar (c :: rest) = none := by simp [takeSugar, hc]
      have not_operator : ¬ ∃ d, isSugar d ∧ c :: rest = [d] := by
        rintro ⟨d, hd, h⟩
        exact hc ((List.cons.inj h).1 ▸ hd)
      have run : ((takeRun isWordChar (c :: rest)).bind fun read => (whole read).map (Span.ofFront .word)) =
          ((takeRun isWordChar (c :: rest)).bind whole).map (Span.ofFront .word) := by
        rw [Option.map_bind]
        rfl
      simp only [no_sugar]
      rw [run, Option.map_eq_some_iff, or_iff_right fun ⟨operator, _⟩ => not_operator operator]
      simp only [takeRun_bind_whole, and_assoc, exists_eq_left]
      rw [eq_comm (a := part)]

theorem exists_isSugar_iff {text : String} :
    (∃ c, isSugar c ∧ text.toList = [c]) ↔ text ∈ ["+", "^", "*", "\x27"] := by
  simp [isSugar, or_and_right, exists_or, ← String.toList_inj, or_assoc]

theorem isWordChar_iff {c : Char} : isWordChar c ↔ c.isAlphanum ∨ c = '-' := by simp [isWordChar]

theorem accepts_atom_iff {text : String} : TokenClass.atom.accepts text ↔ IsAtom text := by
  rw [TokenClass.accepts, TokenClass.match?, Option.isSome_map, Option.isSome_iff_exists, IsAtom]
  simp only [takeAtom_eq_some_iff, exists_or, exists_and_left, exists_eq, and_true, exists_isSugar_iff, isWordChar_iff]

end PolyDeriv
