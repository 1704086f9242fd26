import Mathlib.Data.List.TakeWhile
import PolyDeriv.Poly.Denotation
import PolyDeriv.Token.Grammar

/-!
# Token classes

What the lexical rules match.  Tried as parsing expressions, they find what `TokenClass.match?` says
(`match?_grammar`).  Atoms, symbols and integers are matters of the whole text; a word ends where the longest run of its
characters does (`isLongestWord_iff`).  A rule that repeats the characters of one class takes the longest run there is
(`follows_repeated`), so nothing that a rule could have given back would have helped it later.
-/

namespace PolyDeriv

/-- One or more letters, digits and hyphens. -/
def IsWord (text : String) : Prop := text.toList ≠ [] ∧ ∀ c ∈ text.toList, c.isAlphanum ∨ c = '-'

/-- Digits, with or without a minus sign in front of them. -/
def IsInteger (text : String) : Prop :=
  ∃ digits, digits ≠ [] ∧ (∀ c ∈ digits, c.isDigit) ∧ (text.toList = digits ∨ text.toList = '-' :: digits)

/-- A word at the front of a text, such that no longer one is there. -/
structure IsLongestWord (taken text : String) : Prop where
  front : taken.toList <+: text.toList
  word : IsWord taken
  longest : ∀ other : String, other.toList <+: text.toList → IsWord other → other.toList <+: taken.toList

/-- A whole text as a piece of itself. -/
def Span.covering (kind : TokenClass) (text : String) : Span := ⟨kind, text, 0, text.utf8ByteSize⟩

private theorem Span.ofFront_toList (kind : TokenClass) (text : String) :
    ofFront kind text.toList = covering kind text := by
  rw [ofFront, String.ofList_toList, covering]

/-- What the rule for atoms finds in a text of the given kind. -/
def atomMatch (kind : TokenClass) (text : String) : TokenMatch :=
  ⟨.covering .atom text, [.covering kind text, ⟨.endOfText, "", text.utf8ByteSize, text.utf8ByteSize⟩]⟩

/-! ### The rules as parsing expressions -/

namespace ParsingExpr

variable {a b e : ParsingExpr} {p q : Char → Bool} {take : List Char → Option (List Char × List Char)}

/-- An expression moves on over what a function takes from the front. -/
def Follows (e : ParsingExpr) (take : List Char → Option (List Char × List Char)) : Prop :=
  ∀ place, e.run place = (take place.left).map fun read => ⟨place.done ++ read.1, read.2, place.pieces⟩

/-- Reading characters of a class until that fails reads the longest run of them. -/
private theorem exhaust_char (p : Char → Bool) (done left : List Char) (pieces : List Span) :
    Cursor.exhaust (char p).run ⟨done, left, pieces⟩ = ⟨done ++ left.takeWhile p, left.dropWhile p, pieces⟩ := by
  -- every character that is read moves from what is left to what has been read
  induction left generalizing done with
  | nil =>
    rw [Cursor.exhaust]
    simp
  | cons c cs ih =>
    rw [Cursor.exhaust]
    by_cases hc : p c
    · simp [hc, ih]
    · simp [hc]

theorem follows_repeated (p : Char → Bool) : Follows (repeated (char p)) (takeRun p) := by
  rintro ⟨done, left, pieces⟩
  rw [run_repeated]
  cases left with
  | nil => rfl
  | cons c cs =>
    by_cases hc : p c
    · simp [takeRun, hc, exhaust_char]
    · simp [takeRun, hc]

private theorem run_either_char (ha : a.run = (char p).run) (hb : b.run = (char q).run) :
    (either a b).run = (char fun c => p c || q c).run := by
  funext ⟨done, left, pieces⟩
  simp only [run, ha, hb]
  cases left with
  | nil => rfl
  | cons c cs => by_cases hc : p c <;> simp [hc]

private theorem run_sugarGrammar : TokenClass.sugarGrammar.run = (char isSugar).run := by
  refine (run_either_char rfl (run_either_char rfl (run_either_char rfl rfl))).trans ?_
  congr 2
  funext c
  simp [isSugar, Bool.or_assoc]

private theorem follows_sugarGrammar : Follows TokenClass.sugarGrammar takeSugar := by
  rintro ⟨done, left, pieces⟩
  rw [run_sugarGrammar]
  cases left with
  | nil => rfl
  | cons c cs => by_cases hc : isSugar c <;> simp [takeSugar, hc]

private theorem follows_wordGrammar : Follows TokenClass.wordGrammar (takeRun isWordChar) := by
  intro place
  have one : (either (char Char.isAlphanum) (char (· = '-'))).run = (char isWordChar).run := run_either_char rfl rfl
  have repeats := follows_repeated isWordChar place
  rw [run_repeated] at repeats
  rw [TokenClass.wordGrammar, run, run_repeated, one, repeats, Option.map_map]
  rfl

private theorem follows_integerGrammar : Follows TokenClass.integerGrammar takeInteger := by
  rintro ⟨done, left, pieces⟩
  have digits := follows_repeated Char.isDigit
  cases left with
  | nil => rfl
  | cons c cs =>
    by_cases hc : c = '-'
    · subst hc
      have after_sign : TokenClass.integerGrammar.run ⟨done, '-' :: cs, pieces⟩ =
          (repeated (char Char.isDigit)).run ⟨done ++ ['-'], cs, pieces⟩ := rfl
      rw [after_sign, digits, takeInteger, Option.map_map]
      simp [Function.comp_def]
    · have no_sign : TokenClass.integerGrammar.run ⟨done, c :: cs, pieces⟩ =
          (repeated (char Char.isDigit)).run ⟨done, c :: cs, pieces⟩ := by
        simp [TokenClass.integerGrammar, run, hc]
      have plain : takeInteger (c :: cs) = takeRun Char.isDigit (c :: cs) := by
        unfold takeInteger
        split
        · next h => exact absurd (List.cons.inj h).1 hc
        · rfl
      rw [no_sign, digits, plain]

private theorem match?_of_follows (h : Follows e take) (kind : TokenClass) (text : String) :
    e.match? kind text = (take text.toList).map fun read => ⟨.ofFront kind read.1, []⟩ := by
  rw [match?, h, Option.map_map]
  rfl

/-- Anchored at both ends, an expression has to use up the whole text. -/
private theorem match?_of_anchored (h : Follows e take) (kind : TokenClass) (text : String) :
    (atomic (anchored e)).match? kind text =
      ((take text.toList).bind whole).map fun taken => ⟨.ofFront kind taken, []⟩ := by
  simp only [match?, anchored, run, Cursor.front, if_true, Option.bind_some, h _]
  cases take text.toList with
  | none => rfl
  | some read =>
    obtain ⟨taken, left⟩ := read
    cases left <;> rfl

end ParsingExpr

open ParsingExpr in
/-- The grammar matches what `TokenClass.match?` says. -/
theorem match?_grammar (kind : TokenClass) (text : String) : kind.grammar.match? kind text = kind.match? text := by
  cases kind with
  | sugar => exact match?_of_follows follows_sugarGrammar .sugar text
  | word => exact match?_of_follows follows_wordGrammar .word text
  | atom =>
    simp only [TokenClass.grammar, match?, anchored, run, Cursor.front, if_true, Option.bind_some,
      follows_sugarGrammar _, follows_wordGrammar _, TokenClass.match?, takeAtom]
    -- an operator at the front settles the matter: if something follows it, a word is not tried
    cases takeSugar text.toList with
    | some read =>
      obtain ⟨taken, left⟩ := read
      cases left with
      | nil => simp [whole, Cursor.spanTo, Cursor.offset, Span.ofFront]
      | cons c cs => rfl
    | none =>
      cases takeRun isWordChar text.toList with
      | none => rfl
      | some read =>
        obtain ⟨taken, left⟩ := read
        cases left with
        | nil => simp [whole, Cursor.spanTo, Cursor.offset, Span.ofFront]
        | cons c cs => rfl
  | symbol => exact match?_of_anchored (follows_repeated Char.isAlpha) .symbol text
  | integer => exact match?_of_anchored follows_integerGrammar .integer text
  | endOfText =>
    by_cases empty : text = ""
    · subst empty
      rfl
    · simp [TokenClass.grammar, match?, run, Cursor.front, TokenClass.match?, empty]

/-! ### What the rules match -/

variable {text taken : String} {m : TokenMatch}

theorem match?_atom_iff : TokenClass.atom.match? text = some m ↔
    ∃ kind, (kind = .sugar ∧ text ∈ ["+", "^", "*", "\x27"] ∨ kind = .word ∧ IsWord text) ∧ m = atomMatch kind text := by
  rw [TokenClass.match?, Option.map_eq_some_iff]
  simp only [takeAtom_eq_some_iff, exists_isSugar_iff, isWordChar_iff, Span.ofFront_toList]
  constructor
  · rintro ⟨part, ⟨operator, rfl⟩ | ⟨word, rfl⟩, rfl⟩
    · exact ⟨.sugar, .inl ⟨rfl, operator⟩, rfl⟩
    · exact ⟨.word, .inr ⟨rfl, word⟩, rfl⟩
  · rintro ⟨kind, ⟨rfl, operator⟩ | ⟨rfl, word⟩, rfl⟩
    · exact ⟨_, .inl ⟨operator, rfl⟩, rfl⟩
    · exact ⟨_, .inr ⟨word, rfl⟩, rfl⟩

theorem match?_symbol_iff :
    TokenClass.symbol.match? text = some m ↔ IsSymbol text ∧ m = ⟨.covering .symbol text, []⟩ := by
  rw [TokenClass.match?, Option.map_eq_some_iff]
  simp only [takeRun_bind_whole, and_assoc, exists_eq_left, Span.ofFront_toList]
  rw [IsSymbol, and_assoc, eq_comm]

theorem match?_integer_iff :
    TokenClass.integer.match? text = some m ↔ IsInteger text ∧ m = ⟨.covering .integer text, []⟩ := by
  rw [TokenClass.match?, Option.map_eq_some_iff]
  simp only [takeInteger_bind_whole, and_assoc, exists_eq_left, Span.ofFront_toList]
  rw [IsInteger, eq_comm]

/-- A run at the front is part of the longest run there. -/
private theorem prefix_takeWhile {p : Char → Bool} {front cs : List Char} (h : front <+: cs) (run : ∀ c ∈ front, p c) :
    front <+: cs.takeWhile p := by
  obtain ⟨rest, rfl⟩ := h
  rw [List.takeWhile_append_of_pos run]
  exact List.prefix_append _ _

theorem isLongestWord_iff : IsLongestWord taken text ↔
    taken.toList ≠ [] ∧ taken.toList = text.toList.takeWhile isWordChar := by
  have within : ∀ other : String, other.toList <+: text.toList → IsWord other →
      other.toList <+: text.toList.takeWhile isWordChar :=
    fun other front word => prefix_takeWhile front fun c hc => isWordChar_iff.2 (word.2 c hc)
  have longest_is_word : ∀ c ∈ text.toList.takeWhile isWordChar, c.isAlphanum ∨ c = '-' :=
    fun c hc => isWordChar_iff.1 (List.mem_takeWhile_imp hc)
  constructor
  · rintro ⟨front, word, longest⟩
    have inside := within taken front word
    have nonempty : text.toList.takeWhile isWordChar ≠ [] := fun nil => word.1 (List.prefix_nil.1 (nil ▸ inside))
    have outside := longest (String.ofList (text.toList.takeWhile isWordChar))
    rw [IsWord, String.toList_ofList] at outside
    exact ⟨word.1, inside.eq_of_length_le
      (outside (List.takeWhile_prefix _) ⟨nonempty, longest_is_word⟩).length_le⟩
  · rintro ⟨ne, run⟩
    refine ⟨run ▸ List.takeWhile_prefix _, ⟨ne, ?_⟩, fun other front word => ?_⟩
    · rw [run]
      exact longest_is_word
    · rw [run]
      exact within other front word

theorem match?_word_iff : TokenClass.word.match? text = some m ↔
    ∃ taken, IsLongestWord taken text ∧ m = ⟨.covering .word taken, []⟩ := by
  simp only [isLongestWord_iff, TokenClass.match?, takeRun, List.isEmpty_iff]
  by_cases nil : text.toList.takeWhile isWordChar = []
  · rw [if_pos nil]
    simp [nil]
  · rw [if_neg nil]
    constructor
    · intro h
      obtain rfl := Option.some.inj h
      exact ⟨String.ofList (text.toList.takeWhile isWordChar), by simpa using nil, rfl⟩
    · rintro ⟨taken, ⟨-, run⟩, rfl⟩
      rw [Option.map_some, ← run, Span.ofFront_toList]

theorem accepts_word_iff :
    TokenClass.word.accepts text ↔ ∃ c ∈ text.toList.head?, c.isAlphanum ∨ c = '-' := by
  simp only [TokenClass.accepts, TokenClass.match?, Option.isSome_map, takeRun, ← isWordChar_iff]
  cases text.toList with
  | nil => simp
  | cons c cs => by_cases hc : isWordChar c <;> simp [hc]

/-! ### How the classes lie to each other -/

theorem isWord_of_isSymbol (h : IsSymbol text) : IsWord text :=
  ⟨h.1, fun c hc => .inl (by rw [Char.isAlphanum, h.2 c hc, Bool.true_or])⟩

theorem isWord_of_isInteger (h : IsInteger text) : IsWord text := by
  obtain ⟨digits, ne, all_digits, same⟩ := h
  have alphanumeric : ∀ c ∈ digits, c.isAlphanum ∨ c = '-' := by
    intro c hc
    rw [Char.isAlphanum, all_digits c hc, Bool.or_true]
    exact .inl rfl
  rcases same with same | same
  · rw [IsWord, same]
    exact ⟨ne, alphanumeric⟩
  · rw [IsWord, same]
    exact ⟨List.cons_ne_nil _ _, List.forall_mem_cons.2 ⟨.inr rfl, alphanumeric⟩⟩

/-- In the order of characters, all digits come before all letters. -/
private theorem not_isDigit_of_isAlpha {c : Char} (h : c.isAlpha) : ¬ c.isDigit := by
  have letter : (decide ('A'.val ≤ c.val ∧ c.val ≤ 'Z'.val) || (decide ('a'.val ≤ c.val) && decide (c.val ≤ 'z'.val))) =
    true := h
  simp only [Bool.or_eq_true, Bool.and_eq_true, decide_eq_true_eq, UInt32.le_iff_toNat_le] at letter
  have upper : 'A'.val.toNat = 65 := rfl
  have lower : 'a'.val.toNat = 97 := rfl
  have nine : '9'.toNat = 57 := rfl
  have same : c.toNat = c.val.toNat := rfl
  rw [Char.isDigit_iff_toNat, same]
  omega

/-- An integer has a digit in it, and a symbol has none. -/
theorem not_isInteger_of_isSymbol (h : IsSymbol text) : ¬ IsInteger text := by
  rintro ⟨digits, ne, all_digits, same⟩
  obtain ⟨d, hd⟩ := List.exists_mem_of_ne_nil digits ne
  have in_text : d ∈ text.toList := by
    rcases same with same | same
    · rwa [same]
    · rw [same]
      exact List.mem_cons_of_mem _ hd
  exact not_isDigit_of_isAlpha (h.2 d in_text) (all_digits d hd)

/-- The lexical rules, tried as parsing expressions, match these classes and nothing else.  An atom is a whole text, an
operator or a word, and consists of that one piece with the empty end of the text behind it.  Symbols and integers are
whole texts, too.  A word is matched at the front of any text that starts with one of its characters, and is the longest
one there, whatever follows.  Every symbol and every integer is an atom that consists of a word, and no text is both. -/
theorem grammar_matches :
    (∀ kind text, (TokenClass.grammar kind).match? kind text = kind.match? text) ∧
    (∀ text m, TokenClass.atom.match? text = some m ↔
      ∃ kind, (kind = .sugar ∧ text ∈ ["+", "^", "*", "\x27"] ∨ kind = .word ∧ IsWord text) ∧
        m = atomMatch kind text) ∧
    (∀ text m, TokenClass.symbol.match? text = some m ↔ IsSymbol text ∧ m = ⟨.covering .symbol text, []⟩) ∧
    (∀ text m, TokenClass.integer.match? text = some m ↔ IsInteger text ∧ m = ⟨.covering .integer text, []⟩) ∧
    (∀ text, (TokenClass.word.accepts text ↔ ∃ c ∈ text.toList.head?, c.isAlphanum ∨ c = '-') ∧
      ∀ m, TokenClass.word.match? text = some m ↔
        ∃ taken, IsLongestWord taken text ∧ m = ⟨.covering .word taken, []⟩) ∧
    (∀ text, TokenClass.symbol.accepts text ∨ TokenClass.integer.accepts text →
      TokenClass.atom.match? text = some (atomMatch .word text)) ∧
    ∀ text, ¬ (TokenClass.symbol.accepts text ∧ TokenClass.integer.accepts text) := by
  refine ⟨match?_grammar, fun text m => match?_atom_iff, fun text m => match?_symbol_iff,
    fun text m => match?_integer_iff, fun text => ⟨accepts_word_iff, fun m => match?_word_iff⟩, fun text h => ?_,
    fun text ⟨symbol, integer⟩ => ?_⟩
  · have word : IsWord text := by
      rcases h with symbol | integer
      · exact isWord_of_isSymbol (accepts_symbol_iff.1 symbol)
      · exact isWord_of_isInteger (accepts_integer_iff.1 integer)
    exact match?_atom_iff.2 ⟨.word, .inr ⟨rfl, word⟩, rfl⟩
  · exact not_isInteger_of_isSymbol (accepts_symbol_iff.1 symbol) (accepts_integer_iff.1 integer)

/-- A word is cut off in front of a character outside ASCII, an operator is not followed by anything in an atom, and an
integer with a sign is an atom. -/
theorem grammar_matches_cut :
    TokenClass.word.match? "x-1é2" = some ⟨.covering .word "x-1", []⟩ ∧ TokenClass.atom.match? "x-1é2" = none ∧
      TokenClass.atom.match? "+x" = none ∧ TokenClass.atom.match? "*" = some (atomMatch .sugar "*") ∧
      TokenClass.integer.accepts "-007" ∧ TokenClass.atom.match? "-007" = some (atomMatch .word "-007") := by
  obtain ⟨-, atoms, -, -, -, inner, -⟩ := grammar_matches
  have integer : TokenClass.integer.accepts "-007" := by decide +kernel
  refine ⟨by decide +kernel, by decide +kernel, by decide +kernel, ?_, integer, inner _ (.inr integer)⟩
  exact (atoms _ _).2 ⟨.sugar, .inl ⟨rfl, by decide⟩, rfl⟩

end PolyDeriv
