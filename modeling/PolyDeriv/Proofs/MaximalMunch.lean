import PolyDeriv.Proofs.Faults

/-!
# Runs of word characters

A text may be cut wherever no run of word characters is cut, and then its tokens are those of the one part followed by
those of the other (`tokensOf_append`).  A run is one word, however long it is (`tokensOf_of_plain`).  It follows that
separators can be put in where no run is cut without any effect on what is read (`SExpr.read_append_separators`), and
that nothing else is lost between text and tokens (`flatMap_tokensOf`).
-/

namespace PolyDeriv

/-! ### Scanning in parts -/

namespace Scan

variable {c : Char} {s : Scan}

private theorem close_of_run_nil (h : s.run = []) : s.close = s.tokens := by
  rw [close, h]
  rfl

private theorem close_append (run : List Char) (us ts : List Token) :
    (mk run (us ++ ts)).close = (mk run us).close ++ ts := by
  unfold close
  split <;> rfl

private theorem not_isPlain_cases (h : ¬ IsPlain c) : c = '(' ∨ c = ')' ∨ isSeparator c := by
  by_contra no_case
  obtain ⟨opening, closing_or_separator⟩ := not_or.1 no_case
  obtain ⟨closing, separator⟩ := not_or.1 closing_or_separator
  exact h (isPlain_of_push opening closing separator)

/-- A character that stands in no word is read by itself. -/
private theorem push_of_not_isPlain (h : ¬ IsPlain c) (s : Scan) :
    push c s = ⟨[], (before [] [c]).close ++ s.close⟩ := by
  rcases not_isPlain_cases h with rfl | rfl | separator
  · rfl
  · rfl
  · have opening : c ≠ '(' := by
      rintro rfl
      exact absurd separator (by decide)
    have closing : c ≠ ')' := by
      rintro rfl
      exact absurd separator (by decide)
    simp [push, close, opening, closing, separator]

private theorem push_append (c : Char) (run : List Char) (us ts : List Token) :
    push c ⟨run, us ++ ts⟩ = ⟨(push c ⟨run, us⟩).run, (push c ⟨run, us⟩).tokens ++ ts⟩ := by
  by_cases plain : IsPlain c
  · rw [push_of_plain plain, push_of_plain plain]
  · rw [push_of_not_isPlain plain, push_of_not_isPlain plain, close_append, List.append_assoc]

/-- The tokens that follow a text are left as they are. -/
private theorem before_eq (ts : List Token) (cs : List Char) :
    before ts cs = ⟨(before [] cs).run, (before [] cs).tokens ++ ts⟩ := by
  induction cs with
  | nil => rfl
  | cons c cs ih => rw [before_cons, ih, push_append, before_cons]

private theorem run_before_of_head? {cs : List Char} (h : ∀ c ∈ cs.head?, ¬ IsPlain c) (ts : List Token) :
    (before ts cs).run = [] := by
  cases cs with
  | nil => rfl
  | cons c cs => rw [before_cons, push_of_not_isPlain (h c rfl)]

private theorem close_before_append {as bs : List Char} (h : ∀ c ∈ bs.head?, ¬ IsPlain c) :
    (before [] (as ++ bs)).close = (before [] as).close ++ (before [] bs).close := by
  have no_run : before [] bs = ⟨[], (before [] bs).close⟩ := by
    have run_nil := run_before_of_head? h []
    rw [close_of_run_nil run_nil, ← run_nil]
  rw [before_append_of_nil no_run, before_eq, close_append]

end Scan

/-- A text may be cut anywhere but inside a run of word characters. -/
theorem tokensOf_append {a b : String}
    (h : (∀ c ∈ a.toList.getLast?, ¬ IsPlain c) ∨ ∀ c ∈ b.toList.head?, ¬ IsPlain c) :
    tokensOf (a ++ b) = tokensOf a ++ tokensOf b := by
  unfold tokensOf
  rw [String.toList_append]
  rcases h with last | first
  · rcases List.eq_nil_or_concat a.toList with nil | ⟨front, c, concat⟩
    · rw [nil]
      rfl
    · -- the last character of the first text is read by itself, whatever stands on either side of it
      rw [List.concat_eq_append] at concat
      have not_plain : ¬ IsPlain c := last c (by simp [concat])
      have on_its_own : ∀ cs : List Char, ∀ d ∈ (c :: cs).head?, ¬ IsPlain d := by
        intro cs d hd
        obtain rfl := Option.some.inj hd
        exact not_plain
      rw [concat, List.append_assoc, List.singleton_append, Scan.close_before_append (on_its_own _),
        Scan.close_before_append (on_its_own []), Scan.before_cons, Scan.push_of_not_isPlain not_plain,
        List.append_assoc]
      rfl
  · exact Scan.close_before_append first

/-- A run of word characters is one word. -/
theorem tokensOf_of_plain {w : String} (ne : w.toList ≠ []) (plain : ∀ c ∈ w.toList, IsPlain c) :
    tokensOf w = [.word w] := by
  rw [tokensOf, Scan.before_of_plain plain]
  simp [Scan.close, ne]

/-- Characters that stand in no word cut a text where they stand. -/
theorem tokensOf_append_append {s : String} (ne : s.toList ≠ []) (not_plain : ∀ c ∈ s.toList, ¬ IsPlain c)
    (a b : String) : tokensOf (a ++ s ++ b) = tokensOf a ++ tokensOf s ++ tokensOf b := by
  have first : ∀ c ∈ s.toList.head?, ¬ IsPlain c := fun c hc => not_plain c (List.mem_of_head? hc)
  have last : ∀ c ∈ (a ++ s).toList.getLast?, ¬ IsPlain c := by
    intro c hc
    rw [String.toList_append, List.getLast?_append_of_ne_nil _ ne] at hc
    exact not_plain c (List.mem_of_getLast? hc)
  rw [tokensOf_append (.inl last), tokensOf_append (.inr first)]

/-! ### What tokens consist of -/

namespace Scan

variable {c : Char} {s : Scan}

private theorem flatMap_close (s : Scan) :
    s.close.flatMap (·.text.toList) = s.run ++ s.tokens.flatMap (·.text.toList) := by
  unfold close
  split
  · next nil => rw [List.isEmpty_iff.1 nil, List.nil_append]
  · simp [Token.text]

private theorem flatMap_close_push (c : Char) (s : Scan) : (push c s).close.flatMap (·.text.toList) =
    [c].filter (¬ isSeparator ·) ++ s.close.flatMap (·.text.toList) := by
  by_cases plain : IsPlain c
  · rw [push_of_plain plain, flatMap_close, flatMap_close]
    simp [plain.2.2]
  · rcases not_isPlain_cases plain with rfl | rfl | separator
    · rfl
    · rfl
    · have no_token : (before [] [c]).close = [] := close_push_eq_nil_iff.2 ⟨separator, rfl⟩
      rw [push_of_not_isPlain plain, no_token]
      simp [close, separator]

private theorem word_mem_tokens_push {w : String} (h : .word w ∈ (push c s).tokens) :
    .word w ∈ s.tokens ∨ .word w ∈ s.close := by
  unfold push at h
  split at h
  · exact .inr (by simpa using h)
  · split at h
    · exact .inr (by simpa using h)
    · split at h
      · exact .inr h
      · exact .inl h

private theorem ne_nil_of_word_mem_close {w : String} (words : .word w ∈ s.tokens → w.toList ≠ [])
    (h : .word w ∈ s.close) : w.toList ≠ [] := by
  rcases word_mem_close h with hw | ⟨run, ne⟩
  · exact words hw
  · rwa [run]

private theorem ne_nil_of_word_mem_before {w : String} {cs : List Char} (h : .word w ∈ (before [] cs).tokens) :
    w.toList ≠ [] := by
  induction cs with
  | nil => simp at h
  | cons c cs ih =>
    rcases word_mem_tokens_push h with hw | hw
    · exact ih hw
    · exact ne_nil_of_word_mem_close ih hw

end Scan

/-- The tokens hold the characters of the text, but for the separators. -/
theorem flatMap_tokensOf (text : String) :
    (tokensOf text).flatMap (·.text.toList) = text.toList.filter (¬ isSeparator ·) := by
  unfold tokensOf
  induction text.toList with
  | nil => rfl
  | cons c cs ih =>
    rw [Scan.before_cons, Scan.flatMap_close_push, ih, ← List.filter_append, List.singleton_append]

/-- A token is a parenthesis or a run of word characters. -/
theorem cases_of_mem_tokensOf {text : String} {token : Token} (h : token ∈ tokensOf text) :
    token = .opening ∨ token = .closing ∨ ∃ w, token = .word w ∧ w.toList ≠ [] ∧ ∀ c ∈ w.toList, IsPlain c := by
  cases token with
  | opening => exact .inl rfl
  | closing => exact .inr (.inl rfl)
  | word w =>
    have nonempty := Scan.ne_nil_of_word_mem_close Scan.ne_nil_of_word_mem_before h
    exact .inr (.inr ⟨w, rfl, nonempty, fun c hc => (mem_of_word h c hc).2⟩)

/-! ### Separators that make no difference -/

/-- Separators may be put in wherever they cut no run of word characters. -/
theorem SExpr.read_append_separators {a s b : String} (separators : ∀ c ∈ s.toList, isSeparator c)
    (apart : (∀ c ∈ a.toList.getLast?, ¬ IsPlain c) ∨ ∀ c ∈ b.toList.head?, ¬ IsPlain c) :
    SExpr.read (a ++ s ++ b) = SExpr.read (a ++ b) := by
  have same_tokens : tokensOf (a ++ s ++ b) = tokensOf (a ++ b) := by
    by_cases empty : s.toList = []
    · rw [String.toList_eq_nil_iff.1 empty, String.append_empty]
    · have not_plain : ∀ c ∈ s.toList, ¬ IsPlain c := by
        intro c hc plain
        exact absurd (separators c hc) (by simp [plain.2.2])
      have no_tokens : tokensOf s = [] := tokensOf_eq_nil_iff.2 separators
      rw [tokensOf_append_append empty not_plain, no_tokens, List.append_nil, tokensOf_append apart]
  rw [SExpr.read, SExpr.read, same_tokens]

/-- A text falls into parentheses and runs of word characters, and nothing but its separators is left out.  Separators
and parentheses cut it into parts that are gone through one by one, and a run is never cut.  So separators are ignored
where they stand at an end, beside a parenthesis or beside another separator. -/
theorem tokensOf_maximal :
    (∀ text, (∀ token ∈ tokensOf text, token = .opening ∨ token = .closing ∨
        ∃ w, token = .word w ∧ w.toList ≠ [] ∧ ∀ c ∈ w.toList, IsPlain c) ∧
      (tokensOf text).flatMap (·.text.toList) = text.toList.filter (¬ isSeparator ·)) ∧
    (∀ a b, (∀ c, isSeparator c → tokensOf (a ++ String.singleton c ++ b) = tokensOf a ++ tokensOf b) ∧
      tokensOf (a ++ "(" ++ b) = tokensOf a ++ [.opening] ++ tokensOf b ∧
      tokensOf (a ++ ")" ++ b) = tokensOf a ++ [.closing] ++ tokensOf b ∧
      ∀ w, w.toList ≠ [] → (∀ c ∈ w.toList, IsPlain c) → (∀ c ∈ a.toList.getLast?, ¬ IsPlain c) →
        (∀ c ∈ b.toList.head?, ¬ IsPlain c) → tokensOf (a ++ w ++ b) = tokensOf a ++ [.word w] ++ tokensOf b) ∧
    ∀ a s b, (∀ c ∈ s.toList, isSeparator c) →
      ((∀ c ∈ a.toList.getLast?, ¬ IsPlain c) ∨ ∀ c ∈ b.toList.head?, ¬ IsPlain c) →
      SExpr.read (a ++ s ++ b) = SExpr.read (a ++ b) := by
  refine ⟨fun text => ⟨fun token => cases_of_mem_tokensOf, flatMap_tokensOf text⟩, fun a b => ⟨?_, ?_, ?_, ?_⟩,
    fun a s b => SExpr.read_append_separators⟩
  · intro c separator
    have one : (String.singleton c).toList = [c] := String.toList_singleton c
    have separators : ∀ d ∈ (String.singleton c).toList, isSeparator d := by simpa [one] using separator
    have not_plain : ∀ d ∈ (String.singleton c).toList, ¬ IsPlain d := by simp [one, IsPlain, separator]
    rw [tokensOf_append_append (by simp [one]) not_plain, tokensOf_eq_nil_iff.2 separators, List.append_nil]
  · exact tokensOf_append_append (by decide) (by simp [IsPlain]) a b
  · exact tokensOf_append_append (by decide) (by simp [IsPlain]) a b
  · intro w ne plain last first
    rw [tokensOf_append (.inr first), tokensOf_append (.inl last), tokensOf_of_plain ne plain]

/-- A tab behind an operator, a word outside ASCII between parentheses, and a line break in front of a parenthesis. -/
theorem tokensOf_maximal_packed :
    (isSeparator '\t' ∧ tokensOf ("(+" ++ String.singleton '\t' ++ "é)") = tokensOf "(+" ++ tokensOf "é)") ∧
    ((∀ c ∈ "é-1".toList, IsPlain c) ∧
      tokensOf ("(" ++ "é-1" ++ ")x") = tokensOf "(" ++ [.word "é-1"] ++ tokensOf ")x") ∧
    (∀ c ∈ " \n".toList, isSeparator c) ∧ SExpr.read ("(^ x 1" ++ " \n" ++ ")") = SExpr.read ("(^ x 1" ++ ")") := by
  obtain ⟨-, parts, read⟩ := tokensOf_maximal
  have tab : isSeparator '\t' := by decide
  have word : ∀ c ∈ "é-1".toList, IsPlain c := by simp [IsPlain, isSeparator]
  have blank : ∀ c ∈ " \n".toList, isSeparator c := by simp [isSeparator]
  refine ⟨⟨tab, (parts _ _).1 _ tab⟩, ⟨word, ?_⟩, blank, ?_⟩
  · exact (parts "(" ")x").2.2.2 "é-1" (by decide) word (by simp [IsPlain]) (by simp [IsPlain])
  · exact read _ _ _ blank (.inr (by simp [IsPlain]))

end PolyDeriv
