import PolyDeriv.Proofs.Session

/-!
# Lines of a transcript

An answer stays on one line, whatever the line holds that is answered (`Session.within_answer`): the words that a
message quotes hold no separators, and neither the wording nor the colours break a line.  Hence the line feeds of a
transcript can be counted (`Session.count_feeds_shown`): four of the header and the end, one for the prompt behind every
line, and one behind every answer.
-/

namespace PolyDeriv

/-- A character that does not break a line. -/
def IsInline (c : Char) : Prop := c ≠ '\n' ∧ c ≠ '\r'

instance : DecidablePred IsInline := fun _ => inferInstanceAs (Decidable (_ ∧ _))

private theorem isInline_of_isGraphic {c : Char} (h : IsGraphic c) : IsInline c := by
  constructor <;> rintro rfl <;> exact absurd h (by decide)

private theorem isInline_of_not_isSeparator {c : Char} (h : ¬ isSeparator c) : IsInline c := by
  constructor <;> rintro rfl <;> exact h (by decide)

/-- Colours do not break lines. -/
private theorem isInline_of_mem_painted {colour : UInt8} {paren c : Char} (h : IsInline paren)
    (hc : c ∈ painted colour paren) : IsInline c := by
  have switch_on : Within IsInline "\x1b[38;5;" := within_ofList rfl
  have switch_off : Within IsInline "\x1b[0m" := within_ofList rfl
  have digits : ∀ d ∈ Nat.toDigits 10 colour.toNat, IsInline d := by
    intro d hd
    have digit := Nat.isDigit_of_mem_toDigits (by decide) (by decide) hd
    constructor <;> rintro rfl <;> exact absurd digit (by decide)
  simp only [painted, colourOn, List.mem_append, List.mem_cons (a := c) (b := paren), List.mem_singleton] at hc
  rcases hc with ((hc | hc) | rfl) | rfl | hc
  · exact switch_on c (by simpa using hc)
  · exact digits c hc
  · decide
  · exact h
  · exact switch_off c hc

private theorem Coloured.isInline {palette : List UInt8} {cs ds : List Char} (h : Coloured palette cs ds)
    (plain : ∀ c ∈ cs, IsInline c) : ∀ d ∈ ds, IsInline d := by
  induction h with
  | nil => exact plain
  | paren _ _ _ ih =>
    obtain ⟨hc, rest⟩ := List.forall_mem_cons.1 plain
    exact List.forall_mem_append.2 ⟨fun d => isInline_of_mem_painted hc, ih rest⟩
  | other _ _ ih =>
    obtain ⟨hc, rest⟩ := List.forall_mem_cons.1 plain
    exact List.forall_mem_cons.2 ⟨hc, ih rest⟩

private theorem within_display {text : String} (h : Within IsInline text) (coloured : Bool) :
    Within IsInline (display coloured text) := by
  cases coloured with
  | false => exact h
  | true =>
    rcases display_true_cases text with painted_text | ⟨-, unpainted⟩
    · exact (coloured_of_paint painted_text).isInline h
    · rwa [unpainted]

namespace Session

variable {v : String}

/-- An answer has no line breaks, if the variable has none. -/
theorem within_answer (var : Within IsInline v) (coloured : Bool) (line : String) :
    Within IsInline (answer ⟨v, coloured⟩ line) := by
  rcases answer_cases v line with ⟨p, checked, hanswer⟩ | ⟨e, he, hanswer⟩
  · rw [hanswer]
    exact within_display ((Poly.within_render checked).mono fun c hc => isInline_of_isGraphic (isGraphic_of_isNotation hc))
      coloured
  · have front : Within IsInline "Error: " := within_ofList rfl
    rw [hanswer]
    exact front.append (within_message (fun _ => isInline_of_isGraphic) var
      (fun _ _ separator => isInline_of_not_isSeparator separator) he)

private theorem within_answer_of_isSymbol (h : IsSymbol v) (coloured : Bool) (line : String) :
    Within IsInline (answer ⟨v, coloured⟩ line) :=
  within_answer ((isAtom_of_isSymbol h).within.mono fun _ hc => isInline_of_isGraphic (isGraphic_of_isNotation hc))
    coloured line

/-! ### Counting line feeds -/

variable {settings : Settings}

/-- A text that is answered: it has more than separators. -/
def isAnswered (text : String) : Bool := text.toList.any (· ∉ [' ', '\t', '\n', '\r'])

private theorem count_feeds {text : String} (h : Within IsInline text) : text.toList.count '\n' = 0 :=
  List.count_eq_zero.2 fun hmem => (h '\n' hmem).1 rfl

/-- A reply ends one line, and one more if there is an answer. -/
theorem count_feeds_reply (inline : ∀ line, Within IsInline (answer settings line)) (text : String) :
    (reply settings text).toList.count '\n' = (if isAnswered text then 1 else 0) + 1 := by
  have in_prompt : prompt.toList.count '\n' = 0 := by decide
  rw [reply_eq, isAnswered]
  split
  · simp [String.toList_append, List.count_append, count_feeds (inline text), in_prompt]
  · simp [String.toList_append, in_prompt]

theorem count_feeds_replies (inline : ∀ line, Within IsInline (answer settings line)) (texts : List String) :
    (String.join (texts.map (reply settings))).toList.count '\n' = texts.length + texts.countP isAnswered := by
  induction texts with
  | nil => rfl
  | cons text texts ih =>
    rw [List.map_cons, String.join_cons, String.toList_append, List.count_append, ih, count_feeds_reply inline,
      List.length_cons, List.countP_cons]
    omega

theorem count_feeds_shown (inline : ∀ line, Within IsInline (answer settings line)) (texts : List String) :
    (shown settings texts).toList.count '\n' = 3 + texts.length + texts.countP isAnswered := by
  have in_header : header.toList.count '\n' = 3 := by decide
  rw [shown_eq, String.toList_append, List.count_append, in_header, count_feeds_replies inline, Nat.add_assoc]

theorem no_return_shown (inline : ∀ line, Within IsInline (answer settings line)) (texts : List String) :
    Within (· ≠ '\r') (shown settings texts) := by
  have feed : Within (· ≠ '\r') "\n" := within_ofList rfl
  have feeds : Within (· ≠ '\r') "\n\n" := within_ofList rfl
  have in_greeting : Within (· ≠ '\r') greeting := within_ofList rfl
  have in_prompt : Within (· ≠ '\r') prompt := within_ofList rfl
  have in_header : Within (· ≠ '\r') header := ((feed.append in_greeting).append feeds).append in_prompt
  have in_reply : ∀ text, Within (· ≠ '\r') (reply settings text) := by
    intro text
    have in_answer := ((inline text).mono fun c hc => hc.2).append feed
    rw [reply]
    split
    · exact (Within.append (within_ofList rfl) feed).append in_prompt
    · exact (in_answer.append feed).append in_prompt
  rw [shown_eq]
  exact in_header.append (.join (List.forall_mem_map.2 fun text _ => in_reply text))

/-- No answer has a line break in it, with the derivative taken in any symbol.  So the output of a session on a text holds
no carriage return, and four line feeds more than the text has lines and lines that are answered. -/
theorem answer_on_one_line {v : String} (symbol : IsSymbol v) (coloured : Bool) :
    (∀ line, '\n' ∉ (answer ⟨v, coloured⟩ line).toList ∧ '\r' ∉ (answer ⟨v, coloured⟩ line).toList) ∧
    ∀ text : String, (∃ lines : List String, FallsInto (utf8 text) (lines.map utf8)) ∧
      ∀ lines : List String, FallsInto (utf8 text) (lines.map utf8) →
        ∃ output, run ⟨v, coloured⟩ text.toUTF8 = ⟨output, true⟩ ∧
          output.toList.count '\n' = 4 + lines.length + lines.countP isAnswered ∧ '\r' ∉ output.toList := by
  have inline := within_answer_of_isSymbol symbol coloured
  refine ⟨fun line => ⟨fun h => (inline line _ h).1 rfl, fun h => (inline line _ h).2 rfl⟩, fun text => ⟨?_, ?_⟩⟩
  · obtain ⟨lines, hlines⟩ := exists_texts_of_fallsInto (fallsInto_splitLines (utf8 text))
    exact ⟨lines, hlines ▸ fallsInto_splitLines (utf8 text)⟩
  · intro lines hlines
    refine ⟨_, run_of_texts hlines, ?_, fun h => ?_⟩
    · have last : "\n".toList.count '\n' = 1 := by decide
      rw [String.toList_append, List.count_append, count_feeds_shown inline, last]
      omega
    · have feed : Within (· ≠ '\r') "\n" := within_ofList rfl
      exact (no_return_shown inline lines).append feed _ h rfl

/-- A line with a carriage return inside and at its end, a blank one, and one whose last word is not an atom. -/
theorem answer_on_one_line_returns : IsSymbol "x" ∧
    ('\n' ∉ (answer ⟨"x", true⟩ "(^ x\r3 \r(1)\r").toList ∧ '\r' ∉ (answer ⟨"x", true⟩ "(^ x\r3 \r(1)\r").toList) ∧
    FallsInto (utf8 "(^\rx 3)\r\n \r\n(^ x ;\r)") (["(^\rx 3)", " ", "(^ x ;\r)"].map utf8) ∧
      ∃ output, run ⟨"x", true⟩ "(^\rx 3)\r\n \r\n(^ x ;\r)".toUTF8 = ⟨output, true⟩ ∧
        output.toList.count '\n' = 9 ∧ '\r' ∉ output.toList := by
  have symbol : IsSymbol "x" := ⟨by decide, List.all_eq_true.1 (by decide)⟩
  have lines : FallsInto (utf8 "(^\rx 3)\r\n \r\n(^ x ;\r)") (["(^\rx 3)", " ", "(^ x ;\r)"].map utf8) :=
    fallsInto_iff_splitLines.2 (by decide +kernel)
  obtain ⟨answers, sessions⟩ := answer_on_one_line symbol true
  exact ⟨symbol, answers _, lines, (sessions _).2 _ lines⟩

end Session

end PolyDeriv
