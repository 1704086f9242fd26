import PolyDeriv.Proofs.Colouring
import PolyDeriv.Proofs.Messages
import PolyDeriv.Session

/-!
# Answers

The answer to a line is a polynomial or an error message.  Polynomials are always shown in colour if that is asked for,
and but for the escape sequences the answer does not depend on the colour (`Session.answer_coloured`).  Only a blank
line could be answered by the complaint that there is no input, and blank lines are not answered
(`Session.answer_ne_empty`).
-/

namespace PolyDeriv

/-! ### Results in colour -/

private theorem IsAtom.not_isParen {text : String} (h : IsAtom text) : ∀ c ∈ text.toList, ¬ IsParen c := by
  intro c hc hparen
  obtain ⟨not_opening, not_closing, -⟩ := h.plain.2 c hc
  exact hparen.elim not_opening not_closing

/-- A printed expression can be painted in any colours. -/
theorem SExpr.exists_paint_render {e : SExpr} (h : ∀ a ∈ e.atoms, ∀ c ∈ a.toList, ¬ IsParen c) {palette : List UInt8}
    (ne : palette ≠ []) : ∃ out, paint palette e.render = .ok out :=
  (exists_paint_iff (mt List.length_eq_zero_iff.1 ne)).2 (openBehind_render h 0)

theorem Poly.paint_render {p : Poly} (checked : p.check = .ok ()) :
    paint defaultPalette p.render = .ok (display true p.render) := by
  have valid := valid_of_denotes (denotes_toSExpr checked)
  have colours : defaultPalette ≠ [] := by decide
  obtain ⟨out, hout⟩ := SExpr.exists_paint_render (fun a ha => (valid a ha).not_isParen) colours
  have shown : display true p.render = out := display_of_paint hout
  rw [shown]
  exact hout

private theorem ne_escape_of_isGraphic {c : Char} (h : IsGraphic c) : c ≠ escape := by
  rintro rfl
  exact absurd h (by decide)

/-! ### The complaint about a text without tokens -/

/-- A text starts with a character. -/
def Leads (c : Char) (text : String) : Prop := text.toList.head? = some c

private theorem leads_ofList {c : Char} {cs : List Char} (h : cs.head? = some c) : Leads c (String.ofList cs) := by
  rw [Leads, String.toList_ofList, h]

theorem Leads.append {c : Char} {s : String} (h : Leads c s) (t : String) : Leads c (s ++ t) := by
  rw [Leads, String.toList_append, List.head?_append, h, Option.some_or]

theorem Leads.unique {c d : Char} {s : String} (hc : Leads c s) (hd : Leads d s) : c = d :=
  Option.some.inj (hc.symm.trans hd)

/-- Only the fault of a text without tokens is worded like this. -/
private theorem ParseFault.eq_empty_of_message {fault : ParseFault} (h : fault.message = "empty input") :
    fault = .empty := by
  have first : Leads 'e' fault.message := by
    rw [h]
    exact leads_ofList rfl
  have unexpected : Leads 'u' "unexpected \"" := leads_ofList rfl
  have too_deep : Leads 'n' tooDeepWords := leads_ofList rfl
  have unopened_paren : Leads 'm' (message .unopened) := leads_ofList rfl
  have invalid : Leads 'i' "invalid atom \"" := leads_ofList rfl
  have unclosed_lists : Leads 'm' "mismatched parens, " := leads_ofList rfl
  have mismatched : Leads 'm' "mismatched parentheses in \"" := leads_ofList rfl
  cases fault with
  | trailing token => exact absurd (((unexpected.append _).append _).unique first) (by decide)
  | tooDeep => exact absurd ((((too_deep.append _).append _).append _).unique first) (by decide)
  | unopened => exact absurd (unopened_paren.unique first) (by decide)
  | invalidAtom text => exact absurd (((invalid.append _).append _).unique first) (by decide)
  | unclosed count => exact absurd (((unclosed_lists.append _).append _).unique first) (by decide)
  | empty => rfl
  | unbalanced text => exact absurd (((mismatched.append _).append _).unique first) (by decide)

private theorem Error.eq_empty_of_message {e : Error} (h : e.message = "Parse error: empty input") :
    e = .parse .empty := by
  have first : Leads 'P' e.message := by
    rw [h]
    exact leads_ofList rfl
  have semantic_error : Leads 'S' "Semantic error: " := leads_ofList rfl
  have mismatch : Leads 'c' "cannot differentiate a polynomial function bound in a different variable (bound: " :=
    leads_ofList rfl
  have violation : Leads 'I' "Invariant violation: " := leads_ofList rfl
  have integer_overflow : Leads 'I' "Integer overflow: " := leads_ofList rfl
  cases e with
  | parse fault =>
    have same : fault.message = "empty input" := (String.append_right_inj "Parse error: ").1 h
    rw [ParseFault.eq_empty_of_message same]
  | semantic expr fault => exact absurd ((((semantic_error.append _).append _).append _).unique first) (by decide)
  | variableMismatch bound found =>
    exact absurd (((((mismatch.append _).append _).append _).append _).unique first) (by decide)
  | invariant fault => exact absurd ((violation.append _).unique first) (by decide)
  | overflow computation => exact absurd ((integer_overflow.append _).unique first) (by decide)

/-- A text that has more than separators is not without tokens. -/
theorem simplifiedDerivativeText_ne_empty {v text : String} (h : ∃ c ∈ text.toList, ¬ isSeparator c) :
    simplifiedDerivativeText v text ≠ .error (.parse .empty) := by
  intro hempty
  rcases simplifiedDerivativeText_error_causes hempty with
    ⟨fault, hfault, heq⟩ | ⟨expr, fault, -, -, heq⟩ | ⟨computation, heq⟩ | ⟨symbol, -, heq⟩
  · obtain rfl := Error.parse.inj heq
    obtain ⟨c, hc, separator⟩ := h
    cases hfault with
    | empty no_tokens => exact separator (tokensOf_eq_nil_iff.1 no_tokens c hc)
  · exact absurd heq (by simp)
  · exact absurd heq (by simp)
  · exact absurd heq (by simp)

/-! ### Answers -/

namespace Session

variable {v line : String}

/-- An answer shows a polynomial, or else it is the message of an error, and the colour has no part in that. -/
theorem answer_cases (v line : String) :
    (∃ p : Poly, p.check = .ok () ∧ ∀ coloured, answer ⟨v, coloured⟩ line = display coloured p.render) ∨
    ∃ e, simplifiedDerivativeText v line = .error e ∧ ∀ coloured, answer ⟨v, coloured⟩ line = "Error: " ++ e.message := by
  cases h : simplifiedDerivativeText v line with
  | ok s =>
    obtain ⟨p, checked, rfl⟩ := exists_checked_of_simplifiedDerivativeText h
    exact .inl ⟨p, checked, fun coloured => by rw [answer, h]⟩
  | error e => exact .inr ⟨e, rfl, fun coloured => by rw [answer, h]⟩

/-- Deleting the escape sequences from an answer in colour leaves the answer without colour. -/
theorem withoutEscapes_answer (var : escape ∉ v.toList) (text : escape ∉ line.toList) :
    withoutEscapes (answer ⟨v, true⟩ line).toList = (answer ⟨v, false⟩ line).toList := by
  have ne_of_mem : ∀ {s : String}, escape ∉ s.toList → Within (· ≠ escape) s := by
    rintro s hs c hc rfl
    exact hs hc
  have not_mem : ∀ {s : String}, Within (· ≠ escape) s → escape ∉ s.toList := fun hs hmem => hs escape hmem rfl
  rcases answer_cases v line with ⟨p, checked, hanswer⟩ | ⟨e, he, hanswer⟩
  · have plain : Within (· ≠ escape) p.render :=
      (Poly.within_render checked).mono fun c hc => ne_escape_of_isGraphic (isGraphic_of_isNotation hc)
    rw [hanswer, hanswer]
    exact (coloured_of_paint (Poly.paint_render checked)).withoutEscapes_eq (not_mem plain)
  · have wording : Within (· ≠ escape) "Error: " := within_ofList rfl
    have message : Within (· ≠ escape) e.message :=
      within_message (fun _ => ne_escape_of_isGraphic) (ne_of_mem var) (fun c hc _ => ne_of_mem text c hc) he
    rw [hanswer, hanswer]
    exact withoutEscapes_of_not_mem (not_mem (wording.append message))

/-- A line that has more than separators is not told to be empty. -/
theorem answer_ne_empty (h : ∃ c ∈ line.toList, ¬ isSeparator c) (coloured : Bool) :
    answer ⟨v, coloured⟩ line ≠ "Error: Parse error: empty input" := by
  intro heq
  rcases answer_cases v line with ⟨p, checked, hanswer⟩ | ⟨e, he, hanswer⟩
  · -- a polynomial is written without colons
    have unpainted : display coloured "Error: Parse error: empty input" = "Error: Parse error: empty input" := by
      cases coloured <;> decide +kernel
    rw [hanswer, ← unpainted] at heq
    have colon : ':' ∈ p.render.toList := by
      rw [display_injective coloured heq]
      decide
    exact ne_colon_of_isNotation (Poly.within_render checked ':' colon) rfl
  · rw [hanswer] at heq
    have same : e.message = "Parse error: empty input" := (String.append_right_inj "Error: ").1 heq
    rw [Error.eq_empty_of_message same] at he
    exact simplifiedDerivativeText_ne_empty h he

/-- Printed expressions can be painted, so that results are shown with all their parentheses in colour.  But for the
colour, answers are the same whether it is asked for or not. -/
theorem answer_coloured :
    (∀ (e : SExpr) (palette : List UInt8), (∀ a ∈ e.atoms, ∀ c ∈ a.toList, ¬ IsParen c) → palette ≠ [] →
      ∃ out, paint palette e.render = .ok out ∧ Coloured palette e.render.toList out.toList) ∧
    (∀ v text s, derivativeText v text = .ok s ∨ simplifiedText text = .ok s ∨ simplifiedDerivativeText v text = .ok s →
      paint defaultPalette s = .ok (display true s) ∧ Coloured defaultPalette s.toList (display true s).toList) ∧
    ∀ v line, escape ∉ v.toList → escape ∉ line.toList →
      withoutEscapes (answer ⟨v, true⟩ line).toList = (answer ⟨v, false⟩ line).toList := by
  refine ⟨?_, ?_, fun v line => withoutEscapes_answer⟩
  · intro e palette paren_free ne
    obtain ⟨out, hout⟩ := SExpr.exists_paint_render paren_free ne
    exact ⟨out, hout, coloured_of_paint hout⟩
  · intro v text s h
    have checked : ∃ p : Poly, p.check = .ok () ∧ p.render = s := by
      rcases h with h | h | h
      · exact exists_checked_of_derivativeText h
      · exact exists_checked_of_simplifiedText h
      · exact exists_checked_of_simplifiedDerivativeText h
    obtain ⟨p, checked, rfl⟩ := checked
    have painted_result := Poly.paint_render checked
    exact ⟨painted_result, coloured_of_paint painted_result⟩

/-- A list of lists in two colours, a derivative, and the complaint about another variable. -/
theorem answer_coloured_nested :
    (∃ out, paint [1, 2] (SExpr.list [.atom "a", .list [.atom "b"]]).render = .ok out ∧
      Coloured [1, 2] (SExpr.list [.atom "a", .list [.atom "b"]]).render.toList out.toList) ∧
    (derivativeText "x" "(^ x 2)" = .ok "( * 2 ( ^ x 1 ) )" ∧
      paint defaultPalette "( * 2 ( ^ x 1 ) )" = .ok (display true "( * 2 ( ^ x 1 ) )") ∧
      Coloured defaultPalette "( * 2 ( ^ x 1 ) )".toList (display true "( * 2 ( ^ x 1 ) )").toList) ∧
    simplifiedDerivativeText "x" "(^ y 2)" = .error (.variableMismatch "x" "y") ∧
      withoutEscapes (answer ⟨"x", true⟩ "(^ y 2)").toList = (answer ⟨"x", false⟩ "(^ y 2)").toList := by
  obtain ⟨expressions, results, lines⟩ := answer_coloured
  have paren_free : ∀ a ∈ (SExpr.list [.atom "a", .list [.atom "b"]]).atoms, ∀ c ∈ a.toList, ¬ IsParen c := by
    simp [SExpr.atoms, SExpr.atomsOfItems, IsParen]
  have derivative : derivativeText "x" "(^ x 2)" = .ok "( * 2 ( ^ x 1 ) )" := by decide +kernel
  refine ⟨expressions _ [1, 2] paren_free (by decide), ⟨derivative, results "x" "(^ x 2)" _ (.inl derivative)⟩, ?_, ?_⟩
  · decide +kernel
  · exact lines "x" "(^ y 2)" (by decide) (by decide)

end Session
end PolyDeriv
