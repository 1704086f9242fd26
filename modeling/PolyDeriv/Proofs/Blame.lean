import PolyDeriv.Proofs.WellFormedness
import Mathlib.Logic.Relation

/-!
# Operands to blame

An expression that stands for no polynomial is reported as a whole.  Often it is one of its operands that is to blame
(`Poly.Blames`): of a sum the first term that fails, and of a multiple the left factor if it fails, or else the right
one.  The message then ends with the error of that operand (`Poly.message_of_blames`), which may have an operand to
blame in turn.  So the innermost expression that fails is quoted, however deep it stands (`Poly.quotes_of_blames`).
-/

namespace PolyDeriv

/-- A text contains another one. -/
def Quotes (text part : String) : Prop := part.toList <:+: text.toList

private theorem quotes_append (s t u : String) : Quotes (s ++ t ++ u) t := by
  rw [Quotes, String.toList_append, String.toList_append]
  exact List.infix_append _ _ _

private theorem quotes_append_right (s t : String) : Quotes (s ++ t) t := by
  rw [Quotes, String.toList_append]
  exact List.infix_append_right

/-- The error of an expression quotes its fault, and the expression. -/
private theorem quotes_located (e : SExpr) (message : String) :
    Quotes (located e message) message ∧ Quotes (located e message) e.render := by
  constructor
  · have regrouped : located e message = "Semantic error: " ++ message ++ (" in " ++ e.render) :=
      String.append_assoc
    rw [regrouped]
    exact quotes_append "Semantic error: " message _
  · exact quotes_append_right ("Semantic error: " ++ message ++ " in ") e.render

namespace Poly

/-- An expression fails because an operand does, and no operand before it fails. -/
inductive Blames : SExpr → SExpr → Prop
  /-- The first term of a sum that fails. -/
  | term {head : String} {front back : List SExpr} {e : SExpr} : head = "+" ∨ head = "sum" →
      2 ≤ (front ++ e :: back).length → (∀ f ∈ front, ∃ p, buildSExpr f = .ok p) → (∃ err, buildSExpr e = .error err) →
      Blames (.list (.atom head :: (front ++ e :: back))) e
  /-- The left factor of a multiple. -/
  | left {head : String} {left right : SExpr} : head = "*" ∨ head = "prod" → (∃ err, buildSExpr left = .error err) →
      Blames (.list [.atom head, left, right]) left
  /-- The right factor of a multiple, behind a constant. -/
  | right {head : String} {left right : SExpr} {c : Int64} : head = "*" ∨ head = "prod" →
      buildSExpr left = .ok (.constant c) → (∃ err, buildSExpr right = .error err) →
      Blames (.list [.atom head, left, right]) right

variable {e operand : SExpr}

theorem buildSExpr_eq_ok_iff {p : Poly} : buildSExpr e = .ok p ↔ meaning e = .ok p := by
  rw [buildSExpr_eq, ofSExpr, mapError_eq_ok_iff]

theorem buildSExpr_eq_error_iff {err : Error} :
    buildSExpr e = .error err ↔ ∃ fault, meaning e = .error fault ∧ err = .semantic e fault := by
  rw [buildSExpr_eq, ofSExpr, mapError_eq_error_iff]
  simp only [eq_comm]

private theorem exists_error_iff : (∃ err, buildSExpr e = .error err) ↔ ∃ fault, meaning e = .error fault := by
  simp only [buildSExpr_eq_error_iff]
  constructor
  · rintro ⟨-, fault, hfault, -⟩
    exact ⟨fault, hfault⟩
  · rintro ⟨fault, hfault⟩
    exact ⟨_, fault, hfault, rfl⟩

/-! ### Terms that fail -/

/-- Terms fail at the first one that does. -/
theorem meaningOfTerms_eq_error_iff {items : List SExpr} {fault : SemanticFault} :
    meaningOfTerms items = .error fault ↔ ∃ front e back inner, items = front ++ e :: back ∧
      (∀ f ∈ front, ∃ p, meaning f = .ok p) ∧ meaning e = .error inner ∧ fault = .term e inner := by
  rw [← fault?_eq_some_iff, meaningOfTerms_eq, fault?_mapM, List.findSome?_eq_some_iff]
  simp only [fault?_mapError, Option.map_eq_some_iff, Option.map_eq_none_iff, fault?_eq_some_iff, fault?_eq_none_iff]
  constructor
  · rintro ⟨front, e, back, rfl, ⟨inner, hinner, rfl⟩, hfront⟩
    exact ⟨front, e, back, inner, rfl, hfront, hinner, rfl⟩
  · rintro ⟨front, e, back, inner, rfl, hfront, hinner, rfl⟩
    exact ⟨front, e, back, rfl, ⟨inner, hinner, rfl⟩, hfront⟩

/-! ### The cause in the message -/

/-- The fault of an expression holds the operand that is to blame, with its own fault. -/
private theorem cause_of_blames (h : Blames e operand) : ∃ inner, meaning operand = .error inner ∧
    (meaning e = .error (.term operand inner) ∨ meaning e = .error (.left operand inner) ∨
      meaning e = .error (.right operand inner)) := by
  cases h with
  | @term head front back _ hhead hlength hfront hfails =>
    obtain ⟨inner, hinner⟩ := exists_error_iff.1 hfails
    have front_read : ∀ f ∈ front, ∃ p, meaning f = .ok p := by simpa only [buildSExpr_eq_ok_iff] using hfront
    have terms_fail : meaningOfTerms (front ++ operand :: back) = .error (.term operand inner) :=
      meaningOfTerms_eq_error_iff.2 ⟨front, operand, back, inner, rfl, front_read, hinner, rfl⟩
    refine ⟨inner, hinner, .inl ?_⟩
    rw [meaning_sum hhead hlength, terms_fail]
    rfl
  | left hhead hfails =>
    obtain ⟨inner, hinner⟩ := exists_error_iff.1 hfails
    refine ⟨inner, hinner, .inr (.inl ?_)⟩
    rw [meaning_product hhead, hinner]
  | right hhead hleft hfails =>
    obtain ⟨inner, hinner⟩ := exists_error_iff.1 hfails
    refine ⟨inner, hinner, .inr (.inr ?_)⟩
    rw [meaning_product hhead, buildSExpr_eq_ok_iff.1 hleft, hinner]

/-- The message of an expression ends with the error of the operand that is to blame. -/
theorem message_of_blames (h : Blames e operand) : ∃ fault inner front, meaning e = .error fault ∧
    meaning operand = .error inner ∧ fault.message = front ++ ": " ++ located operand inner.message := by
  obtain ⟨inner, hinner, hfault | hfault | hfault⟩ := cause_of_blames h
  · exact ⟨_, inner, "failed to parse term " ++ operand.render, hfault, hinner, rfl⟩
  · exact ⟨_, inner, "failed to parse left multiplicand", hfault, hinner, rfl⟩
  · exact ⟨_, inner, "failed to parse " ++ operand.render, hfault, hinner, rfl⟩

theorem Blames.unique {other : SExpr} (h : Blames e operand) (hother : Blames e other) : operand = other := by
  obtain ⟨inner, -, hfault⟩ := cause_of_blames h
  obtain ⟨otherInner, -, hotherFault⟩ := cause_of_blames hother
  rcases hfault with hfault | hfault | hfault <;> rcases hotherFault with hotherFault | hotherFault | hotherFault <;>
    cases hfault.symm.trans hotherFault <;> rfl

/-- What is to blame for the operand to blame is quoted along with it. -/
theorem quotes_of_blames {last : SExpr} (h : Relation.TransGen Blames e last) :
    ∃ fault, meaning e = .error fault ∧ Quotes fault.message last.render := by
  induction h using Relation.TransGen.head_induction_on with
  | single hlast =>
    obtain ⟨fault, inner, front, hfault, -, hmessage⟩ := message_of_blames hlast
    refine ⟨fault, hfault, ?_⟩
    rw [hmessage]
    exact (quotes_located _ _).2.trans (quotes_append_right _ _)
  | head hoperand _ ih =>
    obtain ⟨fault, inner, front, hfault, hinner, hmessage⟩ := message_of_blames hoperand
    obtain ⟨innerFault, hinnerFault, quoted⟩ := ih
    obtain rfl := Except.error.inj (hinnerFault.symm.trans hinner)
    refine ⟨fault, hfault, ?_⟩
    rw [hmessage]
    exact (quoted.trans (quotes_located _ _).1).trans (quotes_append_right _ _)

/-! ### Finding the operand to blame -/

/-- In a sum that fails there is always a term to blame. -/
private theorem exists_blames_of_sum {head : String} {operands : List SExpr} (hhead : head = "+" ∨ head = "sum")
    (hlength : 2 ≤ operands.length) (h : ∃ err, buildSExpr (.list (.atom head :: operands)) = .error err) :
    ∃ operand, Blames (.list (.atom head :: operands)) operand := by
  obtain ⟨fault, hfault⟩ := exists_error_iff.1 h
  rw [meaning_sum hhead hlength, map_eq_error_iff] at hfault
  obtain ⟨front, e, back, inner, rfl, hfront, hinner, -⟩ := meaningOfTerms_eq_error_iff.1 hfault
  have front_built : ∀ f ∈ front, ∃ p, buildSExpr f = .ok p := by simpa only [buildSExpr_eq_ok_iff] using hfront
  exact ⟨e, .term hhead hlength front_built (exists_error_iff.2 ⟨inner, hinner⟩)⟩

private theorem mem_of_blames {items : List SExpr} (h : Blames (.list items) operand) : operand ∈ items := by
  cases h with
  | term => simp
  | left => simp
  | right => simp

/-- An operand to blame is smaller than the expression, so that there is a last one. -/
private theorem exists_last_of_blames (h : Blames e operand) :
    ∃ last, Relation.TransGen Blames e last ∧ ∀ f, ¬ Blames last f := by
  induction e generalizing operand with
  | atom text => cases h
  | list items ih =>
    by_cases further : ∃ f, Blames operand f
    · obtain ⟨f, hf⟩ := further
      obtain ⟨last, hlast, innermost⟩ := ih operand (mem_of_blames h) hf
      exact ⟨last, .head h hlast, innermost⟩
    · exact ⟨operand, .single h, not_exists.1 further⟩

/-- What fails to be read is reported as a whole.  If there is an operand to blame, the message ends with the error of
that operand, so that it also quotes the operand that is to blame for that, and so on down to the last one.  In a sum
of two terms or more there always is one. -/
theorem buildSExpr_blames (e : SExpr) :
    buildSExpr e = ofSExpr e ∧
    (∀ err, buildSExpr e = .error err →
      ∃ fault, err = .semantic e fault ∧ err.message = "Semantic error: " ++ fault.message ++ " in " ++ e.render) ∧
    (∀ head operands, e = .list (.atom head :: operands) → head = "+" ∨ head = "sum" → 2 ≤ operands.length →
      (∃ err, buildSExpr e = .error err) → ∃ operand, Blames e operand) ∧
    (∀ a b, Blames e a → Blames e b → a = b) ∧
    (∀ operand, Blames e operand → ∃ fault err front, buildSExpr e = .error (.semantic e fault) ∧
      buildSExpr operand = .error err ∧ fault.message = front ++ ": " ++ err.message ∧
      ∃ last, Relation.TransGen Blames e last ∧ ∀ f, ¬ Blames last f) ∧
    ∀ last, Relation.TransGen Blames e last → ∃ fault, buildSExpr e = .error (.semantic e fault) ∧
      Quotes fault.message last.render := by
  refine ⟨buildSExpr_eq e, ?_, ?_, fun a b => Blames.unique, ?_, ?_⟩
  · intro err herr
    obtain ⟨fault, hfault, rfl⟩ := buildSExpr_eq_error_iff.1 herr
    exact ⟨fault, rfl, rfl⟩
  · rintro head operands rfl hhead hlength hfails
    exact exists_blames_of_sum hhead hlength hfails
  · intro operand h
    obtain ⟨fault, inner, front, hfault, hinner, hmessage⟩ := message_of_blames h
    exact ⟨fault, .semantic operand inner, front, buildSExpr_eq_error_iff.2 ⟨fault, hfault, rfl⟩,
      buildSExpr_eq_error_iff.2 ⟨inner, hinner, rfl⟩, hmessage, exists_last_of_blames h⟩
  · intro last h
    obtain ⟨fault, hfault, quoted⟩ := quotes_of_blames h
    exact ⟨fault, buildSExpr_eq_error_iff.2 ⟨fault, hfault, rfl⟩, quoted⟩

/-- `y` is no exponent, which is to blame for a multiple and in turn for a sum. -/
theorem buildSExpr_blames_nested :
    let power : SExpr := .list [.atom "^", .atom "x", .atom "y"]
    let multiple : SExpr := .list [.atom "*", .atom "2", power]
    let whole : SExpr := .list [.atom "+", .atom "1", multiple]
    Blames whole multiple ∧ Blames multiple power ∧
      ∃ fault, buildSExpr whole = .error (.semantic whole fault) ∧ Quotes fault.message power.render := by
  intro power multiple whole
  have two : buildSExpr (.atom "2") = .ok (.constant 2) := by decide +kernel
  have one : ∀ f ∈ [SExpr.atom "1"], ∃ p, buildSExpr f = .ok p :=
    List.forall_mem_singleton.2 ⟨.constant 1, by decide +kernel⟩
  have power_fails : ∃ err, buildSExpr power = .error err := ⟨_, rfl⟩
  have for_multiple : Blames multiple power := .right (.inl rfl) two power_fails
  have for_whole : Blames whole multiple := @Blames.term "+" [.atom "1"] [] multiple (.inl rfl) (by decide) one ⟨_, rfl⟩
  exact ⟨for_whole, for_multiple, (buildSExpr_blames whole).2.2.2.2.2 power (.head for_whole (.single for_multiple))⟩

end Poly
end PolyDeriv
