import PolyDeriv.Proofs.Faults
import PolyDeriv.Proofs.Pipeline

/-!
# Characters of messages

Of what characters results and error messages are made.  All of them are printable ASCII (`IsGraphic`), except what is
quoted from the outside: the words of a text that cannot be read, and the variable (`within_message`).  So an error
message holds no character that comes neither from there nor from the wording.

The causes of an error are listed once (`simplifiedDerivativeText_error_causes`), and the wording of each is looked at
piece by piece (`Within.append`, `within_ofList`).
-/

namespace PolyDeriv

/-! ### Characters -/

/-- All characters of a text have a property. -/
def Within (P : Char → Prop) (text : String) : Prop := ∀ c ∈ text.toList, P c

/-- A character that polynomials are written with. -/
def IsNotation (c : Char) : Prop := c.isAlphanum ∨ c ∈ ['-', '+', '^', '*', '\x27', '(', ')', ' ']

instance : DecidablePred IsNotation := fun _ => inferInstanceAs (Decidable (_ ∨ _))

/-- A printable character of ASCII. -/
def IsGraphic (c : Char) : Prop := ' ' ≤ c ∧ c ≤ '~'

instance : DecidablePred IsGraphic := fun _ => inferInstanceAs (Decidable (_ ∧ _))

section

variable {P Q : Char → Prop} {s t : String}

theorem Within.mono (h : Within P s) (himp : ∀ c, P c → Q c) : Within Q s := fun c hc => himp c (h c hc)

theorem Within.append (hs : Within P s) (ht : Within P t) : Within P (s ++ t) := by
  rw [Within, String.toList_append, List.forall_mem_append]
  exact ⟨hs, ht⟩

theorem Within.join {texts : List String} (h : ∀ text ∈ texts, Within P text) : Within P (String.join texts) := by
  induction texts with
  | nil => exact fun c hc => absurd hc List.not_mem_nil
  | cons text texts ih =>
    obtain ⟨head, tail⟩ := List.forall_mem_cons.1 h
    rw [String.join_cons]
    exact head.append (ih tail)

/-- The wording of a message is checked character by character. -/
theorem within_ofList [DecidablePred P] {cs : List Char} (h : cs.all fun c => P c) : Within P (String.ofList cs) := by
  rw [Within, String.toList_ofList]
  simpa using h

end

theorem isGraphic_of_isNotation {c : Char} (h : IsNotation c) : IsGraphic c := by
  rcases h with alphanum | other
  · have tests : ((decide (c.val ≥ 65 ∧ c.val ≤ 90) || (c.val ≥ 97 && c.val ≤ 122)) || (c.val ≥ 48 && c.val ≤ 57)) = true :=
      alphanum
    have ranges : (65 ≤ c.val.toNat ∧ c.val.toNat ≤ 90 ∨ 97 ≤ c.val.toNat ∧ c.val.toNat ≤ 122) ∨
        48 ≤ c.val.toNat ∧ c.val.toNat ≤ 57 := by
      simpa [UInt32.le_iff_toNat_le] using tests
    have lower : ' '.val.toNat = 32 := rfl
    have upper : '~'.val.toNat = 126 := rfl
    rw [IsGraphic, Char.le_def, Char.le_def, UInt32.le_iff_toNat_le, UInt32.le_iff_toNat_le]
    omega
  · simp only [List.mem_cons, List.not_mem_nil, or_false] at other
    rcases other with rfl | rfl | rfl | rfl | rfl | rfl | rfl | rfl <;> decide

theorem ne_colon_of_isNotation {c : Char} (h : IsNotation c) : c ≠ ':' := by
  rintro rfl
  exact absurd h (by decide)

theorem IsAtom.within {text : String} (h : IsAtom text) : Within IsNotation text := by
  rcases h with operator | ⟨-, word⟩
  · simp only [List.mem_cons, List.not_mem_nil, or_false] at operator
    rcases operator with rfl | rfl | rfl | rfl <;> exact within_ofList rfl
  · intro c hc
    rcases word c hc with alphanum | rfl
    · exact .inl alphanum
    · exact .inr (by simp)

/-! ### Printed forms -/

private theorem SExpr.within_renderItems {items : List SExpr} (h : ∀ e ∈ items, Within IsNotation e.render) :
    Within IsNotation (renderItems items) := by
  intro c hc
  rw [toList_renderItems, List.mem_flatMap] at hc
  obtain ⟨e, he, hc⟩ := hc
  rcases List.mem_append.1 hc with hc | hc
  · exact h e he c hc
  · obtain rfl := List.mem_singleton.1 hc
    decide

/-- The notation has no other characters than those of atoms, parentheses and spaces. -/
theorem SExpr.within_render {e : SExpr} (valid : ∀ a ∈ e.atoms, IsAtom a) : Within IsNotation e.render := by
  induction e with
  | atom text => exact (valid text (List.mem_singleton_self text)).within
  | list items ih =>
    have items_within := within_renderItems fun e he => ih e he (valid_list_iff.1 valid e he)
    have opening : Within IsNotation "( " := within_ofList rfl
    have closing : Within IsNotation ")" := within_ofList rfl
    rw [render]
    exact (opening.append items_within).append closing

theorem Poly.within_render {p : Poly} (checked : p.check = .ok ()) : Within IsNotation p.render :=
  SExpr.within_render (valid_of_denotes (denotes_toSExpr checked))

private theorem within_write (n : Int) : Within IsNotation (Decimal.write n) := by
  have spelt : Spells (Decimal.write n).toList n := by
    refine spells_iff.2 ⟨accepts_integer_iff.1 (Decimal.accepts_write n), ?_⟩
    rw [Decimal.write, String.toList_ofList, Decimal.value_chars]
  exact (isAtom_of_spells spelt).within

/-! ### Messages -/

theorem Overflow.within_message (computation : Overflow) : Within IsGraphic computation.message := by
  have number : ∀ n, Within IsGraphic (writeInteger n) := fun n => (within_write _).mono fun _ => isGraphic_of_isNotation
  cases computation with
  | product a b =>
    have sign : Within IsGraphic " * " := within_ofList rfl
    exact ((number a).append sign).append (number b)
  | sum a b =>
    have sign : Within IsGraphic " + " := within_ofList rfl
    exact ((number a).append sign).append (number b)
  | predecessor e =>
    have front : Within IsGraphic "exponent " := within_ofList rfl
    have back : Within IsGraphic " - 1" := within_ofList rfl
    exact (front.append (number e)).append back

namespace SemanticFault

variable {e : SExpr} {fault : SemanticFault} {message : String}

private theorem within_expression (valid : ∀ a ∈ e.atoms, IsAtom a) : Within IsGraphic e.render :=
  (SExpr.within_render valid).mono fun _ => isGraphic_of_isNotation

private theorem within_located (valid : ∀ a ∈ e.atoms, IsAtom a) (h : Within IsGraphic message) :
    Within IsGraphic (located e message) := by
  have front : Within IsGraphic "Semantic error: " := within_ofList rfl
  have middle : Within IsGraphic " in " := within_ofList rfl
  exact ((front.append h).append middle).append (within_expression valid)

/-- The message on an operand quotes the operand, and what is wrong with it. -/
private theorem within_operand {front : String} (hfront : Within IsGraphic front) (valid : ∀ a ∈ e.atoms, IsAtom a)
    (h : Within IsGraphic fault.message) : Within IsGraphic (front ++ e.render ++ ": " ++ located e fault.message) := by
  have colon : Within IsGraphic ": " := within_ofList rfl
  exact ((hfront.append (within_expression valid)).append colon).append (within_located valid h)

private theorem within_integer (role : IntegerRole) (fault : IntegerFault) :
    Within IsGraphic (SemanticFault.integer role fault).message := by
  have name : Within IsGraphic role.name := by
    cases role <;> exact within_ofList rfl
  have wording : Within IsGraphic fault.message := by
    cases fault <;> exact within_ofList rfl
  exact name.append wording

end SemanticFault

namespace Poly

open SemanticFault

/-- The operands of a power are atoms themselves, so that nothing else is quoted of them. -/
private theorem within_message_of_powerOperands {operands : List SExpr}
    (valid : ∀ e ∈ operands, ∀ a ∈ e.atoms, IsAtom a) {fault : SemanticFault}
    (h : ofPowerOperands operands = .error fault) : Within IsGraphic fault.message := by
  have wrong_symbol : ∀ symbol ∈ operands, Within IsGraphic (SemanticFault.nonSymbol symbol).message := by
    intro symbol hmem
    have wording : Within IsGraphic " is not a valid symbol for a monomial" := within_ofList rfl
    exact (within_expression (valid symbol hmem)).append wording
  have wrong_exponent : ∀ exponent ∈ operands, ∀ fault : SemanticFault, Within IsGraphic fault.message →
      Within IsGraphic (SemanticFault.exponent exponent fault).message := by
    intro exponent hmem fault hfault
    have wording : Within IsGraphic "failed to parse exponent: " := within_ofList rfl
    exact wording.append (within_located (valid exponent hmem) hfault)
  unfold ofPowerOperands at h
  split at h
  · split at h
    · split at h
      · split at h
        · exact absurd h (by simp)
        · obtain rfl := Except.error.inj h
          exact wrong_exponent _ (by simp) _ (within_integer _ _)
      · obtain rfl := Except.error.inj h
        exact wrong_exponent _ (by simp) _ (within_ofList rfl)
    · obtain rfl := Except.error.inj h
      exact wrong_symbol _ (by simp)
  · obtain rfl := Except.error.inj h
    exact wrong_symbol _ (by simp)
  · obtain rfl := Except.error.inj h
    exact within_ofList rfl

private theorem within_message_of_meaning {e : SExpr} (valid : ∀ a ∈ e.atoms, IsAtom a) {fault : SemanticFault}
    (h : meaning e = .error fault) : Within IsGraphic fault.message := by
  induction e generalizing fault with
  | atom text =>
    rw [meaning] at h
    split at h
    · exact absurd h (by simp)
    · obtain rfl := Except.error.inj h
      exact within_integer _ _
  | list items ih =>
    cases items with
    | nil =>
      rw [meaning] at h
      obtain rfl := Except.error.inj h
      exact within_ofList rfl
    | cons head operands =>
      have valid_items := SExpr.valid_list_iff.1 valid
      have valid_operands : ∀ e ∈ operands, ∀ a ∈ e.atoms, IsAtom a := fun e he => valid_items e (by simp [he])
      rw [meaning.eq_def] at h
      dsimp only at h
      split at h
      · obtain rfl := Except.error.inj h
        have wording : Within IsGraphic "unknown polynomial form with head " := within_ofList rfl
        exact wording.append (within_expression (valid_items head (by simp)))
      · split at h
        · obtain rfl := Except.error.inj h
          exact within_ofList rfl
        · rw [meaningOfTerms_eq] at h
          obtain ⟨t, ht, h⟩ := exists_of_mapM_eq_error (map_eq_error_iff.1 h)
          obtain ⟨inner, hinner, rfl⟩ := mapError_eq_error_iff.1 h
          have wording : Within IsGraphic "failed to parse term " := within_ofList rfl
          exact within_operand wording (valid_operands t ht) (ih t (by simp [ht]) (valid_operands t ht) hinner)
      · exact within_message_of_powerOperands valid_operands h
      · split at h
        · next left right =>
          have valid_left := valid_operands left (by simp)
          have valid_right := valid_operands right (by simp)
          split at h
          · split at h
            · exact absurd h (by simp)
            · next inner hright =>
              obtain rfl := Except.error.inj h
              have wording : Within IsGraphic "failed to parse " := within_ofList rfl
              exact within_operand wording valid_right (ih right (by simp) valid_right hright)
          · obtain rfl := Except.error.inj h
            have front : Within IsGraphic "left multiplicand " := within_ofList rfl
            have back : Within IsGraphic " must be a constant" := within_ofList rfl
            exact (front.append (within_expression valid_left)).append back
          · next inner hleft =>
            obtain rfl := Except.error.inj h
            have wording : Within IsGraphic "failed to parse left multiplicand: " := within_ofList rfl
            exact wording.append (within_located valid_left (ih left (by simp) valid_left hleft))
        · obtain rfl := Except.error.inj h
          exact within_ofList rfl

end Poly

/-- The message on a text that cannot be read quotes at most one of its tokens. -/
private theorem within_message_of_faultOf {P : Char → Prop} (graphic : ∀ c, IsGraphic c → P c) {text : String}
    (words : ∀ w, .word w ∈ tokensOf text → Within P w) {fault : ParseFault} (h : FaultOf (tokensOf text) fault) :
    Within P fault.message := by
  have wording : ∀ s, Within IsGraphic s → Within P s := fun s hs => hs.mono graphic
  have count : ∀ n, Within P (writeCount n) := fun n =>
    ((within_write n).mono fun _ => isGraphic_of_isNotation).mono graphic
  cases h with
  | @trailing token hmem =>
    have quoted_token : Within P token.text := by
      cases token with
      | opening => exact wording _ (within_ofList rfl)
      | closing => exact wording _ (within_ofList rfl)
      | word w => exact words w hmem
    have front := wording "unexpected \"" (within_ofList rfl)
    have back := wording "\" after a complete S-expression" (within_ofList rfl)
    exact (front.append quoted_token).append back
  | tooDeep =>
    have front := wording tooDeepWords (within_ofList rfl)
    have middle := wording ": more than " (within_ofList rfl)
    have back := wording " levels" (within_ofList rfl)
    exact ((front.append middle).append (count maxDepth)).append back
  | unopened => exact wording _ (within_ofList rfl)
  | @invalidAtom w hmem =>
    have front := wording "invalid atom \"" (within_ofList rfl)
    have back := wording "\"" (within_ofList rfl)
    exact (front.append (words w hmem)).append back
  | unclosed n =>
    have front := wording "mismatched parens, " (within_ofList rfl)
    have back := wording " list(s) never closed" (within_ofList rfl)
    exact (front.append (count n)).append back
  | empty => exact wording _ (within_ofList rfl)

section

variable {P : Char → Prop} {v text s : String} {e : Error}

/-- What a text without a simplified derivative can be at fault for: its tokens, its meaning, a number that is too large,
or a power of another variable. -/
theorem simplifiedDerivativeText_error_causes (h : simplifiedDerivativeText v text = .error e) :
    (∃ fault, FaultOf (tokensOf text) fault ∧ e = .parse fault) ∨
    (∃ expr fault, (∀ a ∈ expr.atoms, IsAtom a) ∧ Poly.meaning expr = .error fault ∧ e = .semantic expr fault) ∨
    (∃ computation, e = .overflow computation) ∨
    ∃ symbol, IsSymbol symbol ∧ e = .variableMismatch v symbol := by
  rcases simplifiedDerivativeText_eq_error_iff.1 h with unread | ⟨p, hp, -⟩
  · rcases bind_eq_error_iff.1 unread with refused | ⟨expr, hexpr, refused⟩
    · obtain ⟨fault, hfault, rfl⟩ := mapError_eq_error_iff.1 refused
      exact .inl ⟨fault, SExpr.fault_of_read hfault, rfl⟩
    · obtain ⟨fault, hfault, rfl⟩ := mapError_eq_error_iff.1 refused
      have valid := (SExpr.read_eq_ok_iff.1 (mapError_eq_ok_iff.1 hexpr)).2.valid
      exact .inr (.inl ⟨expr, fault, valid, hfault, rfl⟩)
  · rcases simplifiedDerivativeText_error_cases hp h with overflow | hderivative
    · exact .inr (.inr (.inl overflow))
    · rcases Poly.derivative_error_cases hderivative with overflow | ⟨r, hr, -, rfl⟩
      · exact .inr (.inr (.inl overflow))
      · have symbol := Poly.isSymbol_of_check (Poly.check_depth_of_read hp).1 r hr
        exact .inr (.inr (.inr ⟨r.symbol, symbol, rfl⟩))

/-- Messages are made of printable ASCII, and of characters of the variable and of words of the text. -/
theorem within_message (graphic : ∀ c, IsGraphic c → P c) (var : Within P v)
    (words : ∀ c ∈ text.toList, ¬ isSeparator c → P c) (h : simplifiedDerivativeText v text = .error e) :
    Within P e.message := by
  rcases simplifiedDerivativeText_error_causes h with
    ⟨fault, hfault, rfl⟩ | ⟨expr, fault, valid, hfault, rfl⟩ | ⟨computation, rfl⟩ | ⟨symbol, hsymbol, rfl⟩
  · have word_within : ∀ w, .word w ∈ tokensOf text → Within P w := by
      intro w hw c hc
      obtain ⟨hmem, -, -, separator⟩ := mem_of_word hw c hc
      exact words c hmem (by simp [separator])
    have front : Within IsGraphic "Parse error: " := within_ofList rfl
    exact (front.mono graphic).append (within_message_of_faultOf graphic word_within hfault)
  · exact (SemanticFault.within_located valid (Poly.within_message_of_meaning valid hfault)).mono graphic
  · have front : Within IsGraphic "Integer overflow: " := within_ofList rfl
    exact (front.append computation.within_message).mono graphic
  · have found : Within IsGraphic symbol := (isAtom_of_isSymbol hsymbol).within.mono fun _ => isGraphic_of_isNotation
    have front : Within IsGraphic
        "cannot differentiate a polynomial function bound in a different variable (bound: " := within_ofList rfl
    have middle : Within IsGraphic ", found: " := within_ofList rfl
    have back : Within IsGraphic ")" := within_ofList rfl
    exact ((((front.mono graphic).append var).append (middle.mono graphic)).append (found.mono graphic)).append
      (back.mono graphic)

/-! ### Results -/

/-- Whatever is printed is a polynomial. -/
theorem exists_checked_of_derivativeText (h : derivativeText v text = .ok s) :
    ∃ p : Poly, p.check = .ok () ∧ p.render = s := by
  obtain ⟨p, hp, d, hd, rfl⟩ := derivativeText_eq_ok_iff.1 h
  exact ⟨d, Poly.check_derivative hd (Poly.check_depth_of_read hp).1, rfl⟩

theorem exists_checked_of_simplifiedText (h : simplifiedText text = .ok s) :
    ∃ p : Poly, p.check = .ok () ∧ p.render = s := by
  obtain ⟨p, hp, q, hq, rfl⟩ := simplifiedText_eq_ok_iff.1 h
  exact ⟨q, Poly.check_simplify hq (Poly.check_depth_of_read hp).1, rfl⟩

theorem exists_checked_of_simplifiedDerivativeText (h : simplifiedDerivativeText v text = .ok s) :
    ∃ p : Poly, p.check = .ok () ∧ p.render = s := by
  obtain ⟨p, hp, d, hd, q, hq, rfl⟩ := simplifiedDerivativeText_eq_ok_iff.1 h
  exact ⟨q, Poly.check_simplify hq (Poly.check_derivative hd (Poly.check_depth_of_read hp).1), rfl⟩

end

end PolyDeriv
