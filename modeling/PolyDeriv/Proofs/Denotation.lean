import PolyDeriv.Poly.Check
import PolyDeriv.Poly.Denotation
import PolyDeriv.Poly.Reading
import PolyDeriv.Proofs.Success

/-!
# Reading and denotation

An S-expression is read as the polynomial it stands for, and as no other (`Poly.ofSExpr_eq_ok_iff`).  What is read is
therefore well-formed (`Poly.check_of_denotes`) and as deep as the S-expression (`Poly.depth_of_denotes`).  A list may
be headed by a keyword or by an operator; which one it is has no effect on what is read (`Respelled`).
-/

namespace PolyDeriv

/-! ### Integers, symbols and heads -/

theorem spells_iff {cs : List Char} {n : Int} : Spells cs n ↔
    (∃ digits, digits ≠ [] ∧ (∀ c ∈ digits, c.isDigit) ∧ (cs = digits ∨ cs = '-' :: digits)) ∧
      Decimal.value cs = n := by
  have natural_value : ∀ digits : List Char, (∀ c ∈ digits, c.isDigit) →
      Decimal.value digits = Nat.ofDigitChars 10 digits 0 := by
    intro digits all_digits
    unfold Decimal.value
    split
    · exact absurd (all_digits '-' (by simp)) (by decide)
    · rfl
  constructor
  · rintro (⟨ne, all_digits⟩ | ⟨ne, all_digits⟩)
    · exact ⟨⟨_, ne, all_digits, .inl rfl⟩, natural_value _ all_digits⟩
    · exact ⟨⟨_, ne, all_digits, .inr rfl⟩, rfl⟩
  · rintro ⟨⟨digits, ne, all_digits, rfl | rfl⟩, rfl⟩
    · rw [natural_value cs all_digits]
      exact .natural ne all_digits
    · exact .negative ne all_digits

theorem readInteger_eq_ok_iff {text : String} {n : Int64} : readInteger text = .ok n ↔ Spells text.toList n.toInt := by
  rw [spells_iff, ← accepts_integer_iff, readInteger]
  by_cases h : TokenClass.integer.accepts text
  · rw [if_pos h, eq_comm (a := Decimal.value _), ← narrow?_eq_some_iff]
    cases narrow? (Decimal.value text.toList) <;> simp [h]
  · simp [h]

theorem Form.ofHead?_eq_some_iff {head : SExpr} {form : Form} :
    ofHead? head = some form ↔ ∃ text, head = .atom text ∧ (text = form.sugar ∨ text = form.keyword) := by
  constructor
  · intro h
    cases head with
    | list items => simp [ofHead?] at h
    | atom text =>
      have found := List.find?_some h
      rw [Bool.or_eq_true, decide_eq_true_eq, decide_eq_true_eq] at found
      exact ⟨text, rfl, found.symm⟩
  · rintro ⟨text, rfl, rfl | rfl⟩ <;> cases form <;> rfl

namespace Poly

/-! ### Reading soundly -/

theorem meaningOfTerms_eq_ok_iff {items : List SExpr} {terms : List Poly} :
    meaningOfTerms items = .ok terms ↔ List.Forall₂ (fun e p => meaning e = .ok p) items terms := by
  rw [meaningOfTerms_eq, mapM_eq_ok_iff]
  simp only [mapError_eq_ok_iff]

private theorem denotesTerms_iff {items : List SExpr} {terms : List Poly} :
    DenotesTerms items terms ↔ List.Forall₂ Denotes items terms := by
  constructor
  · intro h
    induction items generalizing terms with
    | nil =>
      cases h
      exact .nil
    | cons e es ih =>
      cases h with
      | cons head tail => exact .cons head (ih tail)
  · intro h
    induction h with
    | nil => exact .nil
    | cons head _ ih => exact .cons head ih

theorem ofPowerOperands_eq_ok_iff {operands : List SExpr} {p : Poly} : ofPowerOperands operands = .ok p ↔
    ∃ symbol text e, operands = [.atom symbol, .atom text] ∧ IsSymbol symbol ∧ Spells text.toList e.toInt ∧
      p = .monomial symbol e := by
  simp only [← readInteger_eq_ok_iff, IsSymbol, ← accepts_symbol_iff]
  constructor
  · intro h
    unfold ofPowerOperands at h
    split at h
    · next symbol exponent =>
      split at h
      · next hsymbol =>
        split at h
        · next text =>
          split at h
          · next e he => exact ⟨symbol, text, e, rfl, hsymbol, he, (Except.ok.inj h).symm⟩
          · exact absurd h (by simp)
        · exact absurd h (by simp)
      · exact absurd h (by simp)
    · exact absurd h (by simp)
    · exact absurd h (by simp)
  · rintro ⟨symbol, text, e, rfl, hsymbol, he, rfl⟩
    simp only [ofPowerOperands, if_pos hsymbol, he]

theorem denotes_of_meaning {e : SExpr} {p : Poly} (h : meaning e = .ok p) : Denotes e p := by
  induction e generalizing p with
  | atom text =>
    rw [meaning] at h
    split at h
    · next c hc =>
      obtain rfl := Except.ok.inj h
      exact .constant (readInteger_eq_ok_iff.1 hc)
    · exact absurd h (by simp)
  | list items ih =>
    cases items with
    | nil => exact absurd h (by simp [meaning])
    | cons head operands =>
      rw [meaning.eq_def] at h
      dsimp only at h
      split at h
      · exact absurd h (by simp)
      · next hform =>
        obtain ⟨name, rfl, hname⟩ := Form.ofHead?_eq_some_iff.1 hform
        split at h
        · exact absurd h (by simp)
        · next hlength =>
          obtain ⟨terms, hterms, rfl⟩ := map_eq_ok_iff.1 h
          have denoted := forall₂_of_forall_mem (meaningOfTerms_eq_ok_iff.1 hterms) fun e he p hp =>
            ih e (by simp [he]) hp
          exact .sum hname (Nat.le_of_not_lt hlength) (denotesTerms_iff.2 denoted)
      · next hform =>
        obtain ⟨name, rfl, hname⟩ := Form.ofHead?_eq_some_iff.1 hform
        obtain ⟨symbol, text, e, rfl, hsymbol, he, rfl⟩ := ofPowerOperands_eq_ok_iff.1 h
        exact .monomial hname hsymbol he
      · next hform =>
        obtain ⟨name, rfl, hname⟩ := Form.ofHead?_eq_some_iff.1 hform
        split at h
        · next left right =>
          split at h
          · next c hleft =>
            split at h
            · next q hright =>
              obtain rfl := Except.ok.inj h
              have left_denotes := ih left (by simp) hleft
              have right_denotes := ih right (by simp) hright
              -- of all expressions, only integers are read as constants
              cases left_denotes with
              | constant spelt => exact .product hname spelt right_denotes
            · exact absurd h (by simp)
          · exact absurd h (by simp)
          · exact absurd h (by simp)
        · exact absurd h (by simp)

/-- Induction on denotation, where the terms of a sum stand in the relation one by one. -/
theorem denotes_induction {motive : SExpr → Poly → Prop}
    (constant : ∀ text c, Spells text.toList c.toInt → motive (.atom text) (.constant c))
    (monomial : ∀ head symbol text e, head = "^" ∨ head = "mon" → IsSymbol symbol → Spells text.toList e.toInt →
      motive (.list [.atom head, .atom symbol, .atom text]) (.monomial symbol e))
    (product : ∀ head text c e p, head = "*" ∨ head = "prod" → Spells text.toList c.toInt → motive e p →
      motive (.list [.atom head, .atom text, e]) (.product c p))
    (sum : ∀ head items terms, head = "+" ∨ head = "sum" → 2 ≤ items.length → List.Forall₂ motive items terms →
      motive (.list (.atom head :: items)) (.sum terms))
    {e : SExpr} {p : Poly} (h : Denotes e p) : motive e p :=
  Denotes.rec (motive_1 := fun e p _ => motive e p) (motive_2 := fun es ps _ => List.Forall₂ motive es ps)
    (fun spelt => constant _ _ spelt) (fun hhead hsymbol spelt => monomial _ _ _ _ hhead hsymbol spelt)
    (fun hhead spelt _ ih => product _ _ _ _ _ hhead spelt ih)
    (fun hhead hlength _ ih => sum _ _ _ hhead hlength ih) .nil (fun _ _ head tail => .cons head tail) h

theorem meaning_sum {head : String} (hhead : head = "+" ∨ head = "sum") {operands : List SExpr}
    (hlength : 2 ≤ operands.length) :
    meaning (.list (.atom head :: operands)) = (meaningOfTerms operands).map sum := by
  have form : Form.ofHead? (.atom head) = some .sum := Form.ofHead?_eq_some_iff.2 ⟨head, rfl, hhead⟩
  rw [meaning.eq_def]
  simp only [form, if_neg (Nat.not_lt.2 hlength)]

theorem meaning_product {head : String} (hhead : head = "*" ∨ head = "prod") (left right : SExpr) :
    meaning (.list [.atom head, left, right]) =
      match meaning left with
      | .ok (.constant c) =>
        match meaning right with
        | .ok p => .ok (.product c p)
        | .error fault => .error (.right right fault)
      | .ok _ => .error (.nonConstant left)
      | .error fault => .error (.left left fault) := by
  have form : Form.ofHead? (.atom head) = some .product := Form.ofHead?_eq_some_iff.2 ⟨head, rfl, hhead⟩
  have unfolded := meaning.eq_def (.list [.atom head, left, right])
  simp only [form] at unfolded
  exact unfolded

theorem meaning_of_denotes {e : SExpr} {p : Poly} (h : Denotes e p) : meaning e = .ok p := by
  have constant : ∀ (text : String) (c : Int64), Spells text.toList c.toInt →
      meaning (.atom text) = .ok (.constant c) := by
    intro text c spelt
    rw [meaning, readInteger_eq_ok_iff.2 spelt]
  refine denotes_induction (motive := fun e p => meaning e = .ok p) constant ?_ ?_ ?_ h
  · intro head symbol text e hhead hsymbol spelt
    have form : Form.ofHead? (.atom head) = some .monomial := Form.ofHead?_eq_some_iff.2 ⟨head, rfl, hhead⟩
    rw [meaning, form]
    exact ofPowerOperands_eq_ok_iff.2 ⟨symbol, text, e, rfl, hsymbol, spelt, rfl⟩
  · intro head text c e p hhead spelt ih
    simp only [meaning_product hhead, constant text c spelt, ih]
  · intro head items terms hhead hlength ih
    rw [meaning_sum hhead hlength, meaningOfTerms_eq_ok_iff.2 ih]
    rfl

theorem ofSExpr_eq_ok_iff {e : SExpr} {p : Poly} : ofSExpr e = .ok p ↔ Denotes e p := by
  rw [ofSExpr, mapError_eq_ok_iff]
  exact ⟨denotes_of_meaning, meaning_of_denotes⟩

/-! ### What can be denoted -/

theorem check_monomial_iff {s : String} {e : Int64} : (monomial s e).check = .ok () ↔ IsSymbol s := by
  rw [check, IsSymbol, ← accepts_symbol_iff]
  split
  · next h => simp [h]
  · next h => simp [h]

theorem depth_of_denotes {e : SExpr} {p : Poly} (h : Denotes e p) : e.depth = p.depth := by
  refine denotes_induction (motive := fun e p => e.depth = p.depth) ?_ ?_ ?_ ?_ h
  · intro text c _
    rfl
  · intro head symbol text e _ _ _
    rfl
  · intro head text c e p _ _ ih
    simp [SExpr.depth, SExpr.depthOfItems, depth, ih]
  · intro head items terms _ hlength ih
    have items_depth : SExpr.depthOfItems items = depthOfTerms terms := by
      clear hlength
      induction ih with
      | nil => rfl
      | cons head _ tail => rw [SExpr.depthOfItems, depthOfTerms, head, tail]
    simp [SExpr.depth, SExpr.depthOfItems, depth, items_depth]

theorem check_of_denotes {e : SExpr} {p : Poly} (h : Denotes e p) : p.check = .ok () := by
  refine denotes_induction (motive := fun _ p => p.check = .ok ()) ?_ ?_ ?_ ?_ h
  · intro text c _
    rfl
  · intro head symbol text e _ hsymbol _
    exact check_monomial_iff.2 hsymbol
  · intro head text c e p _ _ ih
    rwa [check]
  · intro head items terms _ hlength ih
    exact check_sum_iff.2 ⟨ih.length_eq ▸ hlength, forall_mem_of_forall₂ ih⟩

theorem spells_writeInteger (n : Int64) : Spells (writeInteger n).toList n.toInt :=
  readInteger_eq_ok_iff.1 (readInteger_write n)

/-- What a well-formed expression is written as stands for it. -/
theorem denotes_toSExpr {p : Poly} (h : p.check = .ok ()) : Denotes p.toSExpr p := by
  induction p with
  | constant c => exact .constant (spells_writeInteger c)
  | monomial s e => exact .monomial (.inl rfl) (check_monomial_iff.1 h) (spells_writeInteger e)
  | product c p ih =>
    rw [check] at h
    exact .product (.inl rfl) (spells_writeInteger c) (ih h)
  | sum terms ih =>
    obtain ⟨hlength, checked⟩ := check_sum_iff.1 h
    have denoted : List.Forall₂ Denotes (terms.map toSExpr) terms := by
      rw [List.forall₂_map_left_iff, List.forall₂_same]
      exact fun p hp => ih p hp (checked p hp)
    have items_length : 2 ≤ (terms.map toSExpr).length := by rwa [List.length_map]
    rw [toSExpr, toSExprs_eq]
    exact .sum (.inl rfl) items_length (denotesTerms_iff.2 denoted)

end Poly

/-! ### Spelling of heads -/

/-- Two expressions differ at most in the heads of their lists, which are spelt as keyword or as operator. -/
inductive Respelled : SExpr → SExpr → Prop
  | atom (text : String) : Respelled (.atom text) (.atom text)
  | list {items others : List SExpr} : List.Forall₂ Respelled items others → Respelled (.list items) (.list others)
  | form {form : Form} {head other : String} {operands others : List SExpr} :
      head ∈ [form.keyword, form.sugar] → other ∈ [form.keyword, form.sugar] → List.Forall₂ Respelled operands others →
      Respelled (.list (.atom head :: operands)) (.list (.atom other :: others))

namespace Respelled

theorem symm {e f : SExpr} (h : Respelled e f) : Respelled f e := by
  induction e generalizing f with
  | atom text =>
    cases h with
    | atom => exact .atom text
  | list items ih =>
    cases h with
    | list hitems => exact .list (forall₂_of_forall_mem hitems fun e he f hf => ih e he hf).flip
    | form hhead hother hoperands =>
      exact .form hother hhead (forall₂_of_forall_mem hoperands fun e he f hf => ih e (by simp [he]) hf).flip

private theorem eq_atom {text : String} {f : SExpr} (h : Respelled (.atom text) f) : f = .atom text := by
  cases h with
  | atom => rfl

/-- A list of a form stays one of that form. -/
private theorem eq_list (form : Form) {head : String} {operands : List SExpr} {f : SExpr}
    (h : Respelled (.list (.atom head :: operands)) f) (hhead : head = form.sugar ∨ head = form.keyword) :
    ∃ other others, f = .list (.atom other :: others) ∧ (other = form.sugar ∨ other = form.keyword) ∧
      List.Forall₂ Respelled operands others := by
  cases h with
  | list hitems =>
    obtain ⟨other, others, hother, hothers, rfl⟩ := List.forall₂_cons_left_iff.1 hitems
    obtain rfl := hother.eq_atom
    exact ⟨head, others, rfl, hhead, hothers⟩
  | @form form' _ other _ others hhead' hother hothers =>
    have named : ∀ text, text ∈ [form'.keyword, form'.sugar] → Form.ofHead? (.atom text) = some form' := by
      intro text htext
      have spelling : text = form'.keyword ∨ text = form'.sugar := by simpa using htext
      exact Form.ofHead?_eq_some_iff.2 ⟨text, rfl, spelling.symm⟩
    have same : some form' = some form := by
      rw [← named head hhead', Form.ofHead?_eq_some_iff]
      exact ⟨head, rfl, hhead⟩
    have other_named := named other hother
    rw [same] at other_named
    obtain ⟨text, htext, spelling⟩ := Form.ofHead?_eq_some_iff.1 other_named
    obtain rfl := SExpr.atom.inj htext
    exact ⟨_, others, rfl, spelling, hothers⟩

end Respelled

namespace Poly

private theorem denotesTerms_of_respelled {items others : List SExpr} {terms : List Poly}
    (h : List.Forall₂ (fun e p => ∀ f, Respelled e f → Denotes f p) items terms)
    (hothers : List.Forall₂ Respelled items others) : DenotesTerms others terms := by
  induction h generalizing others with
  | nil =>
    obtain rfl := List.forall₂_nil_left_iff.1 hothers
    exact .nil
  | cons head _ tail =>
    obtain ⟨other, rest, hother, hrest, rfl⟩ := List.forall₂_cons_left_iff.1 hothers
    exact .cons (head other hother) (tail hrest)

private theorem denotes_of_respelled {e f : SExpr} {p : Poly} (h : Denotes e p) (hf : Respelled e f) : Denotes f p := by
  refine denotes_induction (motive := fun e p => ∀ f, Respelled e f → Denotes f p) ?_ ?_ ?_ ?_ h f hf
  · intro text c spelt f hf
    obtain rfl := hf.eq_atom
    exact .constant spelt
  · intro head symbol text e hhead hsymbol spelt f hf
    obtain ⟨other, others, rfl, hother, hothers⟩ := hf.eq_list .monomial hhead
    simp only [List.forall₂_cons_left_iff, List.forall₂_nil_left_iff] at hothers
    obtain ⟨_, _, hsymbol', ⟨_, _, hexponent, rfl, rfl⟩, rfl⟩ := hothers
    obtain rfl := hsymbol'.eq_atom
    obtain rfl := hexponent.eq_atom
    exact .monomial hother hsymbol spelt
  · intro head text c e p hhead spelt ih f hf
    obtain ⟨other, others, rfl, hother, hothers⟩ := hf.eq_list .product hhead
    simp only [List.forall₂_cons_left_iff, List.forall₂_nil_left_iff] at hothers
    obtain ⟨_, _, hcoefficient, ⟨_, _, hinner, rfl, rfl⟩, rfl⟩ := hothers
    obtain rfl := hcoefficient.eq_atom
    exact .product hother spelt (ih _ hinner)
  · intro head items terms hhead hlength ih f hf
    obtain ⟨other, others, rfl, hother, hothers⟩ := hf.eq_list .sum hhead
    exact .sum hother (hothers.length_eq ▸ hlength) (denotesTerms_of_respelled ih hothers)

/-- A polynomial is read from exactly the expressions that stand for it, and it makes no difference how the heads of
lists are spelt. -/
theorem ofSExpr_of_denotes (e : SExpr) : (∀ p, ofSExpr e = .ok p ↔ Denotes e p) ∧
    ∀ f, Respelled e f → ∀ p, ofSExpr e = .ok p ↔ ofSExpr f = .ok p := by
  refine ⟨fun p => ofSExpr_eq_ok_iff, fun f hf p => ?_⟩
  rw [ofSExpr_eq_ok_iff, ofSExpr_eq_ok_iff]
  exact ⟨fun h => denotes_of_respelled h hf, fun h => denotes_of_respelled h hf.symm⟩

/-- Leading zeros, both spellings, and a variable that is called like a keyword. -/
example : ofSExpr (.list [.atom "sum", .list [.atom "*", .atom "-007", .list [.atom "^", .atom "sum", .atom "2"]],
    .atom "00"]) = .ok (.sum [.product (-7) (.monomial "sum" 2), .constant 0]) := by decide +kernel

end Poly
end PolyDeriv
