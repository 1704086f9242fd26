import PolyDeriv.Poly.Basic

/-!
# Denotation

Which S-expression stands for which polynomial, as a relation: the rules of the notation, one by one, without a word
on what happens to an expression that fits none of them.
-/

namespace PolyDeriv

/-- An integer spelt in decimal: digits, perhaps with superfluous zeros, perhaps behind a minus sign. -/
inductive Spells : List Char → Int → Prop
  | natural {digits : List Char} : digits ≠ [] → (∀ c ∈ digits, c.isDigit) →
      Spells digits (Nat.ofDigitChars 10 digits 0)
  | negative {digits : List Char} : digits ≠ [] → (∀ c ∈ digits, c.isDigit) →
      Spells ('-' :: digits) (-(Nat.ofDigitChars 10 digits 0))

/-- A variable's name: one or more letters. -/
def IsSymbol (text : String) : Prop := text.toList ≠ [] ∧ ∀ c ∈ text.toList, c.isAlpha

mutual

/-- An S-expression stands for a polynomial. -/
inductive Denotes : SExpr → Poly → Prop
  | constant {text : String} {c : Int64} : Spells text.toList c.toInt → Denotes (.atom text) (.constant c)
  | monomial {head symbol text : String} {e : Int64} : head = "^" ∨ head = "mon" → IsSymbol symbol →
      Spells text.toList e.toInt → Denotes (.list [.atom head, .atom symbol, .atom text]) (.monomial symbol e)
  | product {head text : String} {c : Int64} {e : SExpr} {p : Poly} : head = "*" ∨ head = "prod" →
      Spells text.toList c.toInt → Denotes e p → Denotes (.list [.atom head, .atom text, e]) (.product c p)
  | sum {head : String} {items : List SExpr} {terms : List Poly} : head = "+" ∨ head = "sum" →
      2 ≤ items.length → DenotesTerms items terms → Denotes (.list (.atom head :: items)) (.sum terms)

/-- S-expressions stand for polynomials, one for one. -/
inductive DenotesTerms : List SExpr → List Poly → Prop
  | nil : DenotesTerms [] []
  | cons {e : SExpr} {p : Poly} {es : List SExpr} {ps : List Poly} : Denotes e p → DenotesTerms es ps →
      DenotesTerms (e :: es) (p :: ps)

end

end PolyDeriv
