import PolyDeriv.Integer.Decimal
import PolyDeriv.Poly.Form

/-!
# Polynomial expressions

A polynomial expression is a constant, a power of a variable, a constant multiple of an expression, or a sum of
expressions.  The type allows more than the notation can say: a sum of fewer than two terms and a variable that is
not made of letters are values too, and it is `Poly.check` that refuses them.
-/

namespace PolyDeriv

/-- A polynomial expression with 64-bit coefficients and exponents. -/
inductive Poly
  | constant (value : Int64)
  /-- A power of a variable. -/
  | monomial (symbol : String) (exponent : Int64)
  /-- A constant multiple. -/
  | product (coefficient : Int64) (inner : Poly)
  | sum (terms : List Poly)

namespace Poly

/-- Induction on polynomial expressions: a sum may assume the property of each of its terms. -/
@[elab_as_elim, induction_eliminator]
theorem ind {motive : Poly → Prop} (constant : ∀ c, motive (.constant c)) (monomial : ∀ s e, motive (.monomial s e))
    (product : ∀ c p, motive p → motive (.product c p))
    (sum : ∀ terms, (∀ p ∈ terms, motive p) → motive (.sum terms)) (p : Poly) : motive p :=
  Poly.rec (motive_1 := motive) (motive_2 := fun terms => ∀ p ∈ terms, motive p) constant monomial product sum
    (by simp) (fun _ _ head tail => by simpa using ⟨head, tail⟩) p

mutual

/-- Whether two expressions are equal as trees. -/
def decEq : (p q : Poly) → Decidable (p = q)
  | .constant a, .constant b => decidable_of_iff (a = b) (by simp)
  | .monomial s d, .monomial t e => decidable_of_iff (s = t ∧ d = e) (by simp)
  | .product a p, .product b q =>
    match decEq p q with
    | isTrue h => decidable_of_iff (a = b) (by simp [h])
    | isFalse h => isFalse (by simp [h])
  | .sum ps, .sum qs =>
    match decEqTerms ps qs with
    | isTrue h => isTrue (by rw [h])
    | isFalse h => isFalse (by simpa using h)
  | .constant _, .monomial .. | .constant _, .product .. | .constant _, .sum _ => isFalse (by simp)
  | .monomial .., .constant _ | .monomial .., .product .. | .monomial .., .sum _ => isFalse (by simp)
  | .product .., .constant _ | .product .., .monomial .. | .product .., .sum _ => isFalse (by simp)
  | .sum _, .constant _ | .sum _, .monomial .. | .sum _, .product .. => isFalse (by simp)

/-- Whether two lists of terms are equal. -/
def decEqTerms : (ps qs : List Poly) → Decidable (ps = qs)
  | [], [] => isTrue rfl
  | [], _ :: _ => isFalse (by simp)
  | _ :: _, [] => isFalse (by simp)
  | p :: ps, q :: qs =>
    match decEq p q, decEqTerms ps qs with
    | isTrue h, isTrue hs => isTrue (by rw [h, hs])
    | isFalse h, _ => isFalse (by simp [h])
    | _, isFalse hs => isFalse (by simp [hs])

end

instance : DecidableEq Poly := decEq

/-- The constant zero. -/
def zero : Poly := .constant 0

/-- Whether the expression is a multiple. -/
def isProduct : Poly → Bool
  | .product .. => true
  | _ => false

mutual

/-- The S-expression an expression is written as. -/
def toSExpr : Poly → SExpr
  | .constant c => .atom (writeInteger c)
  | .monomial s e => .list [Form.monomial.head, .atom s, .atom (writeInteger e)]
  | .product c p => .list [Form.product.head, .atom (writeInteger c), p.toSExpr]
  | .sum terms => .list (Form.sum.head :: toSExprs terms)

/-- The S-expressions that terms are written as. -/
def toSExprs : List Poly → List SExpr
  | [] => []
  | p :: ps => p.toSExpr :: toSExprs ps

end

theorem toSExprs_eq (terms : List Poly) : toSExprs terms = terms.map toSExpr := by
  induction terms with
  | nil => rfl
  | cons p ps ih => simp [toSExprs, ih]

/-- The printed form. -/
def render (p : Poly) : String := p.toSExpr.render

mutual

/-- How deep the printed form nests its lists. -/
def depth : Poly → Nat
  | .constant _ => 0
  | .monomial .. => 1
  | .product _ p => p.depth + 1
  | .sum terms => depthOfTerms terms + 1

/-- The depth of the deepest term. -/
def depthOfTerms : List Poly → Nat
  | [] => 0
  | p :: ps => max p.depth (depthOfTerms ps)

end

theorem depthOfTerms_le_iff {terms : List Poly} {n : Nat} : depthOfTerms terms ≤ n ↔ ∀ p ∈ terms, p.depth ≤ n := by
  induction terms with
  | nil => simp [depthOfTerms]
  | cons p ps ih =>
    rw [depthOfTerms, Nat.max_le, ih]
    simp

theorem depth_le_depthOfTerms {p : Poly} {terms : List Poly} (h : p ∈ terms) : p.depth ≤ depthOfTerms terms :=
  depthOfTerms_le_iff.1 (Nat.le_refl _) p h

private theorem depthOfItems_toSExprs {terms : List Poly} (h : ∀ p ∈ terms, p.toSExpr.depth = p.depth) :
    SExpr.depthOfItems (toSExprs terms) = depthOfTerms terms := by
  induction terms with
  | nil => rfl
  | cons p ps ih =>
    have head := h p (by simp)
    have tail := ih fun q hq => h q (by simp [hq])
    simp [toSExprs, SExpr.depthOfItems, depthOfTerms, head, tail]

/-- The depth of an expression is that of the S-expression it is written as. -/
theorem depth_toSExpr (p : Poly) : p.toSExpr.depth = p.depth := by
  induction p with
  | constant c => rfl
  | monomial s e => rfl
  | product c p ih => simp [toSExpr, Form.head, SExpr.depth, SExpr.depthOfItems, depth, ih]
  | sum terms ih => simp [toSExpr, Form.head, SExpr.depth, SExpr.depthOfItems, depth, depthOfItems_toSExprs ih]

end Poly
end PolyDeriv
