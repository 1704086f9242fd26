import PolyDeriv.Poly.Basic
import PolyDeriv.Error

/-!
# Well-formed expressions

`Poly.check` accepts the expressions that the notation can write: every sum has at least two terms, and every
variable is made of letters.  A node is looked at before its operands, and operands from left to right.
-/

namespace PolyDeriv
namespace Poly

mutual

/-- Checks a whole expression. -/
def check : Poly → Except InvariantFault Unit
  | .constant _ => .ok ()
  | .monomial s _ => if TokenClass.symbol.accepts s then .ok () else .error (.nonSymbol s)
  | .product _ p => p.check
  | .sum terms => if terms.length < 2 then .error (.shortSum terms.length) else checkTerms terms

/-- Checks terms up to the first that is not well formed. -/
def checkTerms : List Poly → Except InvariantFault Unit
  | [] => .ok ()
  | p :: ps =>
    match p.check with
    | .ok () => checkTerms ps
    | .error fault => .error fault

end

/-- The sum of the given terms, if that is well formed. -/
def ofTerms (terms : List Poly) : Except InvariantFault Poly := (check (.sum terms)).map fun _ => .sum terms

theorem checkTerms_eq_ok_iff {terms : List Poly} : checkTerms terms = .ok () ↔ ∀ p ∈ terms, p.check = .ok () := by
  induction terms with
  | nil => simp [checkTerms]
  | cons p ps ih =>
    rw [checkTerms]
    split
    · next h => simp [h, ih]
    · next h => simp [h]

theorem check_sum_iff {terms : List Poly} :
    (sum terms).check = .ok () ↔ 2 ≤ terms.length ∧ ∀ p ∈ terms, p.check = .ok () := by
  rw [check, ← checkTerms_eq_ok_iff]
  split
  · next h => simp [Nat.not_le.2 h]
  · next h => simp [Nat.not_lt.1 h]

end Poly
end PolyDeriv
