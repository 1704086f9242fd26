import PolyDeriv.Poly.Check

/-!
# Terms of a sum

Between an expression and the list of its terms: `Poly.summands` takes nested sums apart, `Poly.withoutZeros` removes
zeros from a list, and `Poly.ofSummands` makes one expression of a list again.
-/

namespace PolyDeriv
namespace Poly

mutual

/-- The terms of a sum, with those of the sums among them in their place.  Whatever is not a sum is its own only
term. -/
def summands : Poly → List Poly
  | .constant c => [.constant c]
  | .monomial s e => [.monomial s e]
  | .product c p => [.product c p]
  | .sum terms => summandsOfTerms terms

/-- The summands of terms, one after the other. -/
def summandsOfTerms : List Poly → List Poly
  | [] => []
  | p :: ps => p.summands ++ summandsOfTerms ps

end

theorem summandsOfTerms_eq (terms : List Poly) : summandsOfTerms terms = terms.flatMap summands := by
  induction terms with
  | nil => rfl
  | cons p ps ih => simp [summandsOfTerms, ih]

/-- Removes the zeros from a list of two or more terms. -/
def withoutZeros (terms : List Poly) : List Poly :=
  if terms.length < 2 then terms else terms.filter (· ≠ zero)

/-- One term stands for itself, and any other number of terms for their sum. -/
def ofSummands : List Poly → Except InvariantFault Poly
  | [p] => .ok p
  | terms => ofTerms terms

end Poly
end PolyDeriv
