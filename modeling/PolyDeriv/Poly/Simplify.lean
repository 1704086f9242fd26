import PolyDeriv.Poly.Distribution
import PolyDeriv.Poly.LikeTerms
import PolyDeriv.Poly.Terms

/-!
# Simplification

The simplified form of an expression is a flat sum of multiples of powers, in ascending order, and a constant.  It is
found in five steps: factors are distributed, nested sums taken apart, like terms added up, zeros dropped, and the
terms that are left joined.

A power whose coefficients cancel stays, with coefficient zero; a second simplification removes it.
-/

namespace PolyDeriv
namespace Poly

/-- The simplified form. -/
def simplify (p : Poly) : Except Error Poly := do
  let distributed ← (p.distribute 1).mapError .overflow
  let terms ← (combine distributed.summands).mapError .overflow
  (ofSummands (withoutZeros terms)).mapError .invariant

end Poly
end PolyDeriv
