import PolyDeriv.Poly.Basic
import PolyDeriv.Error

/-!
# Derivatives

The formal derivative with respect to a variable, in which every leaf of the expression leaves its mark: a power
`x ^ n` becomes `n * x ^ (n - 1)`, a constant becomes `0`, and multiples and sums keep their shape.  As one factor
of a multiple is a constant, that is all there is to it.  The derivative is not simplified.

It does not exist if the expression holds a power of another variable, or a power whose exponent is the least
64-bit integer; the leftmost such power decides which error is reported.
-/

namespace PolyDeriv
namespace Poly

/-- The derivative of a power of the variable.  The zeroth power keeps its shape, with coefficient zero. -/
def powerRule (symbol : String) (exponent : Int64) : Except Overflow Poly :=
  if exponent = 0 then .ok (.product 0 (.monomial symbol 0))
  else (predecessor exponent).map fun lowered => .product exponent (.monomial symbol lowered)

mutual

/-- The derivative with respect to a variable. -/
def derivative (var : String) : Poly → Except Error Poly
  | .constant _ => .ok zero
  | .monomial s e => if s = var then (powerRule s e).mapError .overflow else .error (.variableMismatch var s)
  | .product c p => (p.derivative var).map (.product c)
  | .sum terms => (derivativeOfTerms var terms).map .sum

/-- The derivatives of terms. -/
def derivativeOfTerms (var : String) : List Poly → Except Error (List Poly)
  | [] => .ok []
  | p :: ps =>
    match p.derivative var with
    | .ok q => (derivativeOfTerms var ps).map (q :: ·)
    | .error e => .error e

end

theorem derivativeOfTerms_eq (var : String) (terms : List Poly) :
    derivativeOfTerms var terms = terms.mapM (derivative var) := by
  induction terms with
  | nil => rfl
  | cons p ps ih =>
    rw [derivativeOfTerms, List.mapM_cons, ih]
    cases p.derivative var <;> rfl

end Poly
end PolyDeriv
