import PolyDeriv.Poly.Derivative
import PolyDeriv.Poly.Reading
import PolyDeriv.Poly.Simplify

/-!
# Evaluation of texts

What the operations on polynomials do to texts: read a polynomial, work on it, and print the result.
-/

namespace PolyDeriv

/-- The derivative of a polynomial, as it comes. -/
def derivativeText (var text : String) : Except Error String := do
  let p ← Poly.read text
  let d ← p.derivative var
  return d.render

/-- The simplified form of a polynomial. -/
def simplifiedText (text : String) : Except Error String := do
  let p ← Poly.read text
  let q ← p.simplify
  return q.render

/-- The simplified form of the derivative of a polynomial. -/
def simplifiedDerivativeText (var text : String) : Except Error String := do
  let p ← Poly.read text
  let d ← p.derivative var
  let q ← d.simplify
  return q.render

/-- The variable used unless another one is chosen. -/
def defaultVariable : String := "x"

end PolyDeriv
