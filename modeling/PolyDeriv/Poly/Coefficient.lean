import PolyDeriv.Poly.Power

/-!
# Coefficients

Expanding an expression gives an integer coefficient for every power and a constant, whatever their size.  A zeroth
power counts towards the constant; `Poly.coefficientAt` puts the constant in its place, at exponent zero.
-/

namespace PolyDeriv
namespace Poly

mutual

/-- The exact coefficient of a power of a variable, not counting constants. -/
def coefficient (symbol : String) (exponent : Int) : Poly → Int
  | .constant _ => 0
  | .monomial s e => if s = symbol ∧ e.toInt = exponent then 1 else 0
  | .product c p => c.toInt * p.coefficient symbol exponent
  | .sum terms => coefficientOfTerms symbol exponent terms

/-- The coefficients of a power in terms, added up. -/
def coefficientOfTerms (symbol : String) (exponent : Int) : List Poly → Int
  | [] => 0
  | p :: ps => p.coefficient symbol exponent + coefficientOfTerms symbol exponent ps

end

mutual

/-- The exact constant, with all zeroth powers. -/
def constantTerm : Poly → Int
  | .constant c => c.toInt
  | .monomial _ e => if e = 0 then 1 else 0
  | .product c p => c.toInt * p.constantTerm
  | .sum terms => constantTermOfTerms terms

/-- The constants of terms, added up. -/
def constantTermOfTerms : List Poly → Int
  | [] => 0
  | p :: ps => p.constantTerm + constantTermOfTerms ps

end

/-- The coefficient of a power of one variable, where constants are coefficients of the zeroth power. -/
def coefficientAt (symbol : String) (exponent : Int) (p : Poly) : Int :=
  if exponent = 0 then p.constantTerm else p.coefficient symbol exponent

theorem coefficientOfTerms_eq (symbol : String) (exponent : Int) (terms : List Poly) :
    coefficientOfTerms symbol exponent terms =
      terms.foldr (fun p rest => p.coefficient symbol exponent + rest) 0 := by
  induction terms with
  | nil => rfl
  | cons p ps ih => rw [coefficientOfTerms, ih, List.foldr_cons]

theorem constantTermOfTerms_eq (terms : List Poly) :
    constantTermOfTerms terms = terms.foldr (fun p rest => p.constantTerm + rest) 0 := by
  induction terms with
  | nil => rfl
  | cons p ps ih => rw [constantTermOfTerms, ih, List.foldr_cons]

end Poly
end PolyDeriv
