import PolyDeriv.Poly.Power

/-!
# Values

An expression has a value once every power has one.  The values of powers are chosen freely, so that the value of an
expression says more than its values at points: two powers of one variable need not have anything to do with each
other.  Evaluation at a non-zero point is the case where `x ^ n` gets the `n`-th power of a number; all that is asked
of a choice in general is that a zeroth power is worth one (`Unital`).
-/

namespace PolyDeriv

/-- A choice of values under which a zeroth power is worth one. -/
def Unital (w : Power → Rat) : Prop := ∀ symbol, w ⟨symbol, 0⟩ = 1

namespace Poly

mutual

/-- The value of an expression, in exact arithmetic. -/
def value (w : Power → Rat) : Poly → Rat
  | .constant c => c.toInt
  | .monomial s e => w ⟨s, e⟩
  | .product c p => c.toInt * p.value w
  | .sum terms => valueOfTerms w terms

/-- The sum of the values of terms. -/
def valueOfTerms (w : Power → Rat) : List Poly → Rat
  | [] => 0
  | p :: ps => p.value w + valueOfTerms w ps

end

theorem valueOfTerms_eq (w : Power → Rat) (terms : List Poly) :
    valueOfTerms w terms = terms.foldr (fun p rest => p.value w + rest) 0 := by
  induction terms with
  | nil => rfl
  | cons p ps ih => rw [valueOfTerms, ih, List.foldr_cons]

end Poly
end PolyDeriv
