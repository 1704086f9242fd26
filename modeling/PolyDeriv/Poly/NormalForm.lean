import PolyDeriv.Poly.Power

/-!
# Normal form

The shape that simplified expressions have: multiples of powers in ascending order, no zeroth power among them, and
at most one constant behind them, which is zero only if it stands alone.  A coefficient of one is not written; a
coefficient of zero may be there.
-/

namespace PolyDeriv
namespace Poly

/-- The power that a term in normal form is a multiple of. -/
def power? : Poly → Option Power
  | .monomial s e => some ⟨s, e⟩
  | .product c (.monomial s e) => if c = 1 then none else some ⟨s, e⟩
  | _ => none

/-- Lists of terms in normal form, given by the powers that occur and the constants behind them. -/
structure NormalTerms (terms : List Poly) (powers : List Power) (constants : List Int64) : Prop where
  split : ∃ multiples, multiples.map power? = powers.map some ∧ terms = multiples ++ constants.map .constant
  ascending : powers.Pairwise (· < ·)
  proper : ∀ p ∈ powers, p.exponent ≠ 0
  at_most_one : constants.length ≤ 1
  nonzero : 0 ∈ constants → powers = []

/-- One term in normal form, or a sum of two or more. -/
def IsNormal (p : Poly) : Prop :=
  ∃ terms powers constants, NormalTerms terms powers constants ∧
    (terms = [p] ∨ 2 ≤ terms.length ∧ p = .sum terms)

theorem power?_scale (c : Int64) (p : Power) : (p.scale c).power? = some p := by
  unfold Power.scale
  split
  · rfl
  · next h => simp [power?, h]

end Poly
end PolyDeriv
