import Mathlib.Algebra.BigOperators.Group.List.Basic
import Mathlib.Algebra.Field.Rat
import Mathlib.Data.Int.Cast.Lemmas
import PolyDeriv.Poly.Coefficient
import PolyDeriv.Poly.Value

/-!
# Weights

A weighing gives every power a weight in some additive group, and every zeroth power the weight of the constant one.
The weight of an expression follows: multiples and sums are weighed by their parts.  Values, coefficients and constant
terms are weights (`value_eq_weight`, `coefficient_eq_weight`, `constantTerm_eq_weight`), so that a law of weights is
a law of all of them.
-/

namespace PolyDeriv

/-- Weights of powers.  A zeroth power weighs as much as the constant one. -/
structure Weighing (M : Type) where
  one : M
  power : Power → M
  power_zero : ∀ symbol, power ⟨symbol, 0⟩ = one

namespace Poly

variable {M : Type} [AddCommGroup M]

mutual

/-- The weight of an expression. -/
def weight (W : Weighing M) : Poly → M
  | .constant c => c.toInt • W.one
  | .monomial s e => W.power ⟨s, e⟩
  | .product c p => c.toInt • p.weight W
  | .sum terms => weightOfTerms W terms

/-- The weights of terms, added up. -/
def weightOfTerms (W : Weighing M) : List Poly → M
  | [] => 0
  | p :: ps => p.weight W + weightOfTerms W ps

end

private theorem weightOfTerms_eq (W : Weighing M) (terms : List Poly) :
    weightOfTerms W terms = (terms.map (weight W)).sum := by
  induction terms with
  | nil => rfl
  | cons p ps ih => rw [weightOfTerms, ih, List.map_cons, List.sum_cons]

theorem weight_sum (W : Weighing M) (terms : List Poly) :
    (sum terms).weight W = (terms.map (weight W)).sum := by
  rw [weight, weightOfTerms_eq]

@[simp] theorem weight_zero (W : Weighing M) : zero.weight W = 0 := by
  show (0 : Int) • W.one = 0
  exact zero_zsmul _

/-- A multiple of a power weighs that multiple of what the power weighs. -/
theorem weight_scale (W : Weighing M) (c : Int64) (p : Power) : (p.scale c).weight W = c.toInt • W.power p := by
  unfold Power.scale
  split
  · next h =>
    rw [h, weight]
    exact (one_zsmul _).symm
  · rfl

/-- The weight is the only function that treats constants, powers, multiples and sums as it does. -/
theorem eq_weight (W : Weighing M) {f : Poly → M} (constant : ∀ c, f (.constant c) = c.toInt • W.one)
    (monomial : ∀ s e, f (.monomial s e) = W.power ⟨s, e⟩) (product : ∀ c p, f (.product c p) = c.toInt • f p)
    (sum : ∀ terms, f (.sum terms) = (terms.map f).sum) (p : Poly) : f p = p.weight W := by
  induction p with
  | constant c => exact constant c
  | monomial s e => exact monomial s e
  | product c p ih => rw [product, ih, weight]
  | sum terms ih => rw [sum, weight_sum, List.map_congr_left ih]

end Poly

/-! ### Values and coefficients -/

namespace Weighing

/-- A power weighs what it is worth. -/
def ofValues (w : Power → Rat) (h : Unital w) : Weighing Rat := ⟨1, w, h⟩

/-- One power weighs one, and nothing else weighs anything. -/
def ofCoefficient (symbol : String) (exponent : Int) (h : exponent ≠ 0) : Weighing Int where
  one := 0
  power p := if p.symbol = symbol ∧ p.exponent.toInt = exponent then 1 else 0
  power_zero _ := if_neg fun hs => h hs.2.symm

/-- Zeroth powers weigh one, and other powers nothing. -/
def ofConstant : Weighing Int where
  one := 1
  power p := if p.exponent = 0 then 1 else 0
  power_zero _ := if_pos rfl

/-- The weighing behind `Poly.coefficientAt`. -/
def ofCoefficientAt (symbol : String) (exponent : Int) : Weighing Int :=
  if h : exponent = 0 then ofConstant else ofCoefficient symbol exponent h

end Weighing

namespace Poly

theorem value_eq_weight {w : Power → Rat} (h : Unital w) (p : Poly) : p.value w = p.weight (.ofValues w h) := by
  apply eq_weight
  · intro c
    show (c.toInt : Rat) = c.toInt • (1 : Rat)
    rw [zsmul_one]
  · intro s e
    rfl
  · intro c p
    rw [value, zsmul_eq_mul]
  · intro terms
    rw [value, valueOfTerms_eq, List.sum_eq_foldr, List.foldr_map]

theorem coefficient_eq_weight (symbol : String) {exponent : Int} (h : exponent ≠ 0) (p : Poly) :
    p.coefficient symbol exponent = p.weight (.ofCoefficient symbol exponent h) := by
  apply eq_weight
  · intro c
    exact (mul_zero _).symm
  · intro s e
    rfl
  · intro c p
    rfl
  · intro terms
    rw [coefficient, coefficientOfTerms_eq, List.sum_eq_foldr, List.foldr_map]

theorem constantTerm_eq_weight (p : Poly) : p.constantTerm = p.weight .ofConstant := by
  apply eq_weight
  · intro c
    exact (mul_one _).symm
  · intro s e
    rfl
  · intro c p
    rfl
  · intro terms
    rw [constantTerm, constantTermOfTerms_eq, List.sum_eq_foldr, List.foldr_map]

theorem coefficientAt_eq_weight (symbol : String) (exponent : Int) (p : Poly) :
    p.coefficientAt symbol exponent = p.weight (.ofCoefficientAt symbol exponent) := by
  unfold coefficientAt Weighing.ofCoefficientAt
  split
  · exact constantTerm_eq_weight p
  · next h => exact coefficient_eq_weight symbol h p

end Poly
end PolyDeriv
