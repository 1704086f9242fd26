import PolyDeriv.Proofs.Canonicity
import PolyDeriv.Proofs.Derivative

/-!
# Derivatives of simplified expressions

The derivative weighs what its expression weighs when powers are weighed by their own derivatives
(`weight_eq_derived`).  Simplification changes no weight, so the expression and its simplified form have derivatives
with the same coefficients (`sameCoefficients_derivative`), and these have one canonical form
(`derivative_simplify_comm`).
-/

namespace PolyDeriv

namespace Weighing

variable {M : Type} [AddCommGroup M]

/-- Weighs every power by its derivative. -/
def derived (W : Weighing M) : Weighing M where
  one := 0
  power p := p.exponent.toInt • W.power ⟨p.symbol, Int64.ofInt (p.exponent.toInt - 1)⟩
  power_zero _ := zero_zsmul _

private theorem power_derived (W : Weighing M) (symbol : String) {e lowered : Int64} (h : lowered.toInt = e.toInt - 1) :
    W.derived.power ⟨symbol, e⟩ = e.toInt • W.power ⟨symbol, lowered⟩ := by
  show e.toInt • W.power ⟨symbol, Int64.ofInt (e.toInt - 1)⟩ = _
  rw [← h, Int64.ofInt_toInt]

end Weighing

namespace Poly

variable {v : String} {p q d dq : Poly}

theorem weight_eq_derived {M : Type} [AddCommGroup M] (W : Weighing M) (h : p.derivative v = .ok d) :
    d.weight W = p.weight W.derived := by
  have one_vanishes : (1 : Int) • W.derived.one = 0 := zsmul_zero 1
  have power_rule : ∀ e lowered : Int64, lowered.toInt = e.toInt - 1 →
      e.toInt • W.power ⟨v, lowered⟩ = (1 : Int) • W.derived.power ⟨v, e⟩ := by
    intro e lowered hlowered
    rw [one_zsmul, W.power_derived v hlowered]
  rw [weight_derivative one_vanishes power_rule h, one_zsmul]

private theorem sameCoefficients_of_weight (h : ∀ W : Weighing Int, p.weight W = q.weight W) :
    p.SameCoefficients q := by
  constructor
  · intro symbol exponent hexponent
    rw [coefficient_eq_weight symbol hexponent, coefficient_eq_weight symbol hexponent, h]
  · rw [constantTerm_eq_weight, constantTerm_eq_weight, h]

theorem sameCoefficients_derivative (hd : p.derivative v = .ok d) (hq : p.simplify = .ok q)
    (hdq : q.derivative v = .ok dq) : d.SameCoefficients dq := by
  apply sameCoefficients_of_weight
  intro W
  rw [weight_eq_derived W hd, weight_eq_derived W hdq, weight_simplify _ hq]

/-- No power stands in the way of a derivative that did not do so before. -/
theorem exists_derivative_of_simplify (hd : p.derivative v = .ok d) (hq : p.simplify = .ok q) :
    ∃ dq, q.derivative v = .ok dq := by
  have powers_allow := exists_derivative_iff.1 ⟨d, hd⟩
  refine exists_derivative_iff.2 fun r hr => powers_allow r ?_
  exact livePowers_subset p r ((mem_powers_simplify hq).1 hr).2

/-- If an expression has a derivative and a simplified form, the simplified form has a derivative as well.  Simplified
twice, the two derivatives are the same, if they can be simplified once. -/
theorem derivative_simplify_comm (hd : p.derivative v = .ok d) (hq : p.simplify = .ok q) :
    ∃ dq, q.derivative v = .ok dq ∧ ∀ r₁ r₂, d.simplify = .ok r₁ → dq.simplify = .ok r₂ →
      ∃ r, r₁.simplify = .ok r ∧ r₂.simplify = .ok r := by
  obtain ⟨dq, hdq⟩ := exists_derivative_of_simplify hd hq
  refine ⟨dq, hdq, fun r₁ r₂ h₁ h₂ => ?_⟩
  obtain ⟨s₁, hs₁, -⟩ := exists_simplify_simplify h₁
  obtain ⟨s₂, hs₂, -⟩ := exists_simplify_simplify h₂
  have same : s₁ = s₂ := (eq_iff_sameCoefficients h₁ hs₁ h₂ hs₂).2 (sameCoefficients_derivative hd hq hdq)
  exact ⟨s₁, hs₁, same ▸ hs₂⟩

/-- `3 (x² + x² + 7) - 6 x² + x⁻¹ + x⁰`, where the squares cancel out before or after they are differentiated. -/
theorem derivative_simplify_comm_cancelled :
    let p : Poly := .sum [.product 3 (.sum [.monomial "x" 2, .monomial "x" 2, .constant 7]),
      .product (-6) (.monomial "x" 2), .monomial "x" (-1), .monomial "x" 0]
    let d : Poly := .sum [.product 3 (.sum [.product 2 (.monomial "x" 1), .product 2 (.monomial "x" 1), .constant 0]),
      .product (-6) (.product 2 (.monomial "x" 1)), .product (-1) (.monomial "x" (-2)), .product 0 (.monomial "x" 0)]
    let q : Poly := .sum [.monomial "x" (-1), .product 0 (.monomial "x" 2), .constant 22]
    p.derivative "x" = .ok d ∧ p.simplify = .ok q ∧
      d.simplify = .ok (.sum [.product (-1) (.monomial "x" (-2)), .product 0 (.monomial "x" 1)]) ∧
      ∃ dq, q.derivative "x" = .ok dq ∧ ∀ r₁ r₂, d.simplify = .ok r₁ → dq.simplify = .ok r₂ →
        ∃ r, r₁.simplify = .ok r ∧ r₂.simplify = .ok r := by
  intro p d q
  have differentiated : p.derivative "x" = .ok d := by decide +kernel
  have simplified : p.simplify = .ok q := by decide +kernel
  exact ⟨differentiated, simplified, by decide +kernel, derivative_simplify_comm differentiated simplified⟩

end Poly
end PolyDeriv
