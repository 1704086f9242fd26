import PolyDeriv.Poly.Derivative
import PolyDeriv.Proofs.Distribution

/-!
# Derivatives and coefficients

The leftmost power that cannot be differentiated decides the error (`fault?_derivative`), and without one there is a
derivative (`derivative_leftmost`).

An expression that has a derivative is made of constants and powers of the variable, and so is the derivative
(`symbol_of_derivative`).  The coefficient of `v ^ k` in the derivative is `k + 1` times that of `v ^ (k + 1)` in the
expression, for all integers `k` and in exact arithmetic (`coefficientAt_derivative`).
-/

namespace PolyDeriv

namespace Weighing

private theorem power_ofCoefficientAt (symbol : String) (e : Int64) (k : Int) :
    (ofCoefficientAt symbol k).power ⟨symbol, e⟩ = if e.toInt = k then 1 else 0 := by
  unfold ofCoefficientAt
  split
  · next hk =>
    show (if e = 0 then (1 : Int) else 0) = _
    simp only [hk, toInt_eq_zero_iff]
  · next hk =>
    show (if symbol = symbol ∧ e.toInt = k then (1 : Int) else 0) = _
    simp only [true_and]

/-- A constant counts at exponent zero only. -/
private theorem mul_one_ofCoefficientAt (symbol : String) (k : Int) : k * (ofCoefficientAt symbol k).one = 0 := by
  by_cases hk : k = 0
  · rw [hk, zero_mul]
  · have one_eq_zero : (ofCoefficientAt symbol k).one = 0 := by
      rw [← power_zero _ symbol, power_ofCoefficientAt, if_neg]
      exact fun h => hk h.symm
    rw [one_eq_zero, mul_zero]

/-- The power rule, where the power that is counted is one lower in the derivative. -/
private theorem mul_power_ofCoefficientAt (symbol : String) {e lowered : Int64} (h : lowered.toInt = e.toInt - 1)
    (k : Int) : e.toInt * (ofCoefficientAt symbol k).power ⟨symbol, lowered⟩ =
      (k + 1) * (ofCoefficientAt symbol (k + 1)).power ⟨symbol, e⟩ := by
  rw [power_ofCoefficientAt, power_ofCoefficientAt, h]
  by_cases he : e.toInt = k + 1
  · have lowered_eq : e.toInt - 1 = k := by omega
    rw [if_pos lowered_eq, if_pos he, he]
  · have lowered_ne : e.toInt - 1 ≠ k := by omega
    rw [if_neg lowered_ne, if_neg he, mul_zero, mul_zero]

end Weighing

namespace Poly

variable {v : String}

/-- Induction on the steps of differentiation.  What the derivative of a power is depends on whether it is the
zeroth. -/
theorem derivative_induction {motive : Poly → Poly → Prop} (constant : ∀ c, motive (.constant c) zero)
    (zeroth : motive (.monomial v 0) (.product 0 (.monomial v 0)))
    (power : ∀ e lowered, e ≠ 0 → lowered.toInt = e.toInt - 1 →
      motive (.monomial v e) (.product e (.monomial v lowered)))
    (product : ∀ c p d, motive p d → motive (.product c p) (.product c d))
    (sum : ∀ ps ds, List.Forall₂ motive ps ds → motive (.sum ps) (.sum ds))
    {p d : Poly} (h : p.derivative v = .ok d) : motive p d := by
  induction p generalizing d with
  | constant c =>
    rw [derivative] at h
    exact Except.ok.inj h ▸ constant c
  | monomial s e =>
    rw [derivative] at h
    split at h
    · next hs =>
      subst hs
      rw [mapError_eq_ok_iff, powerRule] at h
      split at h
      · next he =>
        subst he
        exact Except.ok.inj h ▸ zeroth
      · next he =>
        obtain ⟨lowered, hlowered, rfl⟩ := map_eq_ok_iff.1 h
        exact power e lowered he (predecessor_eq_ok_iff.1 hlowered)
    · exact absurd h (by simp)
  | product c p ih =>
    rw [derivative] at h
    obtain ⟨d, hd, rfl⟩ := map_eq_ok_iff.1 h
    exact product c p d (ih hd)
  | sum terms ih =>
    rw [derivative] at h
    obtain ⟨ds, hds, rfl⟩ := map_eq_ok_iff.1 h
    rw [derivativeOfTerms_eq, mapM_eq_ok_iff] at hds
    exact sum terms ds (forall₂_of_forall_mem hds fun p hp d hd => ih p hp hd)

end Poly

/-! ### Where there is no derivative -/

namespace Power

/-- Why there is no derivative of a power: it is one of another variable, or else its exponent is the least there is. -/
def obstacle? (v : String) (r : Power) : Option Error :=
  if r.symbol ≠ v then some (.variableMismatch v r.symbol)
  else if r.exponent = Int64.minValue then some (.overflow (.predecessor Int64.minValue))
  else none

theorem obstacle?_eq_none_iff {v : String} {r : Power} :
    r.obstacle? v = none ↔ r.symbol = v ∧ r.exponent ≠ Int64.minValue := by
  unfold obstacle?
  split
  · next hs => simp [hs]
  · next hs =>
    have same : r.symbol = v := not_not.1 hs
    split
    · next he => simp [he]
    · next he => simp [same, he]

theorem obstacle?_eq_some_iff {v : String} {r : Power} {e : Error} : r.obstacle? v = some e ↔
    r.symbol ≠ v ∧ e = .variableMismatch v r.symbol ∨
      r.symbol = v ∧ r.exponent = Int64.minValue ∧ e = .overflow (.predecessor Int64.minValue) := by
  unfold obstacle?
  split
  · next hs => simp [hs, eq_comm]
  · next hs =>
    have same : r.symbol = v := not_not.1 hs
    split
    · next he => simp [same, he, eq_comm]
    · next he => simp [same, he]

end Power

namespace Poly

variable {v : String}

private theorem fault?_powerRule (s : String) (e : Int64) :
    fault? (powerRule s e) = if e = Int64.minValue then some (.predecessor Int64.minValue) else none := by
  unfold powerRule
  split
  · next he =>
    subst he
    rfl
  · rw [fault?_map]
    split
    · next he =>
      rw [fault?_eq_some_iff, predecessor_eq_error_iff, he]
      exact ⟨by decide, rfl⟩
    · next he => exact fault?_eq_none_iff.2 (exists_predecessor_iff.2 he)

/-- The leftmost power that stands in the way decides which error there is. -/
theorem fault?_derivative (v : String) (p : Poly) :
    fault? (p.derivative v) = p.powers.findSome? (Power.obstacle? v) := by
  induction p with
  | constant c => rfl
  | monomial s e =>
    rw [derivative, powers, List.findSome?_singleton, Power.obstacle?]
    by_cases hs : s = v
    · rw [if_pos hs, if_neg (not_not.2 hs), fault?_mapError, fault?_powerRule]
      split <;> rfl
    · rw [if_neg hs, if_pos hs]
      rfl
  | product c p ih => rw [derivative, fault?_map, powers, ih]
  | sum terms ih =>
    rw [derivative, fault?_map, derivativeOfTerms_eq, fault?_mapM, powers, powersOfTerms_eq]
    exact (findSome?_flatMap fun p hp => (ih p hp).symm).symm

/-- A derivative exists unless a power of another variable or one with the least exponent stands in the way. -/
theorem exists_derivative_iff {p : Poly} :
    (∃ d, p.derivative v = .ok d) ↔ ∀ r ∈ p.powers, r.symbol = v ∧ r.exponent ≠ Int64.minValue := by
  simp only [← fault?_eq_none_iff, fault?_derivative, List.findSome?_eq_none_iff, Power.obstacle?_eq_none_iff]

/-- What stands in the way of a derivative: a number that is too small, or a power of another variable. -/
theorem derivative_error_cases {p : Poly} {e : Error} (h : p.derivative v = .error e) :
    (∃ computation, e = .overflow computation) ∨
      ∃ r ∈ p.powers, r.symbol ≠ v ∧ e = .variableMismatch v r.symbol := by
  rw [← fault?_eq_some_iff, fault?_derivative] at h
  obtain ⟨r, hr, hobstacle⟩ := List.exists_of_findSome?_eq_some h
  rcases Power.obstacle?_eq_some_iff.1 hobstacle with ⟨other, rfl⟩ | ⟨-, -, rfl⟩
  · exact .inr ⟨r, hr, other, rfl⟩
  · exact .inl ⟨_, rfl⟩

/-- A derivative exists exactly if every power in the expression is one of the variable, with an exponent above the
least, even if a factor of zero stands in front of it.  Otherwise the leftmost power for which this is not so decides
the error, whatever stands to the right of it: a mismatch if it is one of another variable, and an overflow if it is one
of the variable. -/
theorem derivative_leftmost (v : String) (p : Poly) :
    ((∃ d, p.derivative v = .ok d) ↔ ∀ r ∈ p.powers, r.symbol = v ∧ r.exponent ≠ Int64.minValue) ∧
      ∀ e, p.derivative v = .error e ↔ ∃ before r after, p.powers = before ++ r :: after ∧
        (∀ q ∈ before, q.symbol = v ∧ q.exponent ≠ Int64.minValue) ∧
        (r.symbol ≠ v ∧ e = .variableMismatch v r.symbol ∨
          r.symbol = v ∧ r.exponent = Int64.minValue ∧ e = .overflow (.predecessor Int64.minValue)) := by
  refine ⟨exists_derivative_iff, fun e => ?_⟩
  rw [← fault?_eq_some_iff, fault?_derivative, List.findSome?_eq_some_iff]
  refine exists_congr fun before => exists_congr fun r => exists_congr fun after => and_congr_right fun _ => ?_
  simp only [Power.obstacle?_eq_none_iff]
  rw [and_comm, Power.obstacle?_eq_some_iff]

example : derivative "x" (.sum [.product 0 (.monomial "y" 1), .monomial "x" (-9223372036854775808)]) =
    .error (.variableMismatch "x" "y") := by
  decide +kernel

/-! ### Coefficients -/

/-- Only expressions in the variable have a derivative, and it is one of them. -/
theorem symbol_of_derivative {p d : Poly} (h : p.derivative v = .ok d) :
    (∀ r ∈ p.powers, r.symbol = v) ∧ ∀ r ∈ d.powers, r.symbol = v := by
  constructor
  · refine derivative_induction (motive := fun p _ => ∀ r ∈ p.powers, r.symbol = v) ?_ ?_ ?_ ?_ ?_ h
    · intro c
      simp [powers]
    · simp [powers]
    · intro e lowered _ _
      simp [powers]
    · intro c p d ih
      exact ih
    · intro ps ds ih r hr
      obtain ⟨p, hp, hr⟩ := mem_powers_sum.1 hr
      exact forall_mem_of_forall₂ ih.flip p hp r hr
  · refine derivative_induction (motive := fun _ d => ∀ r ∈ d.powers, r.symbol = v) ?_ ?_ ?_ ?_ ?_ h
    · intro c
      simp [zero, powers]
    · simp [powers]
    · intro e lowered _ _
      simp [powers]
    · intro c p d ih
      exact ih
    · intro ps ds ih r hr
      obtain ⟨d, hd, hr⟩ := mem_powers_sum.1 hr
      exact forall_mem_of_forall₂ ih d hd r hr

/-- A derivative weighs a multiple of what the expression weighs, if the derivatives of the constant one and of powers
do. -/
theorem weight_derivative {M : Type} [AddCommGroup M] {W V : Weighing M} {n : Int} (hone : n • V.one = 0)
    (hpower : ∀ e lowered : Int64, lowered.toInt = e.toInt - 1 →
      e.toInt • W.power ⟨v, lowered⟩ = n • V.power ⟨v, e⟩)
    {p d : Poly} (h : p.derivative v = .ok d) : d.weight W = n • p.weight V := by
  refine derivative_induction (motive := fun p d => d.weight W = n • p.weight V) ?_ ?_ ?_ ?_ ?_ h
  · intro c
    rw [weight_zero, weight, zsmul_comm, hone, zsmul_zero]
  · rw [weight, weight, Weighing.power_zero, hone]
    exact zero_zsmul _
  · intro e lowered _ hlowered
    exact hpower e lowered hlowered
  · intro c p d ih
    rw [weight, weight, ih, zsmul_comm]
  · intro ps ds ih
    rw [weight_sum, weight_sum, weight_of_forall₂ ih]

/-- The derivative is the formal one, coefficient by coefficient. -/
theorem coefficientAt_derivative {p d : Poly} (h : p.derivative v = .ok d) :
    (∀ r ∈ p.powers, r.symbol = v) ∧ (∀ r ∈ d.powers, r.symbol = v) ∧
      ∀ k : Int, d.coefficientAt v k = (k + 1) * p.coefficientAt v (k + 1) := by
  obtain ⟨in_expression, in_derivative⟩ := symbol_of_derivative h
  refine ⟨in_expression, in_derivative, fun k => ?_⟩
  rw [coefficientAt_eq_weight, coefficientAt_eq_weight]
  refine weight_derivative ?_ ?_ h
  · exact Weighing.mul_one_ofCoefficientAt v (k + 1)
  · intro e lowered hlowered
    exact Weighing.mul_power_ofCoefficientAt v hlowered k

/-- `3 (x² + x² + 7) + x⁻¹ + x⁰`, and the highest power there is. -/
theorem coefficientAt_derivative_nested :
    let p : Poly := .sum [.product 3 (.sum [.monomial "x" 2, .monomial "x" 2, .constant 7]), .monomial "x" (-1),
      .monomial "x" 0, .monomial "x" 9223372036854775807]
    let d : Poly := .sum [.product 3 (.sum [.product 2 (.monomial "x" 1), .product 2 (.monomial "x" 1), .constant 0]),
      .product (-1) (.monomial "x" (-2)), .product 0 (.monomial "x" 0),
      .product 9223372036854775807 (.monomial "x" 9223372036854775806)]
    p.derivative "x" = .ok d ∧ (∀ r ∈ p.powers, r.symbol = "x") ∧ (∀ r ∈ d.powers, r.symbol = "x") ∧
      ∀ k : Int, d.coefficientAt "x" k = (k + 1) * p.coefficientAt "x" (k + 1) :=
  ⟨by decide +kernel, coefficientAt_derivative (by decide +kernel)⟩

end Poly
end PolyDeriv
