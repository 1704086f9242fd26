import PolyDeriv.Proofs.Commutation
import PolyDeriv.Proofs.SimplifiedText

/-!
# Repeated derivatives

The simplified derivative of a text is a text, which has a simplified derivative in turn.  Every round lowers the bound
on the exponents of an ordinary polynomial by one (`Poly.ordinary_derivative`), and leaves an ordinary polynomial to be
read by the next round (`exists_ordinary_of_rounds`).  Once all exponents are zero, the next text is `0`
(`repeatedDerivativeText_ends`).

A zeroth power in the derivative stems from a first power, because the zeroth powers of the expression are multiplied by
zero (`Poly.mem_livePowers_derivative`), and it goes into the constant when the derivative is simplified.
-/

namespace PolyDeriv

/-- The text after so many rounds, each of which takes the simplified derivative of the text before it. -/
def repeatedDerivativeText (var text : String) : Nat → Except Error String
  | 0 => .ok text
  | n + 1 => do simplifiedDerivativeText var (← repeatedDerivativeText var text n)

namespace Poly

/-- All powers are powers of the variable, with exponents between zero and `n`. -/
def Ordinary (var : String) (n : Nat) (p : Poly) : Prop :=
  ∀ r ∈ p.powers, r.symbol = var ∧ 0 ≤ r.exponent.toInt ∧ r.exponent.toInt ≤ n

variable {v : String} {p d q : Poly}

/-! ### Powers of a derivative -/

/-- A power in the derivative that no zero erases is one below a power of the expression, and that is not a zeroth
one. -/
theorem mem_livePowers_derivative (h : p.derivative v = .ok d) : ∀ r ∈ d.livePowers,
    ∃ r' ∈ p.powers, r'.exponent.toInt ≠ 0 ∧ r.exponent.toInt = r'.exponent.toInt - 1 := by
  refine derivative_induction (motive := fun p d => ∀ r ∈ d.livePowers,
    ∃ r' ∈ p.powers, r'.exponent.toInt ≠ 0 ∧ r.exponent.toInt = r'.exponent.toInt - 1) ?_ ?_ ?_ ?_ ?_ h
  · intro c
    simp [zero, livePowers]
  · simp [livePowers]
  · intro e lowered he hlowered r hr
    obtain rfl : r = ⟨v, lowered⟩ := by simpa [livePowers, he] using hr
    exact ⟨⟨v, e⟩, List.mem_singleton_self _, mt toInt_eq_zero_iff.1 he, hlowered⟩
  · intro c p d ih r hr
    exact ih r (mem_livePowers_product.1 hr).2
  · intro ps ds ih r hr
    obtain ⟨d, hd, hr⟩ := mem_livePowers_sum.1 hr
    obtain ⟨p, hp, has_source⟩ := exists_mem_of_forall₂ ih d hd
    obtain ⟨r', hr', lowered⟩ := has_source r hr
    exact ⟨r', mem_powers_sum.2 ⟨p, hp, hr'⟩, lowered⟩

/-- The simplified derivative of an ordinary polynomial is ordinary, and its exponents are lower. -/
theorem ordinary_derivative {n : Nat} (ordinary : p.Ordinary v n) (hd : p.derivative v = .ok d)
    (hq : d.simplify = .ok q) : q.Ordinary v (n - 1) := by
  intro r hr
  obtain ⟨r', hr', nonzero, lowered⟩ := mem_livePowers_derivative hd r ((mem_powers_simplify hq).1 hr).2
  obtain ⟨-, lower, upper⟩ := ordinary r' hr'
  refine ⟨symbol_of_simplify_derivative hd hq r hr, ?_, ?_⟩
  · omega
  · omega

/-! ### The last round -/

private theorem weight_eq_zero {M : Type} [AddCommGroup M] {W : Weighing M} (hone : W.one = 0)
    (hpowers : ∀ r ∈ p.powers, W.power r = 0) : p.weight W = 0 := by
  induction p with
  | constant c => rw [weight, hone, zsmul_zero]
  | monomial s e => exact hpowers ⟨s, e⟩ (List.mem_singleton_self _)
  | product c p ih => rw [weight, ih hpowers, zsmul_zero]
  | sum terms ih =>
    rw [weight_sum]
    refine List.sum_eq_zero fun m hm => ?_
    obtain ⟨p, hp, rfl⟩ := List.mem_map.1 hm
    exact ih p hp fun r hr => hpowers r (mem_powers_sum.2 ⟨p, hp, hr⟩)

/-- Zeroth powers weigh nothing when they are weighed by their derivatives. -/
private theorem weight_derivative_eq_zero {M : Type} [AddCommGroup M] (W : Weighing M) (ordinary : p.Ordinary v 0)
    (hd : p.derivative v = .ok d) : d.weight W = 0 := by
  rw [weight_eq_derived W hd]
  refine weight_eq_zero rfl fun r hr => ?_
  obtain ⟨s, e⟩ := r
  obtain ⟨-, lower, upper⟩ := ordinary ⟨s, e⟩ hr
  obtain rfl : e = 0 := toInt_eq_zero_iff.1 (Int.le_antisymm upper lower)
  exact W.derived.power_zero s

/-- Without powers, a simplified form is a constant. -/
theorem eq_constant_of_simplify (h : p.simplify = .ok q) (none_left : ∀ r, r ∉ q.powers) : ∃ c, q = .constant c := by
  obtain ⟨x, written, -⟩ := exists_expansion h
  have nil : x.powers = [] := by
    rw [← List.map_eq_nil_iff (f := (·.1)), List.eq_nil_iff_forall_not_mem]
    intro r hr
    exact none_left r ((mem_powers_ofSummands written).2 (Expansion.mem_powers_terms.2 hr))
  rw [Expansion.terms_of_nil nil] at written
  exact ⟨_, (Except.ok.inj written).symm⟩

/-- The simplified derivative of a polynomial with zeroth powers only is zero. -/
theorem eq_zero_of_ordinary_zero (ordinary : p.Ordinary v 0) (hd : p.derivative v = .ok d)
    (hq : d.simplify = .ok q) : q = zero := by
  have none_left : ∀ r, r ∉ q.powers := by
    intro r hr
    obtain ⟨nonzero, live⟩ := (mem_powers_simplify hq).1 hr
    obtain ⟨r', hr', nonzeroth, -⟩ := mem_livePowers_derivative hd r live
    obtain ⟨-, lower, upper⟩ := ordinary r' hr'
    exact nonzeroth (Int.le_antisymm upper lower)
  obtain ⟨c, rfl⟩ := eq_constant_of_simplify hq none_left
  have weightless : c.toInt * 1 = 0 := by
    have same := weight_simplify .ofConstant hq
    rwa [weight_derivative_eq_zero _ ordinary hd] at same
  rw [mul_one, toInt_eq_zero_iff] at weightless
  rw [weightless, zero]

end Poly

/-! ### Rounds -/

section

variable {v text s : String} {p : Poly} {n : Nat}

theorem repeatedDerivativeText_succ_eq_ok_iff {k : Nat} : repeatedDerivativeText v text (k + 1) = .ok s ↔
    ∃ t, repeatedDerivativeText v text k = .ok t ∧ simplifiedDerivativeText v t = .ok s := bind_eq_ok_iff

/-- What a round does to a polynomial. -/
private theorem stages_of_round (hp : Poly.read text = .ok p) (h : simplifiedDerivativeText v text = .ok s) :
    ∃ d q, p.derivative v = .ok d ∧ d.simplify = .ok q ∧ q.render = s ∧ Poly.read s = .ok q := by
  obtain ⟨p', hp', d, hd, q, hq, rfl⟩ := simplifiedDerivativeText_eq_ok_iff.1 h
  obtain rfl : p = p' := Except.ok.inj (hp.symm.trans hp')
  exact ⟨d, q, hd, hq, rfl, read_render_simplify_derivative hp hd hq⟩

/-- After any number of rounds there is an ordinary polynomial to read, with exponents that are lower by that number. -/
theorem exists_ordinary_of_rounds (hp : Poly.read text = .ok p) (ordinary : p.Ordinary v n) {k : Nat}
    (h : repeatedDerivativeText v text k = .ok s) : ∃ q, Poly.read s = .ok q ∧ q.Ordinary v (n - k) := by
  induction k generalizing s with
  | zero =>
    obtain rfl := Except.ok.inj h
    exact ⟨p, hp, ordinary⟩
  | succ k ih =>
    obtain ⟨t, ht, h⟩ := repeatedDerivativeText_succ_eq_ok_iff.1 h
    obtain ⟨q, hq, lowered⟩ := ih ht
    obtain ⟨d, r, hd, hr, -, read_back⟩ := stages_of_round hq h
    exact ⟨r, read_back, Poly.ordinary_derivative lowered hd hr⟩

/-- Rounds of differentiation, from an ordinary polynomial in the variable with exponents up to `n`.  Every round
succeeds or fails by overflow, and if the first `n + 1` rounds succeed, they end in `0`. -/
theorem repeatedDerivativeText_ends (hp : Poly.read text = .ok p) (ordinary : p.Ordinary v n) :
    (∀ k t, repeatedDerivativeText v text k = .ok t → (∃ s, simplifiedDerivativeText v t = .ok s) ∨
      ∃ computation, simplifiedDerivativeText v t = .error (.overflow computation)) ∧
    ∀ s, repeatedDerivativeText v text (n + 1) = .ok s → s = "0" := by
  constructor
  · intro k t ht
    obtain ⟨q, hq, lowered⟩ := exists_ordinary_of_rounds hp ordinary ht
    cases h : simplifiedDerivativeText v t with
    | ok s => exact .inl ⟨s, rfl⟩
    | error e =>
      obtain ⟨computation, rfl⟩ := simplifiedDerivativeText_eq_error hq (fun r hr => (lowered r hr).1) h
      exact .inr ⟨computation, rfl⟩
  · intro s h
    obtain ⟨t, ht, h⟩ := repeatedDerivativeText_succ_eq_ok_iff.1 h
    obtain ⟨q, hq, lowered⟩ := exists_ordinary_of_rounds hp ordinary ht
    rw [Nat.sub_self] at lowered
    -- only zeroth powers are left, and the last round makes zero of them
    obtain ⟨d, r, hd, hr, rfl, -⟩ := stages_of_round hq h
    rw [Poly.eq_zero_of_ordinary_zero lowered hd hr]
    rfl

end

/-- The squares in `x² - x² + 3 x + x⁰` cancel out in the first round, which leaves `0 x` to the second. -/
theorem repeatedDerivativeText_ends_cancelled :
    let text := "(+ (^ x 2) (* -1 (^ x 2)) (* 3 (^ x 1)) (^ x 0))"
    let p : Poly := .sum [.monomial "x" 2, .product (-1) (.monomial "x" 2), .product 3 (.monomial "x" 1),
      .monomial "x" 0]
    Poly.read text = .ok p ∧ p.Ordinary "x" 2 ∧
      repeatedDerivativeText "x" text 1 = .ok "( + ( * 0 ( ^ x 1 ) ) 3 )" ∧
      (∃ s, repeatedDerivativeText "x" text 3 = .ok s) ∧
      (∀ k t, repeatedDerivativeText "x" text k = .ok t → (∃ s, simplifiedDerivativeText "x" t = .ok s) ∨
        ∃ computation, simplifiedDerivativeText "x" t = .error (.overflow computation)) ∧
      ∀ s, repeatedDerivativeText "x" text 3 = .ok s → s = "0" := by
  intro text p
  have reads : Poly.read text = .ok p := by decide +kernel
  have ordinary : p.Ordinary "x" 2 := by
    show ∀ r ∈ p.powers, _
    decide +kernel
  have first : repeatedDerivativeText "x" text 1 = .ok "( + ( * 0 ( ^ x 1 ) ) 3 )" := by decide +kernel
  have third : repeatedDerivativeText "x" text 3 = .ok "0" := by decide +kernel
  exact ⟨reads, ordinary, first, ⟨_, third⟩, repeatedDerivativeText_ends reads ordinary⟩

end PolyDeriv
