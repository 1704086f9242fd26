import PolyDeriv.Proofs.Cancellation
import PolyDeriv.Proofs.Pipeline

/-!
# Simplified texts

What simplification prints can be given to the operations on texts again (`read_simplifiedText`).  It is read back as
the simplified form it was printed from, which is well-formed (`Poly.check_simplify`) and nests at most three deep
(`Poly.depth_simplify`).  It can always be simplified again, and if it is a derivative, then nothing but overflow stands
in the way of the next one.
-/

namespace PolyDeriv
namespace Poly

variable {p q d : Poly}

theorem NormalTerms.depth_le_two {terms : List Poly} {powers : List Power} {constants : List Int64}
    (h : NormalTerms terms powers constants) {t : Poly} (ht : t ∈ terms) : t.depth ≤ 2 := by
  rcases h.cases_of_mem ht with ⟨c, rfl⟩ | ⟨s, e, rfl⟩ | ⟨c, s, e, rfl⟩
  · exact Nat.zero_le 2
  · exact Nat.le_succ 1
  · exact Nat.le_refl 2

/-- At the deepest, a normal form is a sum of multiples of powers. -/
theorem IsNormal.depth_le_three (h : q.IsNormal) : q.depth ≤ 3 := by
  obtain ⟨terms, powers, constants, normal, rfl | ⟨-, rfl⟩⟩ := h
  · exact Nat.le_succ_of_le (normal.depth_le_two (List.mem_singleton_self q))
  · exact Nat.succ_le_succ (depthOfTerms_le_iff.2 fun t ht => normal.depth_le_two ht)

theorem depth_simplify (h : p.simplify = .ok q) : q.depth ≤ 3 := by
  obtain ⟨x, written, -⟩ := exists_expansion h
  have normal : q.IsNormal := ⟨x.terms, _, _, x.normalTerms_terms, Expansion.joined_terms written⟩
  exact normal.depth_le_three

/-- The simplified form of a well-formed expression is read back from its printed form. -/
theorem read_render_simplify (h : p.simplify = .ok q) (checked : p.check = .ok ()) : Poly.read q.render = .ok q :=
  read_render (check_simplify h checked) (Nat.le_trans (depth_simplify h) (by decide))

/-- Simplifying a derivative leaves no power of another variable. -/
theorem symbol_of_simplify_derivative {v : String} (hd : p.derivative v = .ok d) (hq : d.simplify = .ok q) :
    ∀ r ∈ q.powers, r.symbol = v := by
  intro r hr
  have live := ((mem_powers_simplify hq).1 hr).2
  exact (symbol_of_derivative hd).2 r (livePowers_subset d r live)

end Poly

section

variable {v text s : String} {p d q : Poly}

/-- The simplified derivative of what was read is read back from its printed form. -/
theorem read_render_simplify_derivative (hp : Poly.read text = .ok p) (hd : p.derivative v = .ok d)
    (hq : d.simplify = .ok q) : Poly.read q.render = .ok q :=
  Poly.read_render_simplify hq (Poly.check_derivative hd (Poly.check_depth_of_read hp).1)

theorem exists_simplifiedText (hs : Poly.read s = .ok q) (hq : p.simplify = .ok q) :
    ∃ t, simplifiedText s = .ok t := by
  obtain ⟨r, hr, -⟩ := Poly.exists_simplify_simplify hq
  exact ⟨r.render, simplifiedText_eq_ok_iff.2 ⟨q, hs, r, hr, rfl⟩⟩

/-- Nothing but overflow stands in the way of the derivative of a polynomial in the variable. -/
theorem simplifiedDerivativeText_eq_error (hp : Poly.read text = .ok p) (hv : ∀ r ∈ p.powers, r.symbol = v) {e : Error}
    (h : simplifiedDerivativeText v text = .error e) : ∃ computation, e = .overflow computation := by
  rcases simplifiedDerivativeText_error_cases hp h with overflow | hderivative
  · exact overflow
  · rcases Poly.derivative_error_cases hderivative with overflow | ⟨r, hr, other, -⟩
    · exact overflow
    · exact absurd (hv r hr) other

end

/-- A simplified form that has been printed is read back, nests at most three deep, and can be simplified again.  If it
is that of a derivative, all its powers are powers of the variable, and a further derivative can fail by overflow
only. -/
theorem read_simplifiedText (v text : String) :
    (∀ s, simplifiedText text = .ok s → ∃ p q, Poly.read text = .ok p ∧ p.simplify = .ok q ∧
      Poly.read s = .ok q ∧ q.depth ≤ 3 ∧ ∃ t, simplifiedText s = .ok t) ∧
    ∀ s, simplifiedDerivativeText v text = .ok s → ∃ p d q, Poly.read text = .ok p ∧ p.derivative v = .ok d ∧
      d.simplify = .ok q ∧ Poly.read s = .ok q ∧ q.depth ≤ 3 ∧ (∀ r ∈ q.powers, r.symbol = v) ∧
        ∀ e, simplifiedDerivativeText v s = .error e → ∃ computation, e = .overflow computation := by
  constructor
  · intro s h
    obtain ⟨p, hp, q, hq, rfl⟩ := simplifiedText_eq_ok_iff.1 h
    have read_back := Poly.read_render_simplify hq (Poly.check_depth_of_read hp).1
    exact ⟨p, q, hp, hq, read_back, Poly.depth_simplify hq, exists_simplifiedText read_back hq⟩
  · intro s h
    obtain ⟨p, hp, d, hd, q, hq, rfl⟩ := simplifiedDerivativeText_eq_ok_iff.1 h
    have read_back := read_render_simplify_derivative hp hd hq
    have in_variable := Poly.symbol_of_simplify_derivative hd hq
    exact ⟨p, d, q, hp, hd, hq, read_back, Poly.depth_simplify hq, in_variable, fun e =>
      simplifiedDerivativeText_eq_error read_back in_variable⟩

/-- The squares in `x² - x² + 3 (x⁻¹ + 7)` cancel out, and what is printed of them is read back as well.  The derivative
of the lowest power but one can be read back, but it has no derivative itself. -/
theorem read_simplifiedText_lowest :
    (∃ s, simplifiedText "(+ (^ x 2) (* -1 (^ x 2)) (* 3 (+ (^ x -1) 7)))" = .ok s ∧
      s = "( + ( * 3 ( ^ x -1 ) ) ( * 0 ( ^ x 2 ) ) 21 )" ∧
      ∃ q, Poly.read s = .ok q ∧ q.depth ≤ 3 ∧ ∃ t, simplifiedText s = .ok t) ∧
    ∃ s, simplifiedDerivativeText "x" "(^ x -9223372036854775807)" = .ok s ∧
      simplifiedDerivativeText "x" s = .error (.overflow (.predecessor (-9223372036854775808))) ∧
      ∃ q, Poly.read s = .ok q ∧ q.depth ≤ 3 ∧ (∀ r ∈ q.powers, r.symbol = "x") ∧
        ∀ e, simplifiedDerivativeText "x" s = .error e → ∃ computation, e = .overflow computation := by
  constructor
  · have simplified : simplifiedText "(+ (^ x 2) (* -1 (^ x 2)) (* 3 (+ (^ x -1) 7)))" =
        .ok "( + ( * 3 ( ^ x -1 ) ) ( * 0 ( ^ x 2 ) ) 21 )" := by decide +kernel
    obtain ⟨p, q, -, -, read_back, shallow, again⟩ := (read_simplifiedText "x" _).1 _ simplified
    exact ⟨_, simplified, rfl, q, read_back, shallow, again⟩
  · have differentiated : simplifiedDerivativeText "x" "(^ x -9223372036854775807)" =
        .ok "( * -9223372036854775807 ( ^ x -9223372036854775808 ) )" := by decide +kernel
    obtain ⟨p, d, q, -, -, -, read_back, shallow, in_variable, overflow_only⟩ :=
      (read_simplifiedText "x" _).2 _ differentiated
    exact ⟨_, differentiated, by decide +kernel, q, read_back, shallow, in_variable, overflow_only⟩

end PolyDeriv
