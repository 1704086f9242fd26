import PolyDeriv.Proofs.Canonicity
import PolyDeriv.Proofs.NormalForm

/-!
# Cancelled powers

One simplification may leave multiples of powers by zero, where coefficients have cancelled out.  A second one removes
them and changes nothing else, and a third one changes nothing at all (`Poly.simplify_simplified`).

The key fact is about expansions: what is written after the cancelled powers have been taken out of an expansion
(`Expansion.withoutCancelled`) is what is left after the cancelled terms have been taken out of what was written before
(`Expansion.eq_withoutCancelled`).
-/

namespace PolyDeriv
namespace Poly

/-- A multiple of a power by zero. -/
def isCancelled : Poly → Bool
  | .product c (.monomial _ _) => c = 0
  | _ => false

/-- The expression that consists of the given terms.  No terms are zero, and a single one stands alone. -/
def joined : List Poly → Poly
  | [] => zero
  | [t] => t
  | terms => .sum terms

/-- What is left of an expression when the multiples of powers by zero among its terms are removed. -/
def withoutCancelled (p : Poly) : Poly := joined (p.terms.filter fun t => ¬ t.isCancelled)

private theorem isCancelled_scale (c : Int64) (p : Power) : (p.scale c).isCancelled = decide (c = 0) := by
  unfold Power.scale
  by_cases hc : c = 1
  · subst hc
    rfl
  · rw [if_neg hc]
    rfl

private theorem joined_of_ofSummands {terms : List Poly} {q : Poly} (h : ofSummands terms = .ok q) :
    joined terms = q := by
  rcases ofSummands_eq_ok_iff.1 h with rfl | ⟨hlength, -, rfl⟩
  · rfl
  · unfold joined
    split
    · simp at hlength
    · simp at hlength
    · rfl

private theorem mem_self_or_parts_of_mem_terms {p t : Poly} (h : t ∈ p.terms) : t ∈ p :: p.parts := by
  unfold terms at h
  split at h
  · exact List.mem_cons_of_mem _ (mem_parts_sum.2 ⟨t, h, .inl rfl⟩)
  · rw [List.mem_singleton.1 h]
    exact List.mem_cons_self

end Poly

namespace Expansion

variable {x : Expansion} {q r : Poly}

theorem joined_terms (h : Poly.ofSummands x.terms = .ok q) :
    x.terms = [q] ∨ 2 ≤ x.terms.length ∧ q = .sum x.terms :=
  (Poly.ofSummands_eq_ok_iff.1 h).imp_right fun ⟨hlength, _, hq⟩ => ⟨hlength, hq⟩

theorem terms_of_ofSummands (h : Poly.ofSummands x.terms = .ok q) : q.terms = x.terms :=
  x.normalTerms_terms.terms_eq (joined_terms h)

/-- Taking out terms leaves the multiples of the powers that are not cancelled, and the constants. -/
private theorem filter_terms (x : Expansion) : (x.terms.filter fun t => ¬ t.isCancelled) =
    x.withoutCancelled.multiples ++ x.constants.map .constant := by
  have multiples_left : (x.multiples.filter fun t => ¬ t.isCancelled) = x.withoutCancelled.multiples := by
    rw [multiples_eq, multiples_eq, List.filter_map]
    congr 1
    apply List.filter_congr
    intro entry _
    simp [Poly.isCancelled_scale]
  have constants_left : ((x.constants.map Poly.constant).filter fun t => ¬ t.isCancelled) =
      x.constants.map .constant := by
    rw [List.filter_eq_self]
    intro t ht
    obtain ⟨c, _, rfl⟩ := List.mem_map.1 ht
    rfl
  rw [terms_eq, List.filter_append, multiples_left, constants_left]

theorem eq_withoutCancelled (hq : Poly.ofSummands x.terms = .ok q)
    (hr : Poly.ofSummands x.withoutCancelled.terms = .ok r) : r = q.withoutCancelled := by
  rw [Poly.withoutCancelled, terms_of_ofSummands hq, filter_terms]
  by_cases nil : x.withoutCancelled.powers = []
  · -- the constant is all that is left, and if it is zero it may not have been written before
    rw [← Poly.joined_of_ofSummands hr, terms_withoutCancelled_of_nil nil, multiples_eq, nil]
    unfold constants
    split
    · next h =>
      rw [h.1]
      rfl
    · rfl
  · rw [← constants_withoutCancelled nil, ← terms_eq, Poly.joined_of_ofSummands hr]

theorem withoutCancelled_withoutCancelled (x : Expansion) :
    x.withoutCancelled.withoutCancelled = x.withoutCancelled := by
  refine Expansion.ext ?_ rfl
  show (x.powers.filter _).filter _ = x.powers.filter _
  rw [List.filter_filter]
  simp

theorem withoutCancelled_eq_self (h : ∀ entry ∈ x.powers, entry.2 ≠ 0) : x.withoutCancelled = x := by
  refine Expansion.ext ?_ rfl
  rw [withoutCancelled, List.filter_eq_self]
  intro entry hentry
  simpa using h entry hentry

/-- A multiple by zero is written for a power that has cancelled out, and for nothing else. -/
theorem exists_product_zero_iff (h : Poly.ofSummands x.terms = .ok q) :
    (∃ inner, .product 0 inner ∈ q :: q.parts) ↔ ∃ entry ∈ x.powers, entry.2 = 0 := by
  constructor
  · rintro ⟨inner, hinner⟩
    have in_terms := x.normalTerms_terms.mem_terms_of_isProduct (joined_terms h) hinner rfl
    rw [terms_eq, multiples_eq, List.mem_append] at in_terms
    rcases in_terms with hmultiple | hconstant
    · obtain ⟨entry, hentry, hscale⟩ := List.mem_map.1 hmultiple
      unfold Power.scale at hscale
      split at hscale
      · exact absurd hscale (by simp)
      · exact ⟨entry, hentry, (Poly.product.inj hscale).1⟩
    · obtain ⟨c, _, hc⟩ := List.mem_map.1 hconstant
      exact absurd hc (by simp)
  · rintro ⟨entry, hentry, hzero⟩
    refine ⟨.monomial entry.1.symbol entry.1.exponent, Poly.mem_self_or_parts_of_mem_terms ?_⟩
    have written : entry.1.scale entry.2 = .product 0 (.monomial entry.1.symbol entry.1.exponent) := by
      rw [hzero]
      rfl
    rw [terms_of_ofSummands h, terms_eq, multiples_eq, ← written]
    exact List.mem_append_left _ (List.mem_map_of_mem hentry)

end Expansion

namespace Poly

/-- Simplifying a simplified expression removes the multiples of powers by zero among its terms, and nothing else.
The result is its own simplified form.  It differs from the first one exactly if that has a multiple by zero in it. -/
theorem simplify_simplified {p q : Poly} (h : p.simplify = .ok q) :
    ∃ r, q.simplify = .ok r ∧ r = q.withoutCancelled ∧ r.simplify = .ok r ∧
      (r = q ↔ ¬ ∃ inner, .product 0 inner ∈ q :: q.parts) := by
  obtain ⟨x, hq, -⟩ := exists_expansion h
  obtain ⟨r, hsimplify, hr⟩ := simplify_of_expansion hq
  have fixed : r.simplify = .ok r := by
    obtain ⟨s, hs, hwritten⟩ := simplify_of_expansion hr
    rw [Expansion.withoutCancelled_withoutCancelled, hr] at hwritten
    rwa [← Except.ok.inj hwritten] at hs
  refine ⟨r, hsimplify, Expansion.eq_withoutCancelled hq hr, fixed, ?_, ?_⟩
  · rintro rfl
    rw [Expansion.exists_product_zero_iff hr]
    rintro ⟨entry, hentry, hzero⟩
    exact absurd hzero (by simpa using (List.mem_filter.1 hentry).2)
  · intro none_zero
    rw [Expansion.exists_product_zero_iff hq] at none_zero
    have nonzero : ∀ entry ∈ x.powers, entry.2 ≠ 0 := fun entry hentry hzero => none_zero ⟨entry, hentry, hzero⟩
    rw [Expansion.withoutCancelled_eq_self nonzero, hq] at hr
    exact (Except.ok.inj hr).symm

/-- `x - x + 2 (y² + z) - 2 z`: two of the three powers cancel out, and the third is left alone. -/
theorem simplify_simplified_alone :
    let p : Poly := .sum [.monomial "x" 1, .product (-1) (.monomial "x" 1),
      .product 2 (.sum [.monomial "y" 2, .monomial "z" 1]), .product (-2) (.monomial "z" 1)]
    let q : Poly := .sum [.product 0 (.monomial "x" 1), .product 2 (.monomial "y" 2), .product 0 (.monomial "z" 1)]
    p.simplify = .ok q ∧ q.withoutCancelled = .product 2 (.monomial "y" 2) ∧
      ∃ r, q.simplify = .ok r ∧ r = q.withoutCancelled ∧ r.simplify = .ok r ∧
        (r = q ↔ ¬ ∃ inner, .product 0 inner ∈ q :: q.parts) := by
  intro p q
  have simplified : p.simplify = .ok q := by decide +kernel
  exact ⟨simplified, by decide +kernel, simplify_simplified simplified⟩

end Poly
end PolyDeriv
