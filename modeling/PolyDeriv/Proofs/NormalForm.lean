import PolyDeriv.Proofs.Simplification

/-!
# The normal form

Simplified expressions are in normal form, whatever they are made from: distribution leaves no sum and no multiple in a
multiple, so nothing is passed over when like terms are added up (`isNormal_simplify`).  The powers that are written are
the non-zeroth ones that no zero erases; those that cancel out are among them.
-/

namespace PolyDeriv
namespace Poly

/-- The terms of a sum; any other expression is its own only term. -/
def terms : Poly → List Poly
  | .sum terms => terms
  | p => [p]

/-- There is no sum inside a sum or a multiple, and no multiple inside a multiple. -/
structure IsFlat (p : Poly) : Prop where
  no_sum_inside : ∀ q ∈ p.parts, ∀ terms, q ≠ .sum terms
  no_product_inside : ∀ q ∈ p :: p.parts, q.isProduct → ∀ r ∈ q.parts, ¬ r.isProduct

private theorem power?_eq_some_iff {t : Poly} {r : Power} : t.power? = some r ↔
    t = .monomial r.symbol r.exponent ∨ ∃ c, c ≠ 1 ∧ t = .product c (.monomial r.symbol r.exponent) := by
  obtain ⟨s, e⟩ := r
  unfold power?
  split
  · simp
  · next c s' e' =>
    by_cases hc : c = 1
    · simp [hc]
    · simp [hc]
  · next hmonomial hproduct =>
    simp only [reduceCtorEq, false_iff, not_or, not_exists, not_and]
    exact ⟨hmonomial s e, fun c _ => hproduct c s e⟩

namespace NormalTerms

variable {terms : List Poly} {powers : List Power} {constants : List Int64}

/-- A power is written if it is the power of a term. -/
private theorem exists_power?_iff (h : NormalTerms terms powers constants) (r : Power) :
    (∃ t ∈ terms, t.power? = some r) ↔ r ∈ powers := by
  obtain ⟨multiples, hpowers, rfl⟩ := h.split
  have mem_iff : some r ∈ multiples.map power? ↔ r ∈ powers := by
    rw [hpowers]
    simp
  rw [← mem_iff, List.mem_map]
  constructor
  · rintro ⟨t, ht, hr⟩
    rcases List.mem_append.1 ht with ht | ht
    · exact ⟨t, ht, hr⟩
    · obtain ⟨c, _, rfl⟩ := List.mem_map.1 ht
      exact absurd hr (by simp [power?])
  · rintro ⟨t, ht, hr⟩
    exact ⟨t, List.mem_append_left _ ht, hr⟩

theorem cases_of_mem (h : NormalTerms terms powers constants) {t : Poly} (ht : t ∈ terms) :
    (∃ c, t = .constant c) ∨ (∃ s e, t = .monomial s e) ∨ ∃ c s e, t = .product c (.monomial s e) := by
  obtain ⟨multiples, hpowers, rfl⟩ := h.split
  rcases List.mem_append.1 ht with ht | ht
  · have in_powers : t.power? ∈ powers.map some := hpowers ▸ List.mem_map_of_mem ht
    obtain ⟨r, _, hr⟩ := List.mem_map.1 in_powers
    rcases power?_eq_some_iff.1 hr.symm with rfl | ⟨c, _, rfl⟩
    · exact .inr (.inl ⟨_, _, rfl⟩)
    · exact .inr (.inr ⟨_, _, _, rfl⟩)
  · obtain ⟨c, _, rfl⟩ := List.mem_map.1 ht
    exact .inl ⟨c, rfl⟩

/-- Terms in normal form have powers for parts, if any. -/
private theorem parts_of_mem (h : NormalTerms terms powers constants) {t q : Poly} (ht : t ∈ terms) (hq : q ∈ t.parts) :
    ∃ s e, q = .monomial s e := by
  rcases h.cases_of_mem ht with ⟨c, rfl⟩ | ⟨s, e, rfl⟩ | ⟨c, s, e, rfl⟩
  · exact absurd hq (by simp [parts])
  · exact absurd hq (by simp [parts])
  · exact ⟨s, e, by simpa [parts] using hq⟩

private theorem ne_sum_of_mem (h : NormalTerms terms powers constants) {t : Poly} (ht : t ∈ terms) (ts : List Poly) :
    t ≠ .sum ts := by
  rcases h.cases_of_mem ht with ⟨c, rfl⟩ | ⟨s, e, rfl⟩ | ⟨c, s, e, rfl⟩ <;> simp

/-- What terms in normal form are joined to has them as its terms. -/
theorem terms_eq (h : NormalTerms terms powers constants) {q : Poly}
    (hq : terms = [q] ∨ 2 ≤ terms.length ∧ q = .sum terms) : q.terms = terms := by
  rcases hq with rfl | ⟨-, rfl⟩
  · have not_sum := h.ne_sum_of_mem (List.mem_singleton_self q)
    unfold Poly.terms
    split
    · next ts => exact absurd rfl (not_sum ts)
    · rfl
  · rfl

/-- A single term has powers for parts, and a sum has its terms and their parts. -/
private theorem cases_of_mem_parts (h : NormalTerms terms powers constants) {q : Poly}
    (hq : terms = [q] ∨ 2 ≤ terms.length ∧ q = .sum terms) {r : Poly} (hr : r ∈ q.parts) :
    r ∈ terms ∨ ∃ s e, r = .monomial s e := by
  rcases hq with rfl | ⟨-, rfl⟩
  · exact .inr (h.parts_of_mem (List.mem_singleton_self q) hr)
  · obtain ⟨t, ht, rfl | hr⟩ := mem_parts_sum.1 hr
    · exact .inl ht
    · exact .inr (h.parts_of_mem ht hr)

/-- All multiples are terms. -/
theorem mem_terms_of_isProduct (h : NormalTerms terms powers constants) {q : Poly}
    (hq : terms = [q] ∨ 2 ≤ terms.length ∧ q = .sum terms) {r : Poly} (hr : r ∈ q :: q.parts)
    (hproduct : r.isProduct) : r ∈ terms := by
  rcases List.mem_cons.1 hr with rfl | hr
  · rcases hq with rfl | ⟨-, rfl⟩
    · exact List.mem_singleton_self r
    · exact absurd hproduct (by simp [isProduct])
  · rcases h.cases_of_mem_parts hq hr with hr | ⟨s, e, rfl⟩
    · exact hr
    · exact absurd hproduct (by simp [isProduct])

private theorem isFlat (h : NormalTerms terms powers constants) {q : Poly}
    (hq : terms = [q] ∨ 2 ≤ terms.length ∧ q = .sum terms) : q.IsFlat := by
  constructor
  · intro r hr ts
    rcases h.cases_of_mem_parts hq hr with hr | ⟨s, e, rfl⟩
    · exact h.ne_sum_of_mem hr ts
    · simp
  · intro r hr hproduct t ht
    obtain ⟨s, e, rfl⟩ := h.parts_of_mem (h.mem_terms_of_isProduct hq hr hproduct) ht
    simp [isProduct]

end NormalTerms

/-- The simplified form is in normal form and flat, and the powers written in it are the non-zeroth ones that no zero
erases. -/
theorem isNormal_simplify {p q : Poly} (h : p.simplify = .ok q) :
    q.IsNormal ∧ q.IsFlat ∧
      ∀ r : Power, r.exponent ≠ 0 → ((∃ t ∈ q.terms, t.power? = some r) ↔ r ∈ p.livePowers) := by
  obtain ⟨x, hx, hpowers⟩ := exists_expansion h
  have normal := x.normalTerms_terms
  have joined : x.terms = [q] ∨ 2 ≤ x.terms.length ∧ q = .sum x.terms :=
    (ofSummands_eq_ok_iff.1 hx).imp_right fun ⟨hlength, _, hq⟩ => ⟨hlength, hq⟩
  refine ⟨⟨x.terms, _, _, normal, joined⟩, normal.isFlat joined, fun r hr => ?_⟩
  rw [normal.terms_eq joined, normal.exists_power?_iff, hpowers]
  exact and_iff_right hr

/-- `1 + 2 (y + 3 (x - y) + z⁰) - 6 x + 0 z²`: the powers of `x` cancel out, and those of `z` are left out. -/
theorem isNormal_simplify_nested :
    let p : Poly := .sum [.constant 1, .product 2 (.sum [.monomial "y" 1,
      .product 3 (.sum [.monomial "x" 1, .product (-1) (.monomial "y" 1)]), .monomial "z" 0]),
      .product (-6) (.monomial "x" 1), .product 0 (.monomial "z" 2)]
    let q : Poly := .sum [.product 0 (.monomial "x" 1), .product (-4) (.monomial "y" 1), .constant 3]
    p.simplify = .ok q ∧ q.IsNormal ∧ q.IsFlat ∧
      ∀ r : Power, r.exponent ≠ 0 → ((∃ t ∈ q.terms, t.power? = some r) ↔ r ∈ p.livePowers) :=
  ⟨by decide +kernel, isNormal_simplify (by decide +kernel)⟩

end Poly
end PolyDeriv
