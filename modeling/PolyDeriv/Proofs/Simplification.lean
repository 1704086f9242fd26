import PolyDeriv.Poly.Simplify
import PolyDeriv.Proofs.Distribution
import PolyDeriv.Proofs.Expansion

/-!
# Simplification

The simplified form of an expression is its one expansion (`IsExpansion.unique`) written out, and if it does not exist,
either an overflow or the writing is to blame (`simplify_cases`).  It weighs as much as the expression
(`weight_simplify`), so it has the same value (`value_simplify`) and the same coefficients.
-/

namespace PolyDeriv

/-- Evaluation at a point is a choice of values under which zeroth powers are worth one. -/
theorem unital_evaluation (point : String → Rat) : Unital fun p => point p.symbol ^ p.exponent.toInt := by
  intro symbol
  show point symbol ^ (0 : Int) = 1
  exact zpow_zero _

namespace Poly

theorem filter_isCompound_summands {m : Int64} {p d : Poly} (h : p.distribute m = .ok d) :
    d.summands.filter isCompound = [] := by
  rw [List.filter_eq_nil_iff]
  intro t ht
  rw [(scaled_of_distribute h t ht).not_isCompound]
  simp

theorem simplify_stages {p q : Poly} : p.simplify = .ok q ↔ ∃ d terms,
    p.distribute 1 = .ok d ∧ combine d.summands = .ok terms ∧ ofSummands (withoutZeros terms) = .ok q := by
  unfold simplify
  simp only [bind_eq_ok_iff, mapError_eq_ok_iff, exists_and_left]

section

variable {p d : Poly} {tally : Tally} {total : Int64}

/-- No term that distribution leaves is passed over when like terms are added up. -/
private theorem combine_summands (hd : p.distribute 1 = .ok d)
    (htally : d.summands.foldlM Tally.addTerm .empty = .ok tally) (htotal : tally.total = .ok total) :
    combine d.summands = .ok (tally.multiples ++ [.constant total]) :=
  combine_eq_ok_iff.2 ⟨tally, total, htally, htotal, by rw [filter_isCompound_summands hd, List.nil_append]⟩

end

/-- Simplification distributes, adds up terms, and writes out the expansion it finds. -/
theorem simplify_eq_ok_iff {p q : Poly} : p.simplify = .ok q ↔ ∃ d tally total,
    p.distribute 1 = .ok d ∧ d.summands.foldlM Tally.addTerm .empty = .ok tally ∧ tally.total = .ok total ∧
      ofSummands (tally.expansion total).terms = .ok q := by
  rw [simplify_stages]
  constructor
  · rintro ⟨d, terms, hd, hterms, h⟩
    obtain ⟨tally, total, htally, htotal, rfl⟩ := combine_eq_ok_iff.1 hterms
    rw [filter_isCompound_summands hd, List.nil_append, ← Expansion.expansion_terms] at h
    exact ⟨d, tally, total, hd, htally, htotal, h⟩
  · rintro ⟨d, tally, total, hd, htally, htotal, h⟩
    rw [Expansion.expansion_terms] at h
    exact ⟨d, _, hd, combine_summands hd htally htotal, h⟩

/-- The powers that have been added up are those that no zero erases. -/
theorem mem_powers_tally {p d : Poly} {tally : Tally} (hd : p.distribute 1 = .ok d)
    (htally : d.summands.foldlM Tally.addTerm .empty = .ok tally) (r : Power) :
    r ∈ tally.powers.map (·.1) ↔ r ∈ p.livePowers := by
  have live : r ∈ d.powers ↔ r ∈ p.livePowers := by
    rw [mem_powers_distribute hd]
    simp
  rw [Tally.mem_powers_addTerms htally, ← live, mem_powers_iff_summands]
  refine exists_congr fun t => and_congr_right fun ht => ?_
  simp [(scaled_of_distribute hd t ht).not_isCompound]

/-- The expansion of an expression has the powers that no zero erases, without the zeroth ones, and it weighs as much as
the expression. -/
structure IsExpansion (p : Poly) (x : Expansion) : Prop where
  powers : ∀ r, r ∈ x.powers.map (·.1) ↔ r.exponent ≠ 0 ∧ r ∈ p.livePowers
  weight : ∀ {M : Type} [AddCommGroup M] (W : Weighing M), x.weight W = p.weight W

theorem isExpansion_tally {p d : Poly} {tally : Tally} {total : Int64} (hd : p.distribute 1 = .ok d)
    (htally : d.summands.foldlM Tally.addTerm .empty = .ok tally) (htotal : tally.total = .ok total) :
    p.IsExpansion (tally.expansion total) where
  powers r := by rw [Tally.mem_powers_expansion, mem_powers_tally hd htally]
  weight W := by
    calc (tally.expansion total).weight W
      _ = ((tally.expansion total).terms.map (Poly.weight W)).sum := (Expansion.weight_terms W _).symm
      _ = ((tally.multiples ++ [constant total]).map (Poly.weight W)).sum := by
        rw [Expansion.expansion_terms, weight_withoutZeros]
      _ = (d.summands.map (Poly.weight W)).sum := weight_combine W (combine_summands hd htally htotal)
      _ = d.weight W := weight_summands W d
      _ = (1 : Int) • p.weight W := weight_distribute W hd
      _ = p.weight W := one_zsmul _

/-- An expression has one expansion. -/
theorem IsExpansion.unique {p : Poly} {x y : Expansion} (hx : p.IsExpansion x) (hy : p.IsExpansion y) : x = y :=
  Expansion.eq_of_weight (fun r => (hx.powers r).trans (hy.powers r).symm)
    fun W => (hx.weight W).trans (hy.weight W).symm

/-- Either a number is too large on the way, or the expansion is found and written out. -/
theorem simplify_cases (p : Poly) : (∃ computation, p.simplify = .error (.overflow computation)) ∨
    ∃ x : Expansion, p.IsExpansion x ∧ p.simplify = (ofSummands x.terms).mapError .invariant := by
  cases hd : p.distribute 1 with
  | error computation =>
    left
    refine ⟨computation, ?_⟩
    rw [simplify, hd]
    rfl
  | ok d =>
    have distributed : p.simplify = (combine d.summands).mapError .overflow >>= fun terms =>
        (ofSummands (withoutZeros terms)).mapError .invariant := by
      rw [simplify, hd]
      rfl
    cases hterms : combine d.summands with
    | error computation =>
      left
      refine ⟨computation, ?_⟩
      rw [distributed, hterms]
      rfl
    | ok terms =>
      right
      obtain ⟨tally, total, htally, htotal, rfl⟩ := combine_eq_ok_iff.1 hterms
      refine ⟨tally.expansion total, isExpansion_tally hd htally htotal, ?_⟩
      rw [distributed, hterms, filter_isCompound_summands hd, List.nil_append, Expansion.expansion_terms]
      rfl

theorem exists_isExpansion {p q : Poly} (h : p.simplify = .ok q) :
    ∃ x : Expansion, p.IsExpansion x ∧ ofSummands x.terms = .ok q := by
  rcases p.simplify_cases with ⟨computation, failed⟩ | ⟨x, hx, written⟩
  · exact absurd (failed.symm.trans h) (by simp)
  · exact ⟨x, hx, mapError_eq_ok_iff.1 (written.symm.trans h)⟩

/-- The powers in the expansion are those that no zero erases, without the zeroth ones. -/
theorem exists_expansion {p q : Poly} (h : p.simplify = .ok q) : ∃ x : Expansion, ofSummands x.terms = .ok q ∧
    ∀ r, r ∈ x.powers.map (·.1) ↔ r.exponent ≠ 0 ∧ r ∈ p.livePowers := by
  obtain ⟨x, hx, written⟩ := exists_isExpansion h
  exact ⟨x, written, hx.powers⟩

theorem mem_powers_simplify {p q : Poly} (h : p.simplify = .ok q) {r : Power} :
    r ∈ q.powers ↔ r.exponent ≠ 0 ∧ r ∈ p.livePowers := by
  obtain ⟨x, hx, hpowers⟩ := exists_expansion h
  rw [mem_powers_ofSummands hx, Expansion.mem_powers_terms, hpowers]

theorem weight_simplify {M : Type} [AddCommGroup M] (W : Weighing M) {p q : Poly} (h : p.simplify = .ok q) :
    q.weight W = p.weight W := by
  obtain ⟨x, hx, written⟩ := exists_isExpansion h
  rw [Expansion.weight_of_ofSummands W written, hx.weight]

theorem coefficient_simplify {p q : Poly} (h : p.simplify = .ok q) (symbol : String) {exponent : Int}
    (hexponent : exponent ≠ 0) : q.coefficient symbol exponent = p.coefficient symbol exponent := by
  rw [coefficient_eq_weight symbol hexponent, coefficient_eq_weight symbol hexponent, weight_simplify _ h]

theorem constantTerm_simplify {p q : Poly} (h : p.simplify = .ok q) : q.constantTerm = p.constantTerm := by
  rw [constantTerm_eq_weight, constantTerm_eq_weight, weight_simplify _ h]

/-- Simplification changes no value, whatever the powers are worth, as long as zeroth powers are worth one. -/
theorem value_simplify {w : Power → Rat} (hw : Unital w) {p q : Poly} (h : p.simplify = .ok q) :
    q.value w = p.value w := by
  rw [value_eq_weight hw, value_eq_weight hw, weight_simplify _ h]

/-- `2 (x + 4) - 2 x + 0 z² + x⁰ + y⁻¹`, at three for `x` and one half for everything else. -/
theorem value_simplify_cancelled :
    let point : String → Rat := fun symbol => if symbol = "x" then 3 else 1 / 2
    let p : Poly := .sum [.product 2 (.sum [.monomial "x" 1, .constant 4]), .product (-2) (.monomial "x" 1),
      .product 0 (.monomial "z" 2), .monomial "x" 0, .monomial "y" (-1)]
    let q : Poly := .sum [.product 0 (.monomial "x" 1), .monomial "y" (-1), .constant 9]
    (Unital fun r => point r.symbol ^ r.exponent.toInt) ∧ p.simplify = .ok q ∧
      q.value (fun r => point r.symbol ^ r.exponent.toInt) = p.value fun r => point r.symbol ^ r.exponent.toInt := by
  intro point p q
  have simplified : p.simplify = .ok q := by rfl
  exact ⟨unital_evaluation point, simplified, value_simplify (unital_evaluation point) simplified⟩

end Poly
end PolyDeriv
