import PolyDeriv.Proofs.Simplification

/-!
# Canonical forms

Simplifying what has been simplified always succeeds, and removes the powers that have cancelled out
(`simplify_of_expansion`).  After that every coefficient is written as it is, and none that is zero is written at all;
so two expressions with the same coefficients end up as the same tree (`simplify_twice_eq_iff`).
-/

namespace PolyDeriv

/-! ### Powers that come in order -/

private theorem addCoefficient_of_forall_lt {p : Power} {entries : List (Power × Int64)}
    (h : ∀ entry ∈ entries, entry.1 < p) (c : Int64) : addCoefficient p c entries = .ok (entries ++ [(p, c)]) := by
  induction entries with
  | nil => rfl
  | cons entry rest ih =>
    obtain ⟨q, d⟩ := entry
    have hq : q < p := h (q, d) (by simp)
    have not_below : ¬ p < q := fun hp => Power.lt_irrefl p (Power.lt_trans hp hq)
    have not_equal : p ≠ q := by
      rintro rfl
      exact Power.lt_irrefl p hq
    rw [addCoefficient, if_neg not_below, if_neg not_equal, ih fun entry hentry => h entry (by simp [hentry])]
    rfl

/-- A power with its coefficient, as distribution leaves it: as a multiple, unless the coefficient is zero. -/
def spread (entry : Power × Int64) : Poly :=
  if entry.2 = 0 then .zero else .product entry.2 (.monomial entry.1.symbol entry.1.exponent)

private theorem distribute_scale (entry : Power × Int64) :
    (entry.1.scale entry.2).distribute 1 = .ok (spread entry) := by
  obtain ⟨p, c⟩ := entry
  unfold Power.scale spread
  by_cases hc : c = 1
  · subst hc
    rfl
  · simp only [if_neg hc]
    refine Poly.distribute_product_eq_ok_iff.2 ⟨c, (mul_one _).symm, ?_⟩
    rw [Poly.distribute]
    split <;> rfl

namespace Tally

private theorem addConstant_zero (tally : Tally) : tally.addConstant 0 = .ok tally := by
  rw [addConstant_eq_ok_iff]
  exact ⟨(add_zero _).symm, rfl⟩

/-- Adding up powers in ascending order enters them one behind the other and passes over those with coefficient zero. -/
private theorem addTerms_spread {entries : List (Power × Int64)} {tally : Tally}
    (sorted : Ascending (tally.powers ++ entries)) : ∃ result,
      (entries.map spread).foldlM addTerm tally = .ok result ∧
        result.powers = tally.powers ++ entries.filter (·.2 ≠ 0) ∧ result.constant = tally.constant := by
  induction entries generalizing tally with
  | nil => exact ⟨tally, rfl, (List.append_nil _).symm, rfl⟩
  | cons entry rest ih =>
    obtain ⟨p, c⟩ := entry
    rw [List.map_cons, List.foldlM_cons]
    by_cases hc : c = 0
    · have step : tally.addTerm (spread (p, c)) = .ok tally := by
        rw [spread, if_pos hc]
        exact addConstant_zero tally
      have sorted_rest : Ascending (tally.powers ++ rest) :=
        sorted.sublist (List.Sublist.append_left (List.sublist_cons_self _ _) _)
      obtain ⟨result, hresult, hpowers, hconstant⟩ := ih sorted_rest
      refine ⟨result, bind_eq_ok_iff.2 ⟨tally, step, hresult⟩, ?_, hconstant⟩
      rw [hpowers, List.filter_cons_of_neg (by simp [hc])]
    · have below : ∀ entry ∈ tally.powers, entry.1 < p := fun entry hentry =>
        (List.pairwise_append.1 sorted).2.2 entry hentry (p, c) (by simp)
      have entered := addCoefficient_of_forall_lt below c
      let next : Tally := ⟨tally.powers ++ [(p, c)], ascending_addCoefficient entered tally.ascending, tally.constant⟩
      have step : tally.addTerm (spread (p, c)) = .ok next := by
        rw [spread, if_neg hc]
        exact addPower_eq_ok_iff.2 ⟨entered, rfl⟩
      have sorted_rest : Ascending (next.powers ++ rest) := by
        rwa [List.append_assoc]
      obtain ⟨result, hresult, hpowers, hconstant⟩ := ih sorted_rest
      refine ⟨result, bind_eq_ok_iff.2 ⟨next, step, hresult⟩, ?_, hconstant⟩
      rw [hpowers, List.filter_cons_of_pos (by simp [hc]), List.append_cons]

end Tally

namespace Expansion

private theorem expansion_toTally (x : Expansion) : x.toTally.expansion x.constant = x := by
  exact Expansion.ext x.filter_proper rfl

private theorem distribute_terms (x : Expansion) :
    x.terms.mapM (Poly.distribute 1) = .ok (x.powers.map spread ++ x.constants.map .constant) := by
  rw [mapM_eq_ok_iff, terms_eq, multiples_eq]
  refine List.rel_append ?_ ?_
  · rw [List.forall₂_map_left_iff, List.forall₂_map_right_iff, List.forall₂_same]
    exact fun entry _ => distribute_scale entry
  · rw [List.forall₂_map_left_iff, List.forall₂_map_right_iff, List.forall₂_same]
    exact fun c _ => Poly.distribute_constant c

/-- Adding up the terms of an expansion gives back the expansion, without the powers that have cancelled out. -/
theorem addTerms_terms (x : Expansion) :
    (x.powers.map spread ++ x.constants.map Poly.constant).foldlM Tally.addTerm .empty =
      .ok x.withoutCancelled.toTally := by
  have sorted : Ascending (Tally.empty.powers ++ x.powers) := x.ascending
  obtain ⟨tally, htally, hpowers, hconstant⟩ := Tally.addTerms_spread sorted
  rw [List.foldlM_append]
  refine bind_eq_ok_iff.2 ⟨tally, htally, ?_⟩
  unfold constants
  split
  · next h =>
    have constant_eq : tally.constant = x.constant := hconstant.trans h.1.symm
    exact congrArg Except.ok (Tally.ext hpowers constant_eq)
  · have step : tally.addTerm (.constant x.constant) = .ok x.withoutCancelled.toTally := by
      refine Tally.addConstant_eq_ok_iff.2 ⟨?_, hpowers.symm⟩
      rw [hconstant]
      exact (zero_add _).symm
    exact bind_eq_ok_iff.2 ⟨_, step, rfl⟩

/-- If all powers have cancelled out, the constant is written alone. -/
theorem terms_withoutCancelled_of_nil {x : Expansion} (nil : x.withoutCancelled.powers = []) :
    x.withoutCancelled.terms = [.constant x.constant] := terms_of_nil nil

theorem constants_withoutCancelled {x : Expansion} (some_left : x.withoutCancelled.powers ≠ []) :
    x.withoutCancelled.constants = x.constants := by
  have nonempty : x.powers ≠ [] := by
    intro h
    exact some_left (by simp [withoutCancelled, h])
  simp only [constants, some_left, nonempty, ne_eq, not_false_eq_true, and_true]
  rfl

/-- Without the powers that have cancelled out there are fewer terms, or none but the constant. -/
private theorem withoutCancelled_terms (x : Expansion) :
    x.withoutCancelled.terms = [.constant x.constant] ∨ x.withoutCancelled.terms.Sublist x.terms := by
  by_cases nil : x.withoutCancelled.powers = []
  · exact .inl (terms_withoutCancelled_of_nil nil)
  · right
    rw [terms_eq, terms_eq, constants_withoutCancelled nil, multiples_eq, multiples_eq]
    exact (List.filter_sublist.map _).append_right _

/-- If an expansion can be written, so can what is left of it without the powers that have cancelled out. -/
private theorem exists_ofSummands_withoutCancelled {x : Expansion} {q : Poly} (h : Poly.ofSummands x.terms = .ok q) :
    ∃ r, Poly.ofSummands x.withoutCancelled.terms = .ok r := by
  rcases x.withoutCancelled_terms with single | sub
  · exact ⟨_, Poly.ofSummands_eq_ok_iff.2 (.inl single)⟩
  · -- one term is left, or two or more that are well-formed because they were there before
    rcases Poly.ofSummands_eq_ok_iff.1 h with single | ⟨_, checked, -⟩
    · rw [single, List.sublist_singleton] at sub
      exact ⟨q, Poly.ofSummands_eq_ok_iff.2 (.inl (sub.resolve_left (terms_ne_nil _)))⟩
    · rcases Nat.lt_or_ge x.withoutCancelled.terms.length 2 with short | long
      · have one : x.withoutCancelled.terms.length = 1 := by
          have := List.length_pos_iff.2 (terms_ne_nil x.withoutCancelled)
          omega
        obtain ⟨r, hr⟩ := List.length_eq_one_iff.1 one
        exact ⟨r, Poly.ofSummands_eq_ok_iff.2 (.inl hr)⟩
      · exact ⟨_, Poly.ofSummands_eq_ok_iff.2 (.inr ⟨long, fun t ht => checked t (sub.subset ht), rfl⟩)⟩

end Expansion

namespace Poly

/-- If all terms distribute to single terms, so does what they are joined to. -/
private theorem exists_distribute {ts ds : List Poly} {q : Poly} (hq : ofSummands ts = .ok q)
    (hds : ts.mapM (distribute 1) = .ok ds) (single : ∀ d ∈ ds, d.summands = [d]) :
    ∃ d, q.distribute 1 = .ok d ∧ d.summands = ds := by
  rcases ofSummands_eq_ok_iff.1 hq with rfl | ⟨-, -, rfl⟩
  · obtain ⟨d, rest, hd, hrest, rfl⟩ := List.forall₂_cons_left_iff.1 (mapM_eq_ok_iff.1 hds)
    obtain rfl := List.forall₂_nil_left_iff.1 hrest
    exact ⟨d, hd, single d (by simp)⟩
  · refine ⟨.sum ds, (distribute_sum_eq_ok_iff (by decide)).2 ⟨ds, mapM_eq_ok_iff.1 hds, rfl⟩, ?_⟩
    rw [summands, summandsOfTerms_eq, List.flatMap_congr single]
    exact List.flatMap_singleton' ds

theorem simplify_of_expansion {x : Expansion} {q : Poly} (h : ofSummands x.terms = .ok q) :
    ∃ r, q.simplify = .ok r ∧ ofSummands x.withoutCancelled.terms = .ok r := by
  have single : ∀ d ∈ x.powers.map spread ++ x.constants.map .constant, d.summands = [d] := by
    intro d hd
    rcases List.mem_append.1 hd with hd | hd
    · obtain ⟨entry, _, rfl⟩ := List.mem_map.1 hd
      unfold spread
      split <;> rfl
    · obtain ⟨c, _, rfl⟩ := List.mem_map.1 hd
      rfl
  obtain ⟨d, hd, hsummands⟩ := exists_distribute h x.distribute_terms single
  obtain ⟨r, hr⟩ := Expansion.exists_ofSummands_withoutCancelled h
  have added : d.summands.foldlM Tally.addTerm .empty = .ok x.withoutCancelled.toTally := by
    rw [hsummands, Expansion.addTerms_terms]
  have written : ofSummands (x.withoutCancelled.expansion x.withoutCancelled.constant).terms = .ok r := by
    rwa [Expansion.expansion_toTally]
  exact ⟨r, simplify_eq_ok_iff.2 ⟨d, _, _, hd, added, x.withoutCancelled.total_eq, written⟩, hr⟩

/-- Two expressions expand to the same integer coefficients. -/
def SameCoefficients (p q : Poly) : Prop :=
  (∀ symbol exponent, exponent ≠ 0 → p.coefficient symbol exponent = q.coefficient symbol exponent) ∧
    p.constantTerm = q.constantTerm

theorem SameCoefficients.symm {p q : Poly} (h : p.SameCoefficients q) : q.SameCoefficients p :=
  ⟨fun symbol exponent hexponent => (h.1 symbol exponent hexponent).symm, h.2.symm⟩

theorem SameCoefficients.trans {p q r : Poly} (hpq : p.SameCoefficients q) (hqr : q.SameCoefficients r) :
    p.SameCoefficients r :=
  ⟨fun symbol exponent hexponent => (hpq.1 symbol exponent hexponent).trans (hqr.1 symbol exponent hexponent),
    hpq.2.trans hqr.2⟩

theorem sameCoefficients_simplify {p q : Poly} (h : p.simplify = .ok q) : q.SameCoefficients p :=
  ⟨fun symbol _ hexponent => coefficient_simplify h symbol hexponent, constantTerm_simplify h⟩

private theorem eq_of_sameCoefficients {x y : Expansion} {p q : Poly} (hp : ofSummands x.withoutCancelled.terms = .ok p)
    (hq : ofSummands y.withoutCancelled.terms = .ok q) (h : p.SameCoefficients q) : p = q := by
  have same_expansion : x.withoutCancelled = y.withoutCancelled := by
    apply Expansion.eq_of_coefficients
    · simp [Expansion.withoutCancelled]
    · simp [Expansion.withoutCancelled]
    · intro r hr
      rw [← Expansion.coefficient_of_ofSummands hp hr, ← Expansion.coefficient_of_ofSummands hq hr]
      exact h.1 _ _ (mt toInt_eq_zero_iff.1 hr)
    · rw [← Int64.toInt_inj, ← Expansion.constantTerm_of_ofSummands hp, ← Expansion.constantTerm_of_ofSummands hq,
        h.2]
  rw [same_expansion, hq] at hp
  exact (Except.ok.inj hp).symm

theorem exists_simplify_simplify {p q : Poly} (h : p.simplify = .ok q) :
    ∃ r, q.simplify = .ok r ∧ ∃ x : Expansion, ofSummands x.withoutCancelled.terms = .ok r := by
  obtain ⟨x, hx, -⟩ := exists_expansion h
  obtain ⟨r, hr, hwritten⟩ := simplify_of_expansion hx
  exact ⟨r, hr, x, hwritten⟩

theorem eq_iff_sameCoefficients {p p' q q' r r' : Poly} (hq : p.simplify = .ok q) (hr : q.simplify = .ok r)
    (hq' : p'.simplify = .ok q') (hr' : q'.simplify = .ok r') : r = r' ↔ p.SameCoefficients p' := by
  have same : r.SameCoefficients p := (sameCoefficients_simplify hr).trans (sameCoefficients_simplify hq)
  have same' : r'.SameCoefficients p' := (sameCoefficients_simplify hr').trans (sameCoefficients_simplify hq')
  constructor
  · rintro rfl
    exact same.symm.trans same'
  · intro h
    obtain ⟨s, hs, x, hx⟩ := exists_simplify_simplify hq
    obtain ⟨s', hs', y, hy⟩ := exists_simplify_simplify hq'
    obtain rfl : r = s := Except.ok.inj (hr.symm.trans hs)
    obtain rfl : r' = s' := Except.ok.inj (hr'.symm.trans hs')
    exact eq_of_sameCoefficients hx hy (same.trans (h.trans same'.symm))

private theorem simplify_zero : zero.simplify = .ok zero := rfl

/-- A second simplification always succeeds, and leads to the same tree from two expressions exactly if these have the
same coefficients; it leads to zero exactly if all coefficients are zero. -/
theorem simplify_twice_eq_iff {p p' q q' : Poly} (h : p.simplify = .ok q) (h' : p'.simplify = .ok q') :
    ∃ r r', q.simplify = .ok r ∧ q'.simplify = .ok r' ∧ (r = r' ↔ p.SameCoefficients p') ∧
      (r = .constant 0 ↔
        (∀ symbol exponent, exponent ≠ 0 → p.coefficient symbol exponent = 0) ∧ p.constantTerm = 0) := by
  obtain ⟨r, hr, -⟩ := exists_simplify_simplify h
  obtain ⟨r', hr', -⟩ := exists_simplify_simplify h'
  exact ⟨r, r', hr, hr', eq_iff_sameCoefficients h hr h' hr', eq_iff_sameCoefficients h hr simplify_zero simplify_zero⟩

/-- `x - x + 2 (y² + 3)` and `2 y² + z⁰ + 5`, whose first simplified forms differ by `0 x`. -/
theorem simplify_twice_eq_iff_cancelled :
    simplify (.sum [.monomial "x" 1, .product (-1) (.monomial "x" 1),
      .product 2 (.sum [.monomial "y" 2, .constant 3])]) =
        .ok (.sum [.product 0 (.monomial "x" 1), .product 2 (.monomial "y" 2), .constant 6]) ∧
    simplify (.sum [.product 2 (.monomial "y" 2), .monomial "z" 0, .constant 5]) =
      .ok (.sum [.product 2 (.monomial "y" 2), .constant 6]) ∧
    ∃ r r', simplify (.sum [.product 0 (.monomial "x" 1), .product 2 (.monomial "y" 2), .constant 6]) = .ok r ∧
      simplify (.sum [.product 2 (.monomial "y" 2), .constant 6]) = .ok r' ∧
      (r = r' ↔ SameCoefficients
        (.sum [.monomial "x" 1, .product (-1) (.monomial "x" 1), .product 2 (.sum [.monomial "y" 2, .constant 3])])
        (.sum [.product 2 (.monomial "y" 2), .monomial "z" 0, .constant 5])) ∧
      (r = .constant 0 ↔
        (∀ symbol exponent, exponent ≠ 0 → coefficient symbol exponent
          (.sum [.monomial "x" 1, .product (-1) (.monomial "x" 1),
            .product 2 (.sum [.monomial "y" 2, .constant 3])]) = 0) ∧
        constantTerm (.sum [.monomial "x" 1, .product (-1) (.monomial "x" 1),
          .product 2 (.sum [.monomial "y" 2, .constant 3])]) = 0) :=
  ⟨by decide +kernel, by decide +kernel, simplify_twice_eq_iff (by decide +kernel) (by decide +kernel)⟩

end Poly
end PolyDeriv
