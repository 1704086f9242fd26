import PolyDeriv.Proofs.Contributions
import PolyDeriv.Proofs.Denotation
import PolyDeriv.Proofs.Simplification

/-!
# Overflow

When simplification fails: exactly when one of the exact numbers that it computes on its way is outside the 64-bit range
(`Poly.Overflows`).  Nothing else can go wrong with an expression whose variables are symbols, and no number is out of
range unnoticed (`Poly.simplify_overflows_iff`).
-/

namespace PolyDeriv
namespace Poly

/-- What the live leaves contribute under a key, all in all. -/
def totalOf (key : Option Power) (p : Poly) : Int := (amountsOf key (p.contributions 1)).sum

/-- The symbols with live zeroth powers, in ascending order. -/
structure ZerothSymbols (p : Poly) (symbols : List String) : Prop where
  ascending : symbols.Pairwise (· < ·)
  live : ∀ s, s ∈ symbols ↔ ⟨s, 0⟩ ∈ p.livePowers

/-- A number that simplification has to compute is outside the 64-bit range. -/
inductive Overflows (p : Poly) : Prop
  /-- The multiplier of a live node. -/
  | multiplier {m : Int} {q : Poly} : (m, q) ∈ p.liveNodes 1 → ¬ Fits m → Overflows p
  /-- The contribution of a live constant. -/
  | constant {m : Int} {c : Int64} : (m, .constant c) ∈ p.liveNodes 1 → ¬ Fits (m * c.toInt) → Overflows p
  /-- A sum on the way through the contributions to one power, or to the constant. -/
  | likeTerms {key : Option Power} : ¬ SumsFit (amountsOf key (p.contributions 1)) → Overflows p
  /-- A sum on the way from the constant through the zeroth powers. -/
  | total {symbols : List String} : p.ZerothSymbols symbols →
      ¬ SumsFit (p.totalOf none :: symbols.map fun s => p.totalOf (some ⟨s, 0⟩)) → Overflows p

private theorem not_overflows_iff {p : Poly} : ¬ p.Overflows ↔
    (∀ node ∈ p.liveNodes 1, NodeFits node) ∧ (∀ key, SumsFit (amountsOf key (p.contributions 1))) ∧
      ∀ symbols, p.ZerothSymbols symbols →
        SumsFit (p.totalOf none :: symbols.map fun s => p.totalOf (some ⟨s, 0⟩)) := by
  constructor
  · intro h
    refine ⟨?_, ?_, ?_⟩
    · rintro ⟨m, q⟩ hnode
      have multiplier_fits : Fits m := by
        by_contra hm
        exact h (.multiplier hnode hm)
      refine ⟨multiplier_fits, fun entry hentry => ?_⟩
      cases q with
      | constant c =>
        obtain rfl := List.mem_singleton.1 hentry
        by_contra hc
        exact h (.constant hnode hc)
      | monomial s e =>
        obtain rfl := List.mem_singleton.1 hentry
        exact multiplier_fits
      | product c q => simp [contribution] at hentry
      | sum terms => simp [contribution] at hentry
    · intro key
      by_contra hkey
      exact h (.likeTerms hkey)
    · intro symbols hsymbols
      by_contra htotal
      exact h (.total hsymbols htotal)
  · rintro ⟨nodes_fit, sums_fit, totals_fit⟩ (⟨hnode, hm⟩ | ⟨hnode, hc⟩ | hkey | ⟨hsymbols, htotal⟩)
    · exact hm (nodes_fit _ hnode).1
    · exact hc ((nodes_fit _ hnode).2 _ (List.mem_singleton_self _))
    · exact hkey (sums_fit _)
    · exact htotal (totals_fit _ hsymbols)

theorem ZerothSymbols.unique {p : Poly} {symbols others : List String} (h : p.ZerothSymbols symbols)
    (h' : p.ZerothSymbols others) : symbols = others := by
  have asymm : Std.Antisymm fun a b : String => a < b :=
    ⟨fun _ _ hab hba => absurd (String.lt_trans hab hba) (String.lt_irrefl _)⟩
  have irrefl : Std.Irrefl fun a b : String => a < b := ⟨String.lt_irrefl⟩
  exact h.ascending.eq_of_mem_iff h'.ascending fun s => (h.live s).trans (h'.live s).symm

/-! ### The stages one by one -/

section

variable {p d : Poly} {tally : Tally}

theorem exists_distribute_one_iff : (∃ d, p.distribute 1 = .ok d) ↔ ∀ node ∈ p.liveNodes 1, NodeFits node :=
  exists_distribute_iff (by decide)

private theorem nonzero_entries_distribute_one (hd : p.distribute 1 = .ok d) :
    nonzero (d.summands.flatMap entries) = nonzero (p.contributions 1) := by
  rw [nonzero_entries_distribute hd, if_neg (by decide), Int64.toInt_one]

private theorem fits_of_scaled {t : Poly} (h : t.Scaled) : ∀ entry ∈ t.entries, Fits entry.2 := by
  cases h <;> simp [entries, fits_toInt]

/-- Once distribution has succeeded, adding up like terms depends on the contributions alone. -/
private theorem exists_addTerms_iff_sumsFit (hd : p.distribute 1 = .ok d) :
    (∃ tally, d.summands.foldlM Tally.addTerm .empty = .ok tally) ↔
      ∀ key, SumsFit (amountsOf key (p.contributions 1)) := by
  have entries_fit : ∀ entry ∈ d.summands.flatMap entries, Fits entry.2 := by
    intro entry hentry
    obtain ⟨t, ht, hentry⟩ := List.mem_flatMap.1 hentry
    exact fits_of_scaled (scaled_of_distribute hd t ht) entry hentry
  have same := fun key => (sums_of_nonzero_eq (nonzero_entries_distribute_one hd) key).1
  rw [Tally.exists_addTerms_iff, and_iff_right entries_fit]
  exact forall_congr' same

private theorem amount_eq_totalOf (hd : p.distribute 1 = .ok d)
    (htally : d.summands.foldlM Tally.addTerm .empty = .ok tally) (key : Option Power) :
    tally.amount key = p.totalOf key := by
  rw [Tally.amount_addTerms htally, totalOf]
  exact (sums_of_nonzero_eq (nonzero_entries_distribute_one hd) key).2

end

end Poly

namespace Tally

/-- The symbols of the zeroth powers. -/
private def zerothSymbols (tally : Tally) : List String := (tally.powers.filter (·.1.exponent = 0)).map (·.1.symbol)

private theorem zeroth_amounts (tally : Tally) : (tally.powers.filter (·.1.exponent = 0)).map (·.2.toInt) =
    tally.zerothSymbols.map fun s => tally.amount (some ⟨s, 0⟩) := by
  rw [zerothSymbols, List.map_map]
  refine List.map_congr_left fun entry hentry => ?_
  obtain ⟨hmem, hzero⟩ := List.mem_filter.1 hentry
  have zeroth : entry.1.exponent = 0 := by simpa using hzero
  have power_eq : (⟨entry.1.symbol, 0⟩ : Power) = entry.1 := by rw [← zeroth]
  show entry.2.toInt = coefficientIn tally.powers ⟨entry.1.symbol, 0⟩
  rw [power_eq, coefficientIn_of_mem tally.ascending hmem]

private theorem ascending_zerothSymbols (tally : Tally) : tally.zerothSymbols.Pairwise (· < ·) := by
  rw [zerothSymbols, List.pairwise_map, List.pairwise_filter]
  refine tally.ascending.imp fun {a b} hlt ha hb => ?_
  have ha : a.1.exponent = 0 := by simpa using ha
  have hb : b.1.exponent = 0 := by simpa using hb
  rcases Power.lt_iff.1 hlt with hsymbol | ⟨-, hexponent⟩
  · exact hsymbol
  · rw [ha, hb] at hexponent
    exact absurd hexponent Int64.lt_irrefl

private theorem mem_zerothSymbols_iff {tally : Tally} {s : String} :
    s ∈ tally.zerothSymbols ↔ ⟨s, 0⟩ ∈ tally.powers.map (·.1) := by
  simp only [zerothSymbols, List.mem_map, List.mem_filter, decide_eq_true_eq]
  constructor
  · rintro ⟨entry, ⟨hentry, hzero⟩, rfl⟩
    exact ⟨entry, hentry, by rw [← hzero]⟩
  · rintro ⟨entry, hentry, hpower⟩
    exact ⟨entry, ⟨hentry, by rw [hpower]⟩, by rw [hpower]⟩

end Tally

namespace Poly

variable {p d : Poly} {tally : Tally}

private theorem zerothSymbols_tally (hd : p.distribute 1 = .ok d)
    (htally : d.summands.foldlM Tally.addTerm .empty = .ok tally) : p.ZerothSymbols tally.zerothSymbols where
  ascending := tally.ascending_zerothSymbols
  live s := by rw [Tally.mem_zerothSymbols_iff, mem_powers_tally hd htally]

/-- Once like terms have been added up, the total depends on the contributions alone. -/
private theorem exists_total_iff_sumsFit (hd : p.distribute 1 = .ok d)
    (htally : d.summands.foldlM Tally.addTerm .empty = .ok tally) : (∃ total, tally.total = .ok total) ↔
      ∀ symbols, p.ZerothSymbols symbols →
        SumsFit (p.totalOf none :: symbols.map fun s => p.totalOf (some ⟨s, 0⟩)) := by
  have zeroth := zerothSymbols_tally hd htally
  have constant_eq : tally.constant.toInt = p.totalOf none := amount_eq_totalOf hd htally none
  rw [Tally.exists_total_iff, Tally.zeroth_amounts, constant_eq]
  simp only [amount_eq_totalOf hd htally]
  constructor
  · intro h symbols hsymbols
    rwa [hsymbols.unique zeroth]
  · intro h
    exact h _ zeroth

/-! ### Writing down the result -/

theorem check_scale {c : Int64} {r : Power} (h : IsSymbol r.symbol) : (r.scale c).check = .ok () := by
  have power_checked : (monomial r.symbol r.exponent).check = .ok () := check_monomial_iff.2 h
  unfold Power.scale
  split
  · exact power_checked
  · exact power_checked

/-- The terms of an expansion can be joined, if the variables are symbols. -/
private theorem exists_ofSummands {x : Expansion} (h : ∀ entry ∈ x.powers, IsSymbol entry.1.symbol) :
    ∃ q, ofSummands x.terms = .ok q := by
  have checked : ∀ t ∈ x.terms, t.check = .ok () := by
    intro t ht
    rw [Expansion.terms_eq, Expansion.multiples_eq] at ht
    rcases List.mem_append.1 ht with ht | ht
    · obtain ⟨entry, hentry, rfl⟩ := List.mem_map.1 ht
      exact check_scale (h entry hentry)
    · obtain ⟨c, _, rfl⟩ := List.mem_map.1 ht
      rfl
  have nonempty : 0 < x.terms.length := List.length_pos_iff.2 x.terms_ne_nil
  rcases Nat.lt_or_ge x.terms.length 2 with short | long
  · obtain ⟨q, hq⟩ := List.length_eq_one_iff.1 (show x.terms.length = 1 by omega)
    exact ⟨q, ofSummands_eq_ok_iff.2 (.inl hq)⟩
  · exact ⟨_, ofSummands_eq_ok_iff.2 (.inr ⟨long, checked, rfl⟩)⟩

private theorem IsExpansion.exists_ofSummands {x : Expansion} (hx : p.IsExpansion x)
    (hsymbols : ∀ r ∈ p.powers, IsSymbol r.symbol) : ∃ q, ofSummands x.terms = .ok q := by
  refine Poly.exists_ofSummands fun entry hentry => ?_
  have live := ((hx.powers entry.1).1 (List.mem_map_of_mem hentry)).2
  exact hsymbols _ (p.livePowers_subset _ live)

/-! ### Simplification as a whole -/

theorem exists_simplify_iff (hsymbols : ∀ r ∈ p.powers, IsSymbol r.symbol) :
    (∃ q, p.simplify = .ok q) ↔ ¬ p.Overflows := by
  rw [not_overflows_iff, ← exists_distribute_one_iff]
  constructor
  · rintro ⟨q, h⟩
    obtain ⟨d, tally, total, hd, htally, htotal, -⟩ := simplify_eq_ok_iff.1 h
    exact ⟨⟨d, hd⟩, (exists_addTerms_iff_sumsFit hd).1 ⟨tally, htally⟩,
      (exists_total_iff_sumsFit hd htally).1 ⟨total, htotal⟩⟩
  · rintro ⟨⟨d, hd⟩, sums_fit, totals_fit⟩
    obtain ⟨tally, htally⟩ := (exists_addTerms_iff_sumsFit hd).2 sums_fit
    obtain ⟨total, htotal⟩ := (exists_total_iff_sumsFit hd htally).2 totals_fit
    obtain ⟨q, hq⟩ := (isExpansion_tally hd htally htotal).exists_ofSummands hsymbols
    exact ⟨q, simplify_eq_ok_iff.2 ⟨d, tally, total, hd, htally, htotal, hq⟩⟩

/-- There is no other error than overflow. -/
theorem simplify_eq_error (hsymbols : ∀ r ∈ p.powers, IsSymbol r.symbol) {e : Error} (h : p.simplify = .error e) :
    ∃ computation, e = .overflow computation := by
  rcases p.simplify_cases with ⟨computation, failed⟩ | ⟨x, hx, written⟩
  · exact ⟨computation, Except.error.inj (h.symm.trans failed)⟩
  · obtain ⟨q, hq⟩ := hx.exists_ofSummands hsymbols
    rw [hq] at written
    exact absurd (h.symm.trans written) (by simp [Except.mapError])

/-- Simplification of an expression whose variables are symbols fails exactly if a number that it has to compute is
outside the 64-bit range, and it always fails with an overflow. -/
theorem simplify_overflows_iff (hsymbols : ∀ r ∈ p.powers, IsSymbol r.symbol) :
    ((∃ computation, p.simplify = .error (.overflow computation)) ↔ p.Overflows) ∧
      ((∃ q, p.simplify = .ok q) ↔ ¬ p.Overflows) := by
  have success := exists_simplify_iff hsymbols
  refine ⟨?_, success⟩
  constructor
  · rintro ⟨computation, h⟩
    by_contra hp
    obtain ⟨q, hq⟩ := success.2 hp
    exact absurd (h.symm.trans hq) (by simp)
  · intro hp
    cases h : p.simplify with
    | ok q => exact absurd hp (success.1 ⟨q, h⟩)
    | error e =>
      obtain ⟨computation, rfl⟩ := simplify_eq_error hsymbols h
      exact ⟨computation, rfl⟩

/-- `x⁰` is added to the greatest constant before `-z⁰` is, although it stands behind it; `0 y⁰` is not added at all. -/
theorem simplify_overflows_iff_total :
    let p : Poly := .sum [.constant 9223372036854775807, .product 0 (.monomial "y" 0), .product (-1) (.monomial "z" 0),
      .monomial "x" 0]
    (∀ r ∈ p.powers, IsSymbol r.symbol) ∧ p.Overflows ∧
      p.simplify = .error (.overflow (.sum 9223372036854775807 1)) := by
  intro p
  have symbols : ∀ r ∈ p.powers, IsSymbol r.symbol := by
    have accepted : ∀ r ∈ p.powers, TokenClass.symbol.accepts r.symbol := by decide +kernel
    exact fun r hr => accepts_symbol_iff.1 (accepted r hr)
  have failed : p.simplify = .error (.overflow (.sum 9223372036854775807 1)) := by decide +kernel
  exact ⟨symbols, (simplify_overflows_iff symbols).1.1 ⟨_, failed⟩, failed⟩

end Poly
end PolyDeriv
