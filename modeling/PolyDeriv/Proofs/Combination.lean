import PolyDeriv.Proofs.Amounts
import PolyDeriv.Proofs.Expansion

/-!
# Combined terms

What is left when like terms have been added up is determined by the terms alone: the compound terms, which are passed
over, and the one expansion that all others add up to (`Poly.AddsUpTo`, `Poly.AddsUpTo.unique`).

* Every power that occurs comes once, with its exact coefficient, and the constant is exact (`Poly.ExactSums`,
  `Poly.combine_exact`).
* Nothing is left to be combined after that, and lists may be combined in parts before they are combined as a whole
  (`Poly.combine_by_parts`).
-/

namespace PolyDeriv

/-! ### Failure -/

/-- The exact result of the computation has no 64-bit form. -/
def Overflow.OutOfRange : Overflow → Prop
  | .product a b => ¬ Fits (a.toInt * b.toInt)
  | .sum a b => ¬ Fits (a.toInt + b.toInt)
  | .predecessor e => ¬ Fits (e.toInt - 1)

private theorem outOfRange_of_exactSum {a b : Int64} {e : Overflow} (h : exactSum a b = .error e) : e.OutOfRange := by
  obtain ⟨unfit, rfl⟩ := exactSum_eq_error_iff.1 h
  exact unfit

private theorem outOfRange_of_exactProduct {a b : Int64} {e : Overflow} (h : exactProduct a b = .error e) :
    e.OutOfRange := by
  obtain ⟨unfit, rfl⟩ := exactProduct_eq_error_iff.1 h
  exact unfit

private theorem outOfRange_of_addCoefficient {p : Power} {c : Int64} {entries : List (Power × Int64)} {e : Overflow}
    (h : addCoefficient p c entries = .error e) : e.OutOfRange := by
  induction entries with
  | nil => exact absurd h (by simp [addCoefficient])
  | cons entry rest ih =>
    unfold addCoefficient at h
    split at h
    · exact absurd h (by simp)
    · split at h
      · split at h
        · exact absurd h (by simp)
        · next hsum => exact Except.error.inj h ▸ outOfRange_of_exactSum hsum
      · split at h
        · exact absurd h (by simp)
        · next hrest => exact ih (Except.error.inj h ▸ hrest)

namespace Tally

private theorem outOfRange_of_addConstant {tally : Tally} {c : Int64} {e : Overflow}
    (h : tally.addConstant c = .error e) : e.OutOfRange := by
  unfold addConstant at h
  split at h
  · exact absurd h (by simp)
  · next hsum => exact Except.error.inj h ▸ outOfRange_of_exactSum hsum

private theorem outOfRange_of_addPower {tally : Tally} {p : Power} {c : Int64} {e : Overflow}
    (h : tally.addPower p c = .error e) : e.OutOfRange := by
  unfold addPower at h
  split at h
  · exact absurd h (by simp)
  · next hadd => exact Except.error.inj h ▸ outOfRange_of_addCoefficient hadd

private theorem outOfRange_of_addTerm {tally : Tally} {t : Poly} {e : Overflow} (h : tally.addTerm t = .error e) :
    e.OutOfRange := by
  unfold addTerm at h
  split at h
  · exact outOfRange_of_addConstant h
  · exact outOfRange_of_addPower h
  · exact outOfRange_of_addPower h
  · split at h
    · exact outOfRange_of_addConstant h
    · next hproduct => exact Except.error.inj h ▸ outOfRange_of_exactProduct hproduct
  all_goals exact absurd h (by simp)

end Tally

namespace Poly

/-- Adding up like terms fails only if a number that is computed on the way is too large or too small. -/
theorem outOfRange_of_combine {terms : List Poly} {e : Overflow} (h : combine terms = .error e) : e.OutOfRange := by
  rcases bind_eq_error_iff.1 h with h | ⟨tally, -, h⟩
  · obtain ⟨tally, t, hstep⟩ := exists_of_foldlM_eq_error h
    exact Tally.outOfRange_of_addTerm hstep
  · rcases bind_eq_error_iff.1 h with h | ⟨constant, -, h⟩
    · obtain ⟨sum, entry, hstep⟩ := exists_of_foldlM_eq_error h
      exact outOfRange_of_exactSum hstep
    · exact absurd h (by simp [pure, Except.pure])

/-! ### What terms add up to -/

/-- The term is a power, or a multiple of it. -/
def IsMultipleOf (r : Power) (t : Poly) : Prop :=
  t = .monomial r.symbol r.exponent ∨ ∃ k, t = .product k (.monomial r.symbol r.exponent)

private theorem isMultipleOf_iff {r : Power} {t : Poly} : t.IsMultipleOf r ↔ t.isCompound = false ∧ r ∈ t.powers := by
  constructor
  · rintro (rfl | ⟨k, rfl⟩)
    · exact ⟨rfl, List.mem_singleton_self _⟩
    · exact ⟨rfl, List.mem_singleton_self _⟩
  · rintro ⟨simple, hr⟩
    unfold isCompound at simple
    split at simple
    · simp [powers] at hr
    · next s e =>
      obtain rfl : r = ⟨s, e⟩ := List.mem_singleton.1 hr
      exact .inl rfl
    · simp [powers] at hr
    · next k s e =>
      obtain rfl : r = ⟨s, e⟩ := List.mem_singleton.1 hr
      exact .inr ⟨k, rfl⟩
    all_goals exact absurd simple (by simp)

/-- An expansion that terms add up to, compound terms not counted.  It has the powers that the terms are multiples of,
without the zeroth ones, and it weighs as much as the terms. -/
structure AddsUpTo (terms : List Poly) (x : Expansion) : Prop where
  powers : ∀ r, r ∈ x.powers.map (·.1) ↔ r.exponent ≠ 0 ∧ ∃ t ∈ terms, t.IsMultipleOf r
  weight : ∀ {M : Type} [AddCommGroup M] (W : Weighing M),
    x.weight W = ((terms.filter fun t => ¬ t.isCompound).map (Poly.weight W)).sum

private theorem addsUpTo_tally {terms : List Poly} {tally : Tally} {total : Int64}
    (htally : terms.foldlM Tally.addTerm .empty = .ok tally) (htotal : tally.total = .ok total) :
    AddsUpTo terms (tally.expansion total) where
  powers r := by simp only [Tally.mem_powers_expansion, Tally.mem_powers_addTerms htally, isMultipleOf_iff]
  weight W := by rw [Tally.weight_expansion W htotal, Tally.weight_addTerms W htally]

namespace AddsUpTo

variable {terms others : List Poly} {x y z : Expansion}

/-- Terms add up to one expansion. -/
theorem unique (hx : AddsUpTo terms x) (hy : AddsUpTo terms y) : x = y :=
  Expansion.eq_of_weight (fun r => (hx.powers r).trans (hy.powers r).symm)
    fun W => (hx.weight W).trans (hy.weight W).symm

/-- The powers of two lists are those of one and those of the other. -/
private theorem powers_append (hx : AddsUpTo terms x) (hy : AddsUpTo others y) (hz : AddsUpTo (terms ++ others) z)
    (r : Power) : r ∈ z.powers.map (·.1) ↔ r ∈ x.powers.map (·.1) ∨ r ∈ y.powers.map (·.1) := by
  rw [hz.powers, hx.powers, hy.powers, ← and_or_left]
  simp only [List.mem_append, or_and_right, exists_or]

private theorem weight_append (hx : AddsUpTo terms x) (hy : AddsUpTo others y) (hz : AddsUpTo (terms ++ others) z)
    {M : Type} [AddCommGroup M] (W : Weighing M) : z.weight W = x.weight W + y.weight W := by
  rw [hz.weight, hx.weight, hy.weight, List.filter_append, List.map_append, List.sum_append]

end AddsUpTo

/-- The multiples of powers and the constant that terms come to, compound terms not counted: every power that a term is
a multiple of, zeroth powers excepted, stands once, in ascending order and with its exact coefficient, and the constant
is exact. -/
structure ExactSums (terms : List Poly) (entries : List (Power × Int64)) (constant : Int64) : Prop where
  ascending : Ascending entries
  powers : ∀ r, r ∈ entries.map (·.1) ↔ r.exponent ≠ 0 ∧ ∃ t ∈ terms, t.IsMultipleOf r
  coefficient : ∀ entry ∈ entries, entry.2.toInt =
    coefficientOfTerms entry.1.symbol entry.1.exponent.toInt (terms.filter fun t => ¬ t.isCompound)
  constant : constant.toInt = constantTermOfTerms (terms.filter fun t => ¬ t.isCompound)

private theorem AddsUpTo.exactSums {terms : List Poly} {x : Expansion} (h : AddsUpTo terms x) :
    ExactSums terms x.powers x.constant where
  ascending := x.ascending
  powers := h.powers
  coefficient entry hentry := by
    have nonzero : entry.1.exponent.toInt ≠ 0 := mt toInt_eq_zero_iff.1 (x.proper entry hentry)
    have sum_eq := coefficient_eq_weight entry.1.symbol nonzero (.sum (terms.filter fun t => ¬ t.isCompound))
    rw [weight_sum, ← h.weight, Expansion.weight_ofCoefficient, coefficientIn_of_mem x.ascending hentry] at sum_eq
    exact sum_eq.symm
  constant := by
    have sum_eq := constantTerm_eq_weight (.sum (terms.filter fun t => ¬ t.isCompound))
    rw [weight_sum, ← h.weight, Expansion.weight_ofConstant] at sum_eq
    exact sum_eq.symm

end Poly

/-- An expansion written out behind compound terms, with its constant last even if that is zero. -/
def Expansion.combined (compound : List Poly) (x : Expansion) : List Poly :=
  compound ++ x.multiples ++ [.constant x.constant]

namespace Poly

private theorem exists_addsUpTo {terms result : List Poly} (h : combine terms = .ok result) :
    ∃ x, AddsUpTo terms x ∧ result = x.combined (terms.filter isCompound) := by
  obtain ⟨tally, constant, htally, htotal, rfl⟩ := combine_eq_ok_iff.1 h
  refine ⟨tally.expansion constant, addsUpTo_tally htally htotal, ?_⟩
  rw [Expansion.combined, Expansion.multiples_eq]
  rfl

/-- Adding up like terms gives the compound terms as they are, then the multiples of powers and the constant that the
other terms come to in exact arithmetic.  If it fails, a number on the way was too large or too small. -/
theorem combine_exact (terms : List Poly) :
    (∀ result, combine terms = .ok result → ∃ entries constant, ExactSums terms entries constant ∧
      result = terms.filter isCompound ++ entries.map (fun entry => entry.1.scale entry.2) ++ [.constant constant]) ∧
    ∀ e, combine terms = .error e → e.OutOfRange := by
  refine ⟨fun result h => ?_, fun e => outOfRange_of_combine⟩
  obtain ⟨x, hx, rfl⟩ := exists_addsUpTo h
  refine ⟨x.powers, x.constant, hx.exactSums, ?_⟩
  rw [Expansion.combined, Expansion.multiples_eq]

/-- `y + 3 · 4 + x² - y + x⁰ + 4 x² + 7`, with an empty sum in front and a multiple of a multiple in between; and a
constant that is too large. -/
theorem combine_exact_cancelled :
    let terms : List Poly := [.sum [], .monomial "y" 1, .product 3 (.constant 4), .monomial "x" 2,
      .product (-1) (.monomial "y" 1), .product 2 (.product 1 (.constant 1)), .monomial "x" 0,
      .product 4 (.monomial "x" 2), .constant 7]
    let result : List Poly := [.sum [], .product 2 (.product 1 (.constant 1)), .product 5 (.monomial "x" 2),
      .product 0 (.monomial "y" 1), .constant 20]
    (combine terms = .ok result ∧ ∃ entries constant, ExactSums terms entries constant ∧
      result = terms.filter isCompound ++ entries.map (fun entry => entry.1.scale entry.2) ++ [.constant constant]) ∧
    combine [.constant 9223372036854775807, .monomial "x" 0] = .error (.sum 9223372036854775807 1) ∧
      (Overflow.sum 9223372036854775807 1).OutOfRange := by
  intro terms result
  have combined : combine terms = .ok result := by decide +kernel
  have failed : combine [.constant 9223372036854775807, .monomial "x" 0] = .error (.sum 9223372036854775807 1) := by
    decide +kernel
  exact ⟨⟨combined, (combine_exact terms).1 result combined⟩, failed, (combine_exact _).2 _ failed⟩

end Poly

/-! ### In parts -/

private theorem fits_coefficientIn (entries : List (Power × Int64)) (p : Power) : Fits (coefficientIn entries p) := by
  induction entries with
  | nil => exact fits_zero
  | cons entry rest ih =>
    rw [coefficientIn]
    split
    · exact fits_toInt _
    · exact ih

private theorem Tally.fits_amount (tally : Tally) (key : Option Power) : Fits (tally.amount key) := by
  cases key with
  | none => exact fits_toInt _
  | some p => exact fits_coefficientIn tally.powers p

/-- In ascending order, what is entered under a power is its coefficient, if the power occurs. -/
private theorem amountsOf_powers {entries : List (Power × Int64)} (sorted : Ascending entries) (p : Power) :
    amountsOf (some p) (entries.map fun entry => (some entry.1, entry.2.toInt)) =
      if p ∈ entries.map (·.1) then [coefficientIn entries p] else [] := by
  induction entries with
  | nil => rfl
  | cons entry rest ih =>
    obtain ⟨q, c⟩ := entry
    obtain ⟨below, sorted_rest⟩ := List.pairwise_cons.1 sorted
    rw [List.map_cons, ← List.singleton_append, amountsOf_append, amountsOf_singleton, ih sorted_rest]
    simp only [Option.some_inj, List.map_cons, List.mem_cons, coefficientIn]
    by_cases hp : p = q
    · subst hp
      simp [not_mem_of_forall_lt below]
    · simp only [hp, false_or, if_false, List.nil_append]

namespace Expansion

variable {x y z : Expansion} {compound : List Poly}

/-- What an expansion enters when it is added to something else. -/
def entries (x : Expansion) : List (Option Power × Int) :=
  x.powers.map (fun entry => (some entry.1, entry.2.toInt)) ++ [(none, x.constant.toInt)]

private theorem fits_of_mem_entries {entry : Option Power × Int} (h : entry ∈ x.entries) : Fits entry.2 := by
  rcases List.mem_append.1 h with hpower | hconstant
  · obtain ⟨entry, -, rfl⟩ := List.mem_map.1 hpower
    exact fits_toInt entry.2
  · rw [List.mem_singleton.1 hconstant]
    exact fits_toInt x.constant

/-- There is one amount under a key, or none. -/
private theorem amountsOf_entries (x : Expansion) (key : Option Power) :
    amountsOf key x.entries = [x.amount key] ∨ amountsOf key x.entries = [] ∧ x.amount key = 0 := by
  rw [entries, amountsOf_append, amountsOf_singleton]
  cases key with
  | none =>
    have no_powers : amountsOf none (x.powers.map fun entry => (some entry.1, entry.2.toInt)) = [] := by
      rw [amountsOf, List.map_eq_nil_iff, List.filter_eq_nil_iff]
      intro entry hentry
      obtain ⟨power, -, rfl⟩ := List.mem_map.1 hentry
      simp
    rw [no_powers, if_pos rfl]
    exact .inl rfl
  | some p =>
    rw [amountsOf_powers x.ascending, if_neg (Option.some_ne_none p), List.append_nil]
    by_cases hp : p ∈ x.powers.map (·.1)
    · rw [if_pos hp]
      exact .inl rfl
    · rw [if_neg hp]
      exact .inr ⟨rfl, coefficientIn_eq_zero hp⟩

private theorem sum_amountsOf_entries (x : Expansion) (key : Option Power) :
    (amountsOf key x.entries).sum = x.amount key := by
  rcases x.amountsOf_entries key with one | ⟨none, zero⟩
  · rw [one, List.sum_singleton]
  · rw [none, zero, List.sum_nil]

private theorem sumsFit_append_entries {done : List Int} {key : Option Power} (hdone : SumsFit done)
    (hfits : Fits (done.sum + x.amount key)) : SumsFit (done ++ amountsOf key x.entries) := by
  rcases x.amountsOf_entries key with one | ⟨none, -⟩
  · rw [one, sumsFit_concat_iff]
    exact ⟨hdone, hfits⟩
  · rwa [none, List.append_nil]

/-- An expansion can be added to nothing. -/
private theorem sumsFit_entries (x : Expansion) (key : Option Power) : SumsFit (amountsOf key x.entries) := by
  have alone : Fits (([] : List Int).sum + x.amount key) := by
    rw [List.sum_nil, zero_add]
    exact x.fits_amount key
  exact sumsFit_append_entries sumsFit_nil alone

private theorem amount_eq_add (h : ∀ W : Weighing Int, z.weight W = x.weight W + y.weight W) (key : Option Power) :
    z.amount key = x.amount key + y.amount key := by
  cases key with
  | none =>
    have constants_add := h .ofConstant
    rwa [weight_ofConstant, weight_ofConstant, weight_ofConstant] at constants_add
  | some r =>
    by_cases hr : r.exponent = 0
    · have absent : ∀ w : Expansion, w.amount (some r) = 0 := by
        intro w
        refine coefficientIn_eq_zero fun hmem => ?_
        obtain ⟨entry, hentry, rfl⟩ := List.mem_map.1 hmem
        exact w.proper entry hentry hr
      rw [absent, absent, absent, add_zero]
    · have coefficients_add := h (.ofCoefficient r.symbol r.exponent.toInt (mt toInt_eq_zero_iff.1 hr))
      rwa [weight_ofCoefficient, weight_ofCoefficient, weight_ofCoefficient] at coefficients_add

/-! ### Combined terms, combined again -/

private theorem entries_scale (c : Int64) (p : Power) : (p.scale c).entries = [(some p, c.toInt)] := by
  unfold Power.scale
  split
  · next h =>
    rw [h]
    rfl
  · rfl

private theorem flatMap_entries_combined (h : ∀ t ∈ compound, t.isCompound) :
    (x.combined compound).flatMap Poly.entries = x.entries := by
  have passed_over : compound.flatMap Poly.entries = [] :=
    List.flatMap_eq_nil_iff.2 fun t ht => Poly.entries_of_isCompound (h t ht)
  have entered : x.multiples.flatMap Poly.entries = x.powers.map fun entry => (some entry.1, entry.2.toInt) := by
    rw [multiples_eq, List.flatMap_map, List.map_eq_flatMap]
    exact List.flatMap_congr fun entry _ => entries_scale entry.2 entry.1
  rw [combined, List.flatMap_append, List.flatMap_append, passed_over, entered]
  rfl

private theorem combined_eq_append (compound : List Poly) (x : Expansion) :
    x.combined compound = compound ++ x.combined [] :=
  List.append_assoc ..

/-- No compound terms come from the expansion itself. -/
private theorem isCompound_of_mem_combined {t : Poly} (h : t ∈ x.combined []) : t.isCompound = false := by
  rcases List.mem_append.1 h with hmultiple | hconstant
  · rw [List.nil_append, multiples_eq] at hmultiple
    obtain ⟨entry, -, rfl⟩ := List.mem_map.1 hmultiple
    exact isCompound_scale entry.2 entry.1
  · rw [List.mem_singleton.1 hconstant]
    rfl

private theorem filter_isCompound_combined (h : ∀ t ∈ compound, t.isCompound) :
    (x.combined compound).filter Poly.isCompound = compound := by
  have none_kept : (x.combined []).filter Poly.isCompound = [] :=
    List.filter_eq_nil_iff.2 fun t ht => by simp [isCompound_of_mem_combined ht]
  rw [combined_eq_append, List.filter_append, none_kept, List.append_nil, List.filter_eq_self.2 h]

private theorem filter_not_isCompound_combined (h : ∀ t ∈ compound, t.isCompound) :
    ((x.combined compound).filter fun t => ¬ t.isCompound) = x.combined [] := by
  have none_kept : (compound.filter fun t => ¬ t.isCompound) = [] :=
    List.filter_eq_nil_iff.2 fun t ht => by simp [h t ht]
  have all_kept : ((x.combined []).filter fun t => ¬ t.isCompound) = x.combined [] :=
    List.filter_eq_self.2 fun t ht => by simp [isCompound_of_mem_combined ht]
  rw [combined_eq_append, List.filter_append, none_kept, all_kept, List.nil_append]

private theorem isMultipleOf_scale_iff {c : Int64} {p r : Power} : (p.scale c).IsMultipleOf r ↔ r = p := by
  rw [Poly.isMultipleOf_iff, powers_scale, List.mem_singleton, isCompound_scale]
  simp

private theorem exists_isMultipleOf_combined (h : ∀ t ∈ compound, t.isCompound) {r : Power} :
    (∃ t ∈ x.combined compound, t.IsMultipleOf r) ↔ r ∈ x.powers.map (·.1) := by
  rw [combined, multiples_eq]
  constructor
  · rintro ⟨t, ht, hr⟩
    rcases List.mem_append.1 ht with ht | hconstant
    · rcases List.mem_append.1 ht with hcompound | hmultiple
      · exact absurd (h t hcompound) (by simp [(Poly.isMultipleOf_iff.1 hr).1])
      · obtain ⟨entry, hentry, rfl⟩ := List.mem_map.1 hmultiple
        exact isMultipleOf_scale_iff.1 hr ▸ List.mem_map_of_mem hentry
    · rw [List.mem_singleton.1 hconstant] at hr
      exact absurd (Poly.isMultipleOf_iff.1 hr).2 (by simp [Poly.powers])
  · intro hr
    obtain ⟨entry, hentry, rfl⟩ := List.mem_map.1 hr
    have written : entry.1.scale entry.2 ∈ x.powers.map fun entry => entry.1.scale entry.2 := List.mem_map_of_mem hentry
    exact ⟨_, List.mem_append_left _ (List.mem_append_right _ written), isMultipleOf_scale_iff.2 rfl⟩

/-- What an expansion is written as adds up to the expansion. -/
theorem addsUpTo_combined (h : ∀ t ∈ compound, t.isCompound) (x : Expansion) :
    Poly.AddsUpTo (x.combined compound) x where
  powers r := by
    rw [exists_isMultipleOf_combined h, iff_and_self]
    intro hr
    obtain ⟨entry, hentry, rfl⟩ := List.mem_map.1 hr
    exact x.proper entry hentry
  weight W := by
    rw [filter_not_isCompound_combined h]
    exact (weight_multiples_append W x).symm

end Expansion

namespace Poly

/-- Without zeroth powers, adding up like terms succeeds if the sums under all keys fit. -/
theorem exists_combine {terms : List Poly} (proper : ∀ t ∈ terms, ∀ r, t.IsMultipleOf r → r.exponent ≠ 0)
    (fit : ∀ entry ∈ terms.flatMap entries, Fits entry.2)
    (sums_fit : ∀ key, SumsFit (amountsOf key (terms.flatMap entries))) : ∃ result, combine terms = .ok result := by
  obtain ⟨tally, htally⟩ := Tally.exists_addTerms_iff.2 ⟨fit, sums_fit⟩
  have proper_tally : ∀ entry ∈ tally.powers, entry.1.exponent ≠ 0 := by
    intro entry hentry
    obtain ⟨t, ht, hmultiple⟩ := (Tally.mem_powers_addTerms htally entry.1).1 (List.mem_map_of_mem hentry)
    exact proper t ht _ (isMultipleOf_iff.2 hmultiple)
  exact ⟨_, combine_eq_ok_iff.2 ⟨tally, tally.constant, htally, (Expansion.mk tally proper_tally).total_eq, rfl⟩⟩

section

variable {c d : List Poly} {x y z : Expansion}

private theorem proper_of_combined (hc : ∀ t ∈ c, t.isCompound) {t : Poly} (ht : t ∈ x.combined c) {r : Power}
    (hr : t.IsMultipleOf r) : r.exponent ≠ 0 :=
  ((x.addsUpTo_combined hc).powers r).1 ((Expansion.exists_isMultipleOf_combined hc).1 ⟨t, ht, hr⟩) |>.1

private theorem combine_combined (hc : ∀ t ∈ c, t.isCompound) (x : Expansion) :
    combine (x.combined c) = .ok (x.combined c) := by
  obtain ⟨result, hresult⟩ : ∃ result, combine (x.combined c) = .ok result := by
    refine exists_combine (fun t ht r hr => proper_of_combined hc ht hr) ?_ ?_
    · rw [Expansion.flatMap_entries_combined hc]
      exact fun entry => Expansion.fits_of_mem_entries
    · rw [Expansion.flatMap_entries_combined hc]
      exact x.sumsFit_entries
  obtain ⟨y, hy, rfl⟩ := exists_addsUpTo hresult
  rw [hresult, hy.unique (x.addsUpTo_combined hc), Expansion.filter_isCompound_combined hc]

private theorem combine_append_combined (hc : ∀ t ∈ c, t.isCompound) (hd : ∀ t ∈ d, t.isCompound)
    (hpowers : ∀ r, r ∈ z.powers.map (·.1) ↔ r ∈ x.powers.map (·.1) ∨ r ∈ y.powers.map (·.1))
    (hweight : ∀ W : Weighing Int, z.weight W = x.weight W + y.weight W) :
    combine (x.combined c ++ y.combined d) = .ok (z.combined (c ++ d)) := by
  have entered : (x.combined c ++ y.combined d).flatMap entries = x.entries ++ y.entries := by
    rw [List.flatMap_append, Expansion.flatMap_entries_combined hc, Expansion.flatMap_entries_combined hd]
  obtain ⟨result, hresult⟩ : ∃ result, combine (x.combined c ++ y.combined d) = .ok result := by
    refine exists_combine ?_ ?_ ?_
    · intro t ht r hr
      rcases List.mem_append.1 ht with ht | ht
      · exact proper_of_combined hc ht hr
      · exact proper_of_combined hd ht hr
    · rw [entered]
      intro entry hentry
      rcases List.mem_append.1 hentry with hentry | hentry
      · exact Expansion.fits_of_mem_entries hentry
      · exact Expansion.fits_of_mem_entries hentry
    · -- the sum of the two amounts under a key is the amount in the third expansion
      intro key
      have whole : Fits ((amountsOf key x.entries).sum + y.amount key) := by
        rw [x.sum_amountsOf_entries, ← Expansion.amount_eq_add hweight]
        exact z.fits_amount key
      rw [entered, amountsOf_append]
      exact Expansion.sumsFit_append_entries (x.sumsFit_entries key) whole
  obtain ⟨w, hw, rfl⟩ := exists_addsUpTo hresult
  have hx := x.addsUpTo_combined hc
  have hy := y.addsUpTo_combined hd
  have same : w = z := by
    refine Expansion.eq_of_weight (fun r => ?_) fun W => ?_
    · rw [hx.powers_append hy hw, hpowers]
    · rw [hx.weight_append hy hw, hweight]
  rw [hresult, same, List.filter_append, Expansion.filter_isCompound_combined hc,
    Expansion.filter_isCompound_combined hd]

end

/-- Terms that have been combined stay as they are when they are combined again.  If two lists are combined on their own
and can be combined at once, then what they are combined to can be combined as well, with the same result as at once. -/
theorem combine_by_parts {a x : List Poly} (hx : combine a = .ok x) : combine x = .ok x ∧
    ∀ b y z, combine b = .ok y → combine (a ++ b) = .ok z → combine (x ++ y) = .ok z := by
  obtain ⟨xa, ha, rfl⟩ := exists_addsUpTo hx
  have compound : ∀ terms : List Poly, ∀ t ∈ terms.filter isCompound, t.isCompound :=
    fun terms t ht => (List.mem_filter.1 ht).2
  refine ⟨combine_combined (compound a) xa, fun b y z hy hz => ?_⟩
  obtain ⟨xb, hb, rfl⟩ := exists_addsUpTo hy
  obtain ⟨xz, hab, rfl⟩ := exists_addsUpTo hz
  rw [List.filter_append]
  exact combine_append_combined (compound a) (compound b) (ha.powers_append hb hab) fun W => ha.weight_append hb hab W

/-- `x⁰ + 2 y - 2 y` and `(0 + 1) + 5 y + x⁰`, where the zeroth powers meet a constant on one way and each other on the
other. -/
theorem combine_by_parts_cancelled :
    let a : List Poly := [.monomial "x" 0, .product 2 (.monomial "y" 1), .product (-2) (.monomial "y" 1)]
    let b : List Poly := [.sum [.constant 0, .constant 1], .product 5 (.monomial "y" 1), .monomial "x" 0]
    let x : List Poly := [.product 0 (.monomial "y" 1), .constant 1]
    let y : List Poly := [.sum [.constant 0, .constant 1], .product 5 (.monomial "y" 1), .constant 1]
    let z : List Poly := [.sum [.constant 0, .constant 1], .product 5 (.monomial "y" 1), .constant 2]
    combine a = .ok x ∧ combine b = .ok y ∧ combine (a ++ b) = .ok z ∧
      combine x = .ok x ∧ combine (x ++ y) = .ok z := by
  intro a b x y z
  have first : combine a = .ok x := by decide +kernel
  have second : combine b = .ok y := by decide +kernel
  have at_once : combine (a ++ b) = .ok z := by decide +kernel
  have parts := combine_by_parts first
  exact ⟨first, second, at_once, parts.1, parts.2 b y z second at_once⟩

end Poly
end PolyDeriv
