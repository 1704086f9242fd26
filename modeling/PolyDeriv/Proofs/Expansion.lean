import Mathlib.Data.List.Sort
import PolyDeriv.Poly.NormalForm
import PolyDeriv.Proofs.LikeTerms
import PolyDeriv.Proofs.Terms

/-!
# Expansions

An expansion is a tally without zeroth powers: a list of powers in ascending order, each with its coefficient, and a
constant.  It is written as a list of terms in normal form (`normalTerms_terms`), and the coefficients of that list are
those of the expansion (`weight_terms`).  Expansions in which no coefficient is zero are equal if their coefficients
are (`eq_of_coefficients`), and any two are if in addition they have the same powers (`eq_of_weight`).
-/

namespace PolyDeriv

attribute [ext] Tally

/-- A tally without zeroth powers. -/
@[ext] structure Expansion extends Tally where
  proper : ∀ entry ∈ powers, entry.1.exponent ≠ 0

/-- What is left of a tally when the zeroth powers have gone into the given total. -/
def Tally.expansion (tally : Tally) (total : Int64) : Expansion where
  powers := tally.powers.filter (·.1.exponent ≠ 0)
  ascending := tally.ascending.filter _
  constant := total
  proper := by simp

theorem Tally.mem_powers_expansion {tally : Tally} {total : Int64} {r : Power} :
    r ∈ (tally.expansion total).powers.map (·.1) ↔ r.exponent ≠ 0 ∧ r ∈ tally.powers.map (·.1) := by
  simp only [Tally.expansion, List.mem_map, List.mem_filter, decide_eq_true_eq]
  constructor
  · rintro ⟨entry, ⟨hentry, hr⟩, rfl⟩
    exact ⟨hr, entry, hentry, rfl⟩
  · rintro ⟨hr, entry, hentry, rfl⟩
    exact ⟨entry, ⟨hentry, hr⟩, rfl⟩

/-- Zeroth powers weigh as much in the constant as they do on their own. -/
theorem Tally.weight_expansion {M : Type} [AddCommGroup M] (W : Weighing M) {tally : Tally} {total : Int64}
    (h : tally.total = .ok total) : (tally.expansion total).weight W = tally.weight W := by
  rw [← Tally.weight_total W h, Tally.weight_multiples]
  rfl

namespace Expansion

/-- The terms that an expansion is written as. -/
def terms (x : Expansion) : List Poly := Poly.withoutZeros (x.multiples ++ [.constant x.constant])

/-- The constants behind the multiples of powers: none, if the constant is zero and there are powers. -/
def constants (x : Expansion) : List Int64 := if x.constant = 0 ∧ x.powers ≠ [] then [] else [x.constant]

/-- The expansion without the powers whose coefficients have cancelled out. -/
def withoutCancelled (x : Expansion) : Expansion where
  powers := x.powers.filter (·.2 ≠ 0)
  ascending := x.ascending.filter _
  constant := x.constant
  proper entry h := x.proper entry (List.mem_filter.1 h).1

theorem filter_proper (x : Expansion) : x.powers.filter (·.1.exponent ≠ 0) = x.powers := by
  rw [List.filter_eq_self]
  intro entry hentry
  simpa using x.proper entry hentry

/-- There is nothing to add to the constant. -/
theorem total_eq (x : Expansion) : x.total = .ok x.constant := by
  have none_zeroth : x.powers.filter (·.1.exponent = 0) = [] := by
    rw [List.filter_eq_nil_iff]
    intro entry hentry
    simpa using x.proper entry hentry
  rw [Tally.total, none_zeroth]
  rfl

theorem multiples_eq (x : Expansion) : x.multiples = x.powers.map fun entry => entry.1.scale entry.2 := by
  rw [Tally.multiples, filter_proper]

private theorem scale_ne_zero (c : Int64) (p : Power) : p.scale c ≠ Poly.zero := by
  unfold Power.scale Poly.zero
  split <;> simp

theorem terms_eq (x : Expansion) : x.terms = x.multiples ++ x.constants.map .constant := by
  have kept : x.multiples.filter (· ≠ Poly.zero) = x.multiples := by
    rw [List.filter_eq_self, multiples_eq]
    intro t ht
    obtain ⟨entry, _, rfl⟩ := List.mem_map.1 ht
    simpa using scale_ne_zero entry.2 entry.1
  have length_eq : x.multiples.length = x.powers.length := by
    rw [multiples_eq, List.length_map]
  unfold terms Poly.withoutZeros constants
  rw [List.length_append, length_eq, List.length_singleton]
  split
  · next hlength =>
    have nil : x.powers = [] := List.length_eq_zero_iff.1 (by omega)
    simp [nil]
  · next hlength =>
    have nonempty : x.powers ≠ [] := fun nil => hlength (by simp [nil])
    rw [List.filter_append, kept]
    by_cases hc : x.constant = 0
    · simp [hc, nonempty, Poly.zero]
    · simp [hc, Poly.zero]

theorem terms_ne_nil (x : Expansion) : x.terms ≠ [] := by
  intro h
  rw [terms_eq, List.append_eq_nil_iff, List.map_eq_nil_iff] at h
  have no_powers : x.powers = [] := by
    rw [multiples_eq] at h
    exact List.map_eq_nil_iff.1 h.1
  exact absurd h.2 (by simp [constants, no_powers])

/-- Without powers, the constant is written alone, even if it is zero. -/
theorem terms_of_nil {x : Expansion} (nil : x.powers = []) : x.terms = [.constant x.constant] := by
  rw [terms_eq, multiples_eq, constants, nil]
  simp

theorem powers_scale (c : Int64) (p : Power) : (p.scale c).powers = [p] := by
  unfold Power.scale
  split <;> rfl

theorem isCompound_scale (c : Int64) (p : Power) : (p.scale c).isCompound = false := by
  unfold Power.scale
  split <;> rfl

/-- The powers that are written are those of the expansion. -/
theorem mem_powers_terms {x : Expansion} {r : Power} :
    (∃ t ∈ x.terms, r ∈ t.powers) ↔ r ∈ x.powers.map (·.1) := by
  simp only [terms_eq, multiples_eq, List.mem_append, List.mem_map]
  constructor
  · rintro ⟨t, ⟨entry, hentry, rfl⟩ | ⟨c, -, rfl⟩, hr⟩
    · rw [powers_scale, List.mem_singleton] at hr
      exact ⟨entry, hentry, hr.symm⟩
    · exact absurd hr (by simp [Poly.powers])
  · rintro ⟨entry, hentry, rfl⟩
    exact ⟨_, .inl ⟨entry, hentry, rfl⟩, by simp [powers_scale]⟩

theorem normalTerms_terms (x : Expansion) : Poly.NormalTerms x.terms (x.powers.map (·.1)) x.constants where
  split := by
    refine ⟨x.multiples, ?_, x.terms_eq⟩
    rw [multiples_eq, List.map_map, List.map_map]
    apply List.map_congr_left
    intro entry _
    exact Poly.power?_scale entry.2 entry.1
  ascending := List.pairwise_map.2 x.ascending
  proper := by
    intro p hp
    obtain ⟨entry, hentry, rfl⟩ := List.mem_map.1 hp
    exact x.proper entry hentry
  at_most_one := by
    unfold constants
    split <;> simp
  nonzero := by
    intro hzero
    unfold constants at hzero
    split at hzero
    · exact absurd hzero (by simp)
    · next h =>
      have constant_zero : x.constant = 0 := (List.mem_singleton.1 hzero).symm
      by_contra nonempty
      exact h ⟨constant_zero, fun nil => nonempty (by simp [nil])⟩

theorem expansion_terms (tally : Tally) (total : Int64) :
    (tally.expansion total).terms = Poly.withoutZeros (tally.multiples ++ [.constant total]) := by
  rw [terms, multiples_eq]
  rfl

/-! ### Coefficients -/

section

variable {M : Type} [AddCommGroup M]

/-- The multiples and the constant weigh as much as the expansion, also if the constant is zero. -/
theorem weight_multiples_append (W : Weighing M) (x : Expansion) :
    ((x.multiples ++ [Poly.constant x.constant]).map (Poly.weight W)).sum = x.weight W := by
  rw [List.map_append, List.sum_append, Tally.weight_multiples, filter_proper, List.map_singleton, List.sum_singleton]
  rfl

theorem weight_terms (W : Weighing M) (x : Expansion) : (x.terms.map (Poly.weight W)).sum = x.weight W := by
  rw [terms, Poly.weight_withoutZeros, weight_multiples_append]

theorem weight_of_ofSummands (W : Weighing M) {x : Expansion} {q : Poly} (h : Poly.ofSummands x.terms = .ok q) :
    q.weight W = x.weight W := by
  rw [Poly.weight_ofSummands W h, weight_terms]

end

private theorem weightOfPowers_ofCoefficient {r : Power} (h : r.exponent.toInt ≠ 0) {entries : List (Power × Int64)}
    (sorted : Ascending entries) :
    Tally.weightOfPowers (.ofCoefficient r.symbol r.exponent.toInt h) entries = coefficientIn entries r := by
  induction entries with
  | nil => rfl
  | cons entry rest ih =>
    obtain ⟨q, c⟩ := entry
    obtain ⟨below, sorted_rest⟩ := List.pairwise_cons.1 sorted
    have same : q.symbol = r.symbol ∧ q.exponent.toInt = r.exponent.toInt ↔ r = q := by
      rw [Int64.toInt_inj]
      cases q
      cases r
      simp [eq_comm]
    rw [Tally.weightOfPowers_cons, ih sorted_rest, coefficientIn]
    show c.toInt * (if q.symbol = r.symbol ∧ q.exponent.toInt = r.exponent.toInt then 1 else 0) + _ = _
    rw [if_congr same rfl rfl]
    split
    · next hr =>
      subst hr
      -- powers ascend, so this one does not come back later
      rw [coefficientIn_eq_zero (not_mem_of_forall_lt below)]
      omega
    · omega

private theorem weightOfPowers_ofConstant {entries : List (Power × Int64)}
    (proper : ∀ entry ∈ entries, entry.1.exponent ≠ 0) : Tally.weightOfPowers .ofConstant entries = 0 := by
  induction entries with
  | nil => rfl
  | cons entry rest ih =>
    rw [Tally.weightOfPowers_cons, ih fun entry hentry => proper entry (by simp [hentry])]
    show entry.2.toInt * (if entry.1.exponent = 0 then 1 else 0) + 0 = 0
    rw [if_neg (proper entry (by simp))]
    omega

theorem weight_ofCoefficient (x : Expansion) {r : Power} (h : r.exponent.toInt ≠ 0) :
    x.weight (.ofCoefficient r.symbol r.exponent.toInt h) = coefficientIn x.powers r := by
  rw [Tally.weight, weightOfPowers_ofCoefficient h x.ascending]
  show _ + x.constant.toInt * 0 = _
  omega

theorem weight_ofConstant (x : Expansion) : x.weight .ofConstant = x.constant.toInt := by
  rw [Tally.weight, weightOfPowers_ofConstant x.proper]
  show 0 + x.constant.toInt * 1 = _
  omega

theorem coefficient_of_ofSummands {x : Expansion} {q : Poly} (h : Poly.ofSummands x.terms = .ok q) {r : Power}
    (hr : r.exponent ≠ 0) : q.coefficient r.symbol r.exponent.toInt = coefficientIn x.powers r := by
  have nonzero : r.exponent.toInt ≠ 0 := mt toInt_eq_zero_iff.1 hr
  rw [Poly.coefficient_eq_weight _ nonzero, weight_of_ofSummands _ h, weight_ofCoefficient]

theorem constantTerm_of_ofSummands {x : Expansion} {q : Poly} (h : Poly.ofSummands x.terms = .ok q) :
    q.constantTerm = x.constant.toInt := by
  rw [Poly.constantTerm_eq_weight, weight_of_ofSummands _ h, weight_ofConstant]

/-- A power has the coefficient that it stands with. -/
theorem mem_iff_coefficientIn {entries : List (Power × Int64)} (sorted : Ascending entries) {entry : Power × Int64} :
    entry ∈ entries ↔ entry.1 ∈ entries.map (·.1) ∧ coefficientIn entries entry.1 = entry.2.toInt := by
  constructor
  · intro h
    exact ⟨List.mem_map_of_mem h, coefficientIn_of_mem sorted h⟩
  · rintro ⟨hpower, hcoefficient⟩
    obtain ⟨other, hother, same⟩ := List.mem_map.1 hpower
    rw [← same, coefficientIn_of_mem sorted hother, Int64.toInt_inj] at hcoefficient
    exact Prod.ext same hcoefficient ▸ hother

private theorem mem_powers_iff {entries : List (Power × Int64)} (sorted : Ascending entries) {p : Power} {c : Int64}
    (hc : c ≠ 0) : (p, c) ∈ entries ↔ coefficientIn entries p = c.toInt := by
  rw [mem_iff_coefficientIn sorted, and_iff_right_of_imp]
  intro h
  by_contra absent
  rw [coefficientIn_eq_zero absent] at h
  exact hc (toInt_eq_zero_iff.1 h.symm)

private theorem ext_of_mem_iff {x y : Expansion} (hpowers : ∀ entry, entry ∈ x.powers ↔ entry ∈ y.powers)
    (hconstant : x.constant = y.constant) : x = y := by
  -- lists in strict order with the same members are the same list
  have asymm : Std.Antisymm fun a b : Power × Int64 => a.1 < b.1 :=
    ⟨fun _ _ hab hba => absurd (Power.lt_trans hab hba) (Power.lt_irrefl _)⟩
  have irrefl : Std.Irrefl fun a b : Power × Int64 => a.1 < b.1 := ⟨fun a => Power.lt_irrefl a.1⟩
  exact Expansion.ext (x.ascending.eq_of_mem_iff y.ascending hpowers) hconstant

/-- Two expansions with the same coefficients are equal, unless there are zeros among them. -/
theorem eq_of_coefficients {x y : Expansion} (hx : ∀ entry ∈ x.powers, entry.2 ≠ 0)
    (hy : ∀ entry ∈ y.powers, entry.2 ≠ 0)
    (hpowers : ∀ p : Power, p.exponent ≠ 0 → coefficientIn x.powers p = coefficientIn y.powers p)
    (hconstant : x.constant = y.constant) : x = y := by
  have mem_iff : ∀ entry, entry ∈ x.powers ↔ entry ∈ y.powers := by
    rintro ⟨p, c⟩
    constructor
    · intro hmem
      have hc := hx _ hmem
      rwa [mem_powers_iff y.ascending hc, ← hpowers p (x.proper _ hmem), ← mem_powers_iff x.ascending hc]
    · intro hmem
      have hc := hy _ hmem
      rwa [mem_powers_iff x.ascending hc, hpowers p (y.proper _ hmem), ← mem_powers_iff y.ascending hc]
  exact ext_of_mem_iff mem_iff hconstant

/-- Two expansions with the same powers and the same weights are equal, zeros or not. -/
theorem eq_of_weight {x y : Expansion} (hpowers : ∀ r, r ∈ x.powers.map (·.1) ↔ r ∈ y.powers.map (·.1))
    (hweight : ∀ W : Weighing Int, x.weight W = y.weight W) : x = y := by
  have same_coefficient : ∀ r : Power, r.exponent ≠ 0 → coefficientIn x.powers r = coefficientIn y.powers r := by
    intro r hr
    have nonzero : r.exponent.toInt ≠ 0 := mt toInt_eq_zero_iff.1 hr
    rw [← weight_ofCoefficient x nonzero, ← weight_ofCoefficient y nonzero, hweight]
  have same_constant : x.constant = y.constant := by
    rw [← Int64.toInt_inj, ← weight_ofConstant, ← weight_ofConstant, hweight]
  have mem_iff : ∀ entry, entry ∈ x.powers ↔ entry ∈ y.powers := by
    intro entry
    rw [mem_iff_coefficientIn x.ascending, mem_iff_coefficientIn y.ascending, ← hpowers]
    refine and_congr_right fun hpower => ?_
    obtain ⟨other, hother, same⟩ := List.mem_map.1 hpower
    rw [same_coefficient entry.1 (same ▸ x.proper other hother)]
  exact ext_of_mem_iff mem_iff same_constant

end Expansion
end PolyDeriv
