import Mathlib.Data.List.Induction
import PolyDeriv.Proofs.LikeTerms

/-!
# Amounts

What like terms add up to, and when that succeeds.  Every term but a compound one enters an amount under a key: under
the power it is a multiple of, or under `none` if it is a constant.  A tally holds the exact sums of what has been
entered (`Tally.amount_addTerms`), and it exists exactly if, under every key, no sum on the way from left to right is
outside the 64-bit range (`Tally.exists_addTerms_iff`); likewise for the total of the constant and the zeroth powers
(`Tally.exists_total_iff`).
-/

namespace PolyDeriv

/-! ### Amounts and their sums -/

/-- The amounts entered under one key, in order.  Powers are keys, and so is `none`, for constants. -/
def amountsOf (key : Option Power) (entries : List (Option Power × Int)) : List Int :=
  (entries.filter (·.1 = key)).map (·.2)

/-- Adding up amounts from left to right, no sum on the way is too large or too small. -/
def SumsFit (amounts : List Int) : Prop := ∀ done, done <+: amounts → Fits done.sum

theorem amountsOf_append (key : Option Power) (before after : List (Option Power × Int)) :
    amountsOf key (before ++ after) = amountsOf key before ++ amountsOf key after := by
  rw [amountsOf, List.filter_append, List.map_append, amountsOf, amountsOf]

theorem amountsOf_singleton (key other : Option Power) (a : Int) :
    amountsOf key [(other, a)] = if key = other then [a] else [] := by
  by_cases h : key = other
  · simp [amountsOf, h]
  · simp [amountsOf, h, Ne.symm h]

theorem sumsFit_nil : SumsFit [] := by
  intro done hdone
  rw [List.prefix_nil.1 hdone]
  exact fits_zero

theorem sumsFit_concat_iff {amounts : List Int} {a : Int} :
    SumsFit (amounts ++ [a]) ↔ SumsFit amounts ∧ Fits (amounts.sum + a) := by
  constructor
  · intro h
    have whole := h (amounts ++ [a]) (List.prefix_refl _)
    rw [List.sum_append, List.sum_singleton] at whole
    exact ⟨fun done hdone => h done (hdone.trans (List.prefix_append _ _)), whole⟩
  · rintro ⟨fit, whole⟩ done hdone
    rcases List.prefix_concat_iff.1 hdone with rfl | hdone
    · rwa [List.sum_append, List.sum_singleton]
    · exact fit done hdone

private theorem sum_filter_ne_zero (amounts : List Int) : (amounts.filter (· ≠ 0)).sum = amounts.sum := by
  induction amounts with
  | nil => rfl
  | cons a rest ih =>
    by_cases ha : a = 0
    · rw [List.filter_cons_of_neg (by simpa using ha), ih, List.sum_cons, ha, zero_add]
    · rw [List.filter_cons_of_pos (by simpa using ha), List.sum_cons, ih, List.sum_cons]

/-- One more entry: the sums under its key have to go on fitting. -/
private theorem sumsFit_entry_iff {entries : List (Option Power × Int)} {key : Option Power} {a : Int} :
    (∀ k, SumsFit (amountsOf k (entries ++ [(key, a)]))) ↔
      (∀ k, SumsFit (amountsOf k entries)) ∧ Fits ((amountsOf key entries).sum + a) := by
  have same : amountsOf key (entries ++ [(key, a)]) = amountsOf key entries ++ [a] := by
    rw [amountsOf_append, amountsOf_singleton, if_pos rfl]
  have others : ∀ k, k ≠ key → amountsOf k (entries ++ [(key, a)]) = amountsOf k entries := by
    intro k hk
    rw [amountsOf_append, amountsOf_singleton, if_neg hk, List.append_nil]
  constructor
  · intro h
    have at_key := h key
    rw [same, sumsFit_concat_iff] at at_key
    refine ⟨fun k => ?_, at_key.2⟩
    by_cases hk : k = key
    · exact hk ▸ at_key.1
    · exact others k hk ▸ h k
  · rintro ⟨fit, last⟩ k
    by_cases hk : k = key
    · rw [hk, same, sumsFit_concat_iff]
      exact ⟨fit key, last⟩
    · exact (others k hk).symm ▸ fit k

private theorem sumsFit_filter_ne_zero_iff {amounts : List Int} :
    SumsFit (amounts.filter (· ≠ 0)) ↔ SumsFit amounts := by
  induction amounts using List.reverseRecOn with
  | nil => rfl
  | append_singleton amounts a ih =>
    rw [List.filter_append, sumsFit_concat_iff]
    by_cases ha : a = 0
    · have last_fits : SumsFit amounts → Fits (amounts.sum + a) := by
        intro h
        rw [ha, add_zero]
        exact h amounts (List.prefix_refl _)
      rw [List.filter_cons_of_neg (by simpa using ha), List.filter_nil, List.append_nil, ih,
        and_iff_left_of_imp last_fits]
    · rw [List.filter_cons_of_pos (by simpa using ha), List.filter_nil, sumsFit_concat_iff, ih, sum_filter_ne_zero]

/-- Entries that are not zero. -/
def nonzero (entries : List (Option Power × Int)) : List (Option Power × Int) := entries.filter (·.2 ≠ 0)

theorem nonzero_flatMap {α : Type} (f : α → List (Option Power × Int)) (as : List α) :
    nonzero (as.flatMap f) = as.flatMap fun a => nonzero (f a) := List.filter_flatMap

private theorem amountsOf_nonzero (key : Option Power) (entries : List (Option Power × Int)) :
    amountsOf key (nonzero entries) = (amountsOf key entries).filter (· ≠ 0) := by
  rw [amountsOf, amountsOf, nonzero, List.filter_map, List.filter_comm]
  rfl

/-- Zeros do not count, neither in the sums on the way nor in the sum of all amounts. -/
theorem sums_of_nonzero_eq {entries others : List (Option Power × Int)} (h : nonzero entries = nonzero others)
    (key : Option Power) :
    (SumsFit (amountsOf key entries) ↔ SumsFit (amountsOf key others)) ∧
      (amountsOf key entries).sum = (amountsOf key others).sum := by
  have same : (amountsOf key entries).filter (· ≠ 0) = (amountsOf key others).filter (· ≠ 0) := by
    rw [← amountsOf_nonzero, ← amountsOf_nonzero, h]
  constructor
  · rw [← sumsFit_filter_ne_zero_iff, same, sumsFit_filter_ne_zero_iff]
  · rw [← sum_filter_ne_zero, same, sum_filter_ne_zero]

namespace Poly

/-- What a term enters under which key when like terms are added up. -/
def entries : Poly → List (Option Power × Int)
  | .constant c => [(none, c.toInt)]
  | .monomial s e => [(some ⟨s, e⟩, 1)]
  | .product k (.monomial s e) => [(some ⟨s, e⟩, k.toInt)]
  | .product k (.constant c) => [(none, k.toInt * c.toInt)]
  | .product _ (.product ..) | .product _ (.sum _) | .sum _ => []

private theorem entries_cases (t : Poly) : t.entries = [] ∨ ∃ key a, t.entries = [(key, a)] := by
  unfold entries
  split
  · exact .inr ⟨_, _, rfl⟩
  · exact .inr ⟨_, _, rfl⟩
  · exact .inr ⟨_, _, rfl⟩
  · exact .inr ⟨_, _, rfl⟩
  all_goals exact .inl rfl

theorem entries_of_isCompound {t : Poly} (h : t.isCompound) : t.entries = [] := by
  unfold isCompound at h
  split at h
  case h_5 | h_6 | h_7 => rfl
  all_goals exact absurd h (by simp)

end Poly

namespace Tally

/-- What has been added up under a key. -/
def amount (tally : Tally) : Option Power → Int
  | none => tally.constant.toInt
  | some p => coefficientIn tally.powers p

private theorem amount_addConstant {tally next : Tally} {c : Int64} (h : tally.addConstant c = .ok next)
    (key : Option Power) : next.amount key = tally.amount key + (amountsOf key [(none, c.toInt)]).sum := by
  obtain ⟨hconstant, hpowers⟩ := addConstant_eq_ok_iff.1 h
  rw [amountsOf_singleton]
  cases key with
  | none => simpa [amount] using hconstant
  | some p => simp [amount, hpowers]

private theorem amount_addPower {tally next : Tally} {p : Power} {c : Int64} (h : tally.addPower p c = .ok next)
    (key : Option Power) : next.amount key = tally.amount key + (amountsOf key [(some p, c.toInt)]).sum := by
  obtain ⟨hpowers, hconstant⟩ := addPower_eq_ok_iff.1 h
  rw [amountsOf_singleton]
  cases key with
  | none => simp [amount, hconstant]
  | some q =>
    rw [amount, coefficientIn_addCoefficient hpowers tally.ascending, amount]
    by_cases hq : q = p <;> simp [hq]

private theorem amount_addTerm {tally next : Tally} {t : Poly} (h : tally.addTerm t = .ok next) (key : Option Power) :
    next.amount key = tally.amount key + (amountsOf key t.entries).sum := by
  rcases addTerm_cases h with ⟨c, rfl, h⟩ | ⟨s, e, rfl, h⟩ | ⟨k, s, e, rfl, h⟩ | ⟨k, c, a, rfl, ha, h⟩ | ⟨ht, rfl⟩
  · exact amount_addConstant h key
  · exact amount_addPower h key
  · exact amount_addPower h key
  · rw [amount_addConstant h key, ha]
    rfl
  · rw [Poly.entries_of_isCompound ht]
    exact (add_zero _).symm

theorem amount_addTerms {terms : List Poly} {tally : Tally} (h : terms.foldlM addTerm .empty = .ok tally)
    (key : Option Power) : tally.amount key = (amountsOf key (terms.flatMap Poly.entries)).sum := by
  refine foldlM_induction (motive := fun terms tally =>
    tally.amount key = (amountsOf key (terms.flatMap Poly.entries)).sum) h ?_ ?_
  · cases key <;> rfl
  · intro done t tally next ih hnext
    rw [amount_addTerm hnext, ih, List.flatMap_append, amountsOf_append, List.sum_append, List.flatMap_singleton]

end Tally

/-! ### When adding up succeeds -/

theorem exists_addCoefficient_iff {p : Power} {c : Int64} {entries : List (Power × Int64)}
    (sorted : Ascending entries) :
    (∃ result, addCoefficient p c entries = .ok result) ↔ Fits (coefficientIn entries p + c.toInt) := by
  have new_fits : ∀ n : Int, n = 0 → Fits (n + c.toInt) := by
    rintro n rfl
    rw [zero_add]
    exact fits_toInt c
  induction entries with
  | nil => exact iff_of_true ⟨_, rfl⟩ (new_fits _ rfl)
  | cons entry rest ih =>
    obtain ⟨q, d⟩ := entry
    obtain ⟨below, sorted_rest⟩ := List.pairwise_cons.1 sorted
    by_cases hlt : p < q
    · -- the power is new, and nothing is added to anything
      have absent : p ∉ ((q, d) :: rest).map (·.1) := not_mem_of_forall_lt (forall_lt_of_lt sorted hlt)
      rw [addCoefficient, if_pos hlt]
      exact iff_of_true ⟨_, rfl⟩ (new_fits _ (coefficientIn_eq_zero absent))
    · by_cases hq : p = q
      · rw [addCoefficient, if_neg hlt, if_pos hq, coefficientIn, if_pos hq, ← exists_exactSum_iff]
        cases exactSum d c <;> simp
      · have tail := ih sorted_rest
        rw [addCoefficient, if_neg hlt, if_neg hq, coefficientIn, if_neg hq]
        refine Iff.trans ?_ tail
        cases addCoefficient p c rest <;> simp

namespace Tally

theorem exists_addPower_iff {tally : Tally} {p : Power} {c : Int64} :
    (∃ next, tally.addPower p c = .ok next) ↔ Fits (tally.amount (some p) + c.toInt) := by
  rw [amount, ← exists_addCoefficient_iff tally.ascending]
  constructor
  · rintro ⟨next, h⟩
    exact ⟨next.powers, (addPower_eq_ok_iff.1 h).1⟩
  · rintro ⟨powers, h⟩
    exact ⟨⟨powers, ascending_addCoefficient h tally.ascending, tally.constant⟩, addPower_eq_ok_iff.2 ⟨h, rfl⟩⟩

theorem exists_addConstant_iff {tally : Tally} {c : Int64} :
    (∃ next, tally.addConstant c = .ok next) ↔ Fits (tally.amount none + c.toInt) := by
  rw [amount, ← exists_exactSum_iff, addConstant]
  cases exactSum tally.constant c <;> simp

theorem exists_addTerm_iff {tally : Tally} {t : Poly} : (∃ next, tally.addTerm t = .ok next) ↔
    ∀ entry ∈ t.entries, Fits entry.2 ∧ Fits (tally.amount entry.1 + entry.2) := by
  have singleton : ∀ (key : Option Power) (a : Int64),
      (∀ entry ∈ [(key, a.toInt)], Fits entry.2 ∧ Fits (tally.amount entry.1 + entry.2)) ↔
        Fits (tally.amount key + a.toInt) := by
    intro key a
    simp [fits_toInt]
  unfold addTerm
  split
  · next c => rw [exists_addConstant_iff, Poly.entries, singleton]
  · next s e => rw [exists_addPower_iff]; exact (singleton _ 1).symm
  · next k s e => rw [exists_addPower_iff, Poly.entries, singleton]
  · next k c =>
    cases h : exactProduct k c with
    | ok a =>
      rw [Poly.entries, ← exactProduct_eq_ok_iff.1 h, singleton]
      exact exists_addConstant_iff
    | error e =>
      have too_large := (exactProduct_eq_error_iff.1 h).1
      simp [Poly.entries, too_large]
  all_goals simp [Poly.entries]

theorem exists_addTerms_iff {terms : List Poly} : (∃ tally, terms.foldlM addTerm .empty = .ok tally) ↔
    (∀ entry ∈ terms.flatMap Poly.entries, Fits entry.2) ∧
      ∀ key, SumsFit (amountsOf key (terms.flatMap Poly.entries)) := by
  -- the last term is added to the exact sums of all others
  induction terms using List.reverseRecOn with
  | nil => exact iff_of_true ⟨_, rfl⟩ ⟨by simp, fun _ => sumsFit_nil⟩
  | append_singleton terms t ih =>
    have last : (∃ tally, (terms ++ [t]).foldlM addTerm .empty = .ok tally) ↔
        (∃ tally, terms.foldlM addTerm .empty = .ok tally) ∧ ∀ entry ∈ t.entries,
          Fits entry.2 ∧ Fits ((amountsOf entry.1 (terms.flatMap Poly.entries)).sum + entry.2) := by
      refine exists_foldlM_concat_iff fun tally htally => ?_
      simp only [exists_addTerm_iff, amount_addTerms htally]
    rw [last, ih, List.flatMap_append, List.flatMap_singleton]
    rcases t.entries_cases with none_entered | ⟨key, a, one_entered⟩
    · simp [none_entered]
    · simp only [one_entered, sumsFit_entry_iff, List.forall_mem_append, List.forall_mem_singleton]
      tauto

theorem exists_total_iff {tally : Tally} : (∃ k, tally.total = .ok k) ↔
    SumsFit (tally.constant.toInt :: (tally.powers.filter (·.1.exponent = 0)).map (·.2.toInt)) := by
  have sum_eq : ∀ {entries : List (Power × Int64)} {k : Int64},
      entries.foldlM (fun sum entry => exactSum sum entry.2) tally.constant = .ok k →
        k.toInt = (tally.constant.toInt :: entries.map (·.2.toInt)).sum := by
    intro entries k h
    refine foldlM_induction (motive := fun entries k =>
      k.toInt = (tally.constant.toInt :: entries.map (·.2.toInt)).sum) h (by simp) ?_
    intro done entry a b ih hb
    rw [exactSum_eq_ok_iff.1 hb, ih, List.map_append, ← List.cons_append, List.sum_append]
    simp
  unfold total
  induction tally.powers.filter (·.1.exponent = 0) using List.reverseRecOn with
  | nil =>
    have start : SumsFit ([] ++ [tally.constant.toInt]) := by
      rw [sumsFit_concat_iff, List.sum_nil, zero_add]
      exact ⟨sumsFit_nil, fits_toInt _⟩
    exact iff_of_true ⟨_, rfl⟩ start
  | append_singleton entries entry ih =>
    rw [List.map_append, ← List.cons_append, List.map_singleton, sumsFit_concat_iff]
    refine Iff.trans (exists_foldlM_concat_iff fun sum hsum => ?_) (and_congr_left' ih)
    rw [exists_exactSum_iff, sum_eq hsum]

end Tally
end PolyDeriv
