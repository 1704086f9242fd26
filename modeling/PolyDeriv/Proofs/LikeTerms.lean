import Mathlib.Tactic.Abel
import PolyDeriv.Poly.LikeTerms
import PolyDeriv.Proofs.Occurrence
import PolyDeriv.Proofs.Success
import PolyDeriv.Proofs.Weight

/-!
# Adding up like terms

A tally weighs what its powers and its constant weigh.  Adding a term adds the weight of the term (`weight_addTerm`) and
the powers in it (`mem_powers_addTerm`), except that compound terms are passed over; so a list of terms that has been
combined weighs as much as before (`weight_combine`).
-/

namespace PolyDeriv

/-- A successful addition enters the power among the others, or adds to the coefficient that is there. -/
theorem addCoefficient_split {p : Power} {c : Int64} {entries result : List (Power × Int64)}
    (h : addCoefficient p c entries = .ok result) : ∃ before after,
      (entries = before ++ after ∧ result = before ++ (p, c) :: after) ∨
        ∃ d sum, sum.toInt = d.toInt + c.toInt ∧ entries = before ++ (p, d) :: after ∧
          result = before ++ (p, sum) :: after := by
  induction entries generalizing result with
  | nil =>
    obtain rfl := Except.ok.inj h
    exact ⟨[], [], .inl ⟨rfl, rfl⟩⟩
  | cons entry rest ih =>
    obtain ⟨q, d⟩ := entry
    unfold addCoefficient at h
    split at h
    · obtain rfl := Except.ok.inj h
      exact ⟨[], (q, d) :: rest, .inl ⟨rfl, rfl⟩⟩
    · split at h
      · next hq =>
        subst hq
        split at h
        · next sum hsum =>
          obtain rfl := Except.ok.inj h
          exact ⟨[], rest, .inr ⟨d, sum, exactSum_eq_ok_iff.1 hsum, rfl, rfl⟩⟩
        · exact absurd h (by simp)
      · split at h
        · next tail htail =>
          obtain rfl := Except.ok.inj h
          obtain ⟨before, after, split | ⟨d', sum, hsum, split⟩⟩ := ih htail
          · exact ⟨(q, d) :: before, after, .inl (by simp [split])⟩
          · exact ⟨(q, d) :: before, after, .inr ⟨d', sum, hsum, by simp [split]⟩⟩
        · exact absurd h (by simp)

namespace Tally

/-- What adding a term comes to.  The shape of the term decides. -/
theorem addTerm_cases {tally result : Tally} {t : Poly} (h : tally.addTerm t = .ok result) :
    (∃ c, t = .constant c ∧ tally.addConstant c = .ok result) ∨
    (∃ s e, t = .monomial s e ∧ tally.addPower ⟨s, e⟩ 1 = .ok result) ∨
    (∃ k s e, t = .product k (.monomial s e) ∧ tally.addPower ⟨s, e⟩ k = .ok result) ∨
    (∃ k c a, t = .product k (.constant c) ∧ a.toInt = k.toInt * c.toInt ∧ tally.addConstant a = .ok result) ∨
    t.isCompound = true ∧ result = tally := by
  unfold addTerm at h
  split at h
  · next c => exact .inl ⟨c, rfl, h⟩
  · next s e => exact .inr (.inl ⟨s, e, rfl, h⟩)
  · next k s e => exact .inr (.inr (.inl ⟨k, s, e, rfl, h⟩))
  · next k c =>
    split at h
    · next a ha => exact .inr (.inr (.inr (.inl ⟨k, c, a, rfl, exactProduct_eq_ok_iff.1 ha, h⟩)))
    · exact absurd h (by simp)
  all_goals exact .inr (.inr (.inr (.inr ⟨rfl, (Except.ok.inj h).symm⟩)))

/-! ### Powers -/

private theorem mem_powers_addPower {tally result : Tally} {p : Power} {c : Int64} (h : tally.addPower p c = .ok result)
    (r : Power) : r ∈ result.powers.map (·.1) ↔ r ∈ tally.powers.map (·.1) ∨ r = p := by
  rw [mem_addCoefficient (addPower_eq_ok_iff.1 h).1, or_comm]

/-- Adding a term adds the powers in it, unless it is compound. -/
theorem mem_powers_addTerm {tally result : Tally} {t : Poly} (h : tally.addTerm t = .ok result) (r : Power) :
    r ∈ result.powers.map (·.1) ↔ r ∈ tally.powers.map (·.1) ∨ t.isCompound = false ∧ r ∈ t.powers := by
  rcases addTerm_cases h with ⟨c, rfl, h⟩ | ⟨s, e, rfl, h⟩ | ⟨k, s, e, rfl, h⟩ | ⟨k, c, a, rfl, _, h⟩ | ⟨ht, rfl⟩
  · rw [(addConstant_eq_ok_iff.1 h).2]
    simp [Poly.powers]
  · rw [mem_powers_addPower h]
    simp [Poly.powers, Poly.isCompound]
  · rw [mem_powers_addPower h]
    simp [Poly.powers, Poly.isCompound]
  · rw [(addConstant_eq_ok_iff.1 h).2]
    simp [Poly.powers]
  · simp [ht]

theorem mem_powers_addTerms {terms : List Poly} {result : Tally} (h : terms.foldlM addTerm .empty = .ok result)
    (r : Power) : r ∈ result.powers.map (·.1) ↔ ∃ t ∈ terms, t.isCompound = false ∧ r ∈ t.powers := by
  refine foldlM_induction (motive := fun terms tally =>
    r ∈ tally.powers.map (·.1) ↔ ∃ t ∈ terms, t.isCompound = false ∧ r ∈ t.powers) h ?_ ?_
  · simp [empty]
  · intro done t tally next ih hnext
    rw [mem_powers_addTerm hnext, ih]
    simp only [List.mem_append, List.mem_singleton, or_and_right, exists_or, exists_eq_left]

/-! ### Weights -/

variable {M : Type} [AddCommGroup M]

/-- The weight of powers with their coefficients. -/
def weightOfPowers (W : Weighing M) (entries : List (Power × Int64)) : M :=
  (entries.map fun entry => entry.2.toInt • W.power entry.1).sum

/-- What a tally weighs. -/
def weight (W : Weighing M) (tally : Tally) : M :=
  weightOfPowers W tally.powers + tally.constant.toInt • W.one

theorem weightOfPowers_cons (W : Weighing M) (entry : Power × Int64) (rest : List (Power × Int64)) :
    weightOfPowers W (entry :: rest) = entry.2.toInt • W.power entry.1 + weightOfPowers W rest := by
  rw [weightOfPowers, List.map_cons, List.sum_cons, weightOfPowers]

private theorem weightOfPowers_append (W : Weighing M) (before after : List (Power × Int64)) :
    weightOfPowers W (before ++ after) = weightOfPowers W before + weightOfPowers W after := by
  rw [weightOfPowers, List.map_append, List.sum_append, weightOfPowers, weightOfPowers]

private theorem weight_addPower (W : Weighing M) {tally result : Tally} {p : Power} {c : Int64}
    (h : tally.addPower p c = .ok result) : result.weight W = tally.weight W + c.toInt • W.power p := by
  obtain ⟨h, hconstant⟩ := addPower_eq_ok_iff.1 h
  rw [weight, weight, hconstant]
  obtain ⟨before, after, ⟨hold, hnew⟩ | ⟨d, sum, hsum, hold, hnew⟩⟩ := addCoefficient_split h
  · rw [hold, hnew, weightOfPowers_append, weightOfPowers_append, weightOfPowers_cons]
    abel
  · rw [hold, hnew, weightOfPowers_append, weightOfPowers_append, weightOfPowers_cons, weightOfPowers_cons, hsum,
      add_zsmul]
    abel

private theorem weight_addConstant (W : Weighing M) {tally result : Tally} {c : Int64}
    (h : tally.addConstant c = .ok result) : result.weight W = tally.weight W + c.toInt • W.one := by
  obtain ⟨hconstant, hpowers⟩ := addConstant_eq_ok_iff.1 h
  rw [weight, weight, hpowers, hconstant, add_zsmul, add_assoc]

/-- Adding a term adds its weight, unless it is compound. -/
theorem weight_addTerm (W : Weighing M) {tally result : Tally} {t : Poly} (h : tally.addTerm t = .ok result) :
    result.weight W = tally.weight W + if t.isCompound then 0 else t.weight W := by
  rcases addTerm_cases h with ⟨c, rfl, h⟩ | ⟨s, e, rfl, h⟩ | ⟨k, s, e, rfl, h⟩ | ⟨k, c, a, rfl, ha, h⟩ | ⟨ht, rfl⟩
  · exact weight_addConstant W h
  · rw [weight_addPower W h]
    exact congrArg (tally.weight W + ·) (one_zsmul _)
  · exact weight_addPower W h
  · rw [weight_addConstant W h, ha, mul_zsmul']
    exact congrArg (tally.weight W + ·) (zsmul_comm ..)
  · rw [if_pos ht, add_zero]

theorem weight_addTerms (W : Weighing M) {terms : List Poly} {result : Tally}
    (h : terms.foldlM addTerm .empty = .ok result) :
    result.weight W = ((terms.filter fun t => ¬ t.isCompound).map (Poly.weight W)).sum := by
  refine foldlM_induction (motive := fun terms tally =>
    tally.weight W = ((terms.filter fun t => ¬ t.isCompound).map (Poly.weight W)).sum) h ?_ ?_
  · show (0 : M) + (0 : Int) • W.one = 0
    rw [zero_zsmul, add_zero]
  · intro done t tally next ih hnext
    rw [weight_addTerm W hnext, ih, List.filter_append, List.map_append, List.sum_append]
    cases ht : t.isCompound <;> simp [ht]

private theorem toInt_total {tally : Tally} {k : Int64} (h : tally.total = .ok k) :
    k.toInt = tally.constant.toInt + ((tally.powers.filter (·.1.exponent = 0)).map (·.2.toInt)).sum := by
  refine foldlM_induction (motive := fun entries k =>
    k.toInt = tally.constant.toInt + (entries.map (·.2.toInt)).sum) h ?_ ?_
  · simp
  · intro done entry a b ih hb
    rw [exactSum_eq_ok_iff.1 hb, ih, List.map_append, List.sum_append, Int.add_assoc]
    simp

private theorem weightOfPowers_zeroth (W : Weighing M) {entries : List (Power × Int64)}
    (h : ∀ entry ∈ entries, entry.1.exponent = 0) :
    weightOfPowers W entries = (entries.map (·.2.toInt)).sum • W.one := by
  induction entries with
  | nil => exact (zero_zsmul _).symm
  | cons entry rest ih =>
    obtain ⟨⟨s, e⟩, c⟩ := entry
    obtain rfl : e = 0 := h ⟨⟨s, e⟩, c⟩ (by simp)
    rw [weightOfPowers_cons, ih fun entry hentry => h entry (by simp [hentry]), W.power_zero, List.map_cons,
      List.sum_cons, add_zsmul]

theorem weight_multiples (W : Weighing M) (tally : Tally) :
    (tally.multiples.map (Poly.weight W)).sum = weightOfPowers W (tally.powers.filter (·.1.exponent ≠ 0)) := by
  rw [multiples, List.map_map, weightOfPowers]
  congr 2
  funext entry
  exact Poly.weight_scale W entry.2 entry.1

/-- Zeroth powers weigh as much in the total as they do on their own. -/
theorem weight_total (W : Weighing M) {tally : Tally} {k : Int64} (h : tally.total = .ok k) :
    (tally.multiples.map (Poly.weight W)).sum + k.toInt • W.one = tally.weight W := by
  have zeroth : weightOfPowers W (tally.powers.filter (·.1.exponent = 0)) =
      ((tally.powers.filter (·.1.exponent = 0)).map (·.2.toInt)).sum • W.one := weightOfPowers_zeroth W (by simp)
  have split : weightOfPowers W (tally.powers.filter (·.1.exponent = 0)) +
      weightOfPowers W (tally.powers.filter (·.1.exponent ≠ 0)) = weightOfPowers W tally.powers :=
    List.sum_map_filter_add_sum_map_filter_not (·.1.exponent = 0) _ tally.powers
  rw [weight_multiples, toInt_total h, weight, add_zsmul, ← zeroth, ← split]
  abel

end Tally

namespace Poly

theorem combine_eq_ok_iff {terms result : List Poly} : combine terms = .ok result ↔ ∃ tally constant,
    terms.foldlM Tally.addTerm .empty = .ok tally ∧ tally.total = .ok constant ∧
      result = terms.filter isCompound ++ tally.multiples ++ [.constant constant] := by
  unfold combine
  rw [bind_eq_ok_iff]
  refine exists_congr fun tally => ?_
  rw [bind_eq_ok_iff, ← exists_and_left]
  refine exists_congr fun constant => and_congr_right fun _ => and_congr_right fun _ => ?_
  rw [pure_eq_ok_iff, eq_comm]

theorem weight_combine {M : Type} [AddCommGroup M] (W : Weighing M) {terms result : List Poly}
    (h : combine terms = .ok result) : (result.map (weight W)).sum = (terms.map (weight W)).sum := by
  obtain ⟨tally, constant, htally, hconstant, rfl⟩ := combine_eq_ok_iff.1 h
  -- compound terms are passed over, and all others go into the tally
  have split : ((terms.filter isCompound).map (weight W)).sum +
      ((terms.filter fun t => ¬ t.isCompound).map (weight W)).sum = (terms.map (weight W)).sum := by
    simpa only [Bool.decide_eq_true] using
      List.sum_map_filter_add_sum_map_filter_not (·.isCompound = true) (weight W) terms
  rw [← split, ← Tally.weight_addTerms W htally, ← Tally.weight_total W hconstant]
  simp [weight]

end Poly
end PolyDeriv
