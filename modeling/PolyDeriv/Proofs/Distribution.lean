import PolyDeriv.Poly.Distribution
import PolyDeriv.Poly.LikeTerms
import PolyDeriv.Poly.Terms
import PolyDeriv.Proofs.Occurrence
import PolyDeriv.Proofs.Success
import PolyDeriv.Proofs.Weight

/-!
# Distribution of factors

What distributing a factor over an expression does, by induction on the way the factor takes (`distribute_induction`).

* The weight is multiplied by the factor (`weight_distribute`).
* The powers that are left are those that no zero erases (`mem_powers_distribute`).
* All summands are constants and multiples of powers (`scaled_of_distribute`), so that none of them is compound.
-/

namespace PolyDeriv
namespace Poly

/-- A term that distribution leaves: a constant, or a multiple of a power by something other than zero. -/
inductive Scaled : Poly → Prop
  | constant (c : Int64) : Scaled (.constant c)
  | multiple {c : Int64} (s : String) (e : Int64) : c ≠ 0 → Scaled (.product c (.monomial s e))

theorem distribute_zero (p : Poly) : p.distribute 0 = .ok zero := by
  rw [distribute.eq_def, if_pos rfl]

/-- A constant takes up the factor, also if that is zero. -/
theorem distribute_constant_eq_ok_iff {m c : Int64} {q : Poly} :
    (constant c).distribute m = .ok q ↔ ∃ k : Int64, k.toInt = c.toInt * m.toInt ∧ q = .constant k := by
  have taken_up : (constant c).distribute m = (exactProduct c m).map .constant := by
    rw [distribute]
    split
    · next hm =>
      rw [hm, exactProduct_zero]
      rfl
    · rfl
  simp only [taken_up, map_eq_ok_iff, exactProduct_eq_ok_iff, eq_comm (b := q)]

/-- A multiple passes on the product of the factors, also if one of them is zero. -/
theorem distribute_product_eq_ok_iff {m c : Int64} {p q : Poly} :
    (product c p).distribute m = .ok q ↔ ∃ k : Int64, k.toInt = c.toInt * m.toInt ∧ p.distribute k = .ok q := by
  have passed_on : (product c p).distribute m = .ok q ↔ ∃ k, exactProduct c m = .ok k ∧ p.distribute k = .ok q := by
    rw [distribute]
    split
    · next hm =>
      rw [hm, exactProduct_zero]
      simp [distribute_zero]
    · cases exactProduct c m <;> simp
  simp only [passed_on, exactProduct_eq_ok_iff]

theorem distribute_sum_eq_ok_iff {m : Int64} (hm : m ≠ 0) {ps : List Poly} {q : Poly} :
    (sum ps).distribute m = .ok q ↔
      ∃ qs, List.Forall₂ (fun p r => p.distribute m = .ok r) ps qs ∧ q = .sum qs := by
  rw [distribute, if_neg hm, map_eq_ok_iff, distributeOverTerms_eq]
  simp only [mapM_eq_ok_iff, eq_comm (b := q)]

theorem distribute_constant (c : Int64) : (constant c).distribute 1 = .ok (.constant c) :=
  distribute_constant_eq_ok_iff.2 ⟨c, (mul_one _).symm, rfl⟩

/-- Induction on the way of a factor.  A factor of zero erases the expression; any other is taken up by a constant,
stays in front of a power, is multiplied by the factor of a multiple, and reaches every term of a sum. -/
theorem distribute_induction {motive : Int64 → Poly → Poly → Prop}
    (erase : ∀ p, motive 0 p zero)
    (constant : ∀ m c k, m ≠ 0 → k.toInt = c.toInt * m.toInt → motive m (.constant c) (.constant k))
    (monomial : ∀ m s e, m ≠ 0 → motive m (.monomial s e) (.product m (.monomial s e)))
    (product : ∀ m c k p q, m ≠ 0 → k.toInt = c.toInt * m.toInt → motive k p q → motive m (.product c p) q)
    (sum : ∀ m ps qs, m ≠ 0 → List.Forall₂ (motive m) ps qs → motive m (.sum ps) (.sum qs))
    {m : Int64} {p q : Poly} (h : p.distribute m = .ok q) : motive m p q := by
  -- a factor of zero is looked at before the expression is
  have erased : ∀ {m : Int64} {p q : Poly}, m = 0 → p.distribute m = .ok q → motive m p q := by
    rintro _ p q rfl h
    rw [distribute_zero] at h
    exact Except.ok.inj h ▸ erase p
  induction p generalizing m q with
  | constant c =>
    by_cases hm : m = 0
    · exact erased hm h
    · obtain ⟨k, hk, rfl⟩ := distribute_constant_eq_ok_iff.1 h
      exact constant m c k hm hk
  | monomial s e =>
    by_cases hm : m = 0
    · exact erased hm h
    · rw [distribute, if_neg hm] at h
      exact Except.ok.inj h ▸ monomial m s e hm
  | product c p ih =>
    by_cases hm : m = 0
    · exact erased hm h
    · obtain ⟨k, hk, h⟩ := distribute_product_eq_ok_iff.1 h
      exact product m c k p q hm hk (ih h)
  | sum terms ih =>
    by_cases hm : m = 0
    · exact erased hm h
    · obtain ⟨qs, hqs, rfl⟩ := (distribute_sum_eq_ok_iff hm).1 h
      exact sum m terms qs hm (forall₂_of_forall_mem hqs fun p hp q hq => ih p hp hq)

section

variable {M : Type} [AddCommGroup M]

/-- Terms that weigh a multiple of what other terms weigh, one by one, do so together. -/
theorem weight_of_forall₂ {W V : Weighing M} {n : Int} {ps qs : List Poly}
    (h : List.Forall₂ (fun p q => q.weight W = n • p.weight V) ps qs) :
    (qs.map (weight W)).sum = n • (ps.map (weight V)).sum := by
  induction h with
  | nil => exact (zsmul_zero n).symm
  | cons hq _ ih => rw [List.map_cons, List.sum_cons, hq, ih, List.map_cons, List.sum_cons, zsmul_add]

theorem weight_distribute (W : Weighing M) {m : Int64} {p q : Poly} (h : p.distribute m = .ok q) :
    q.weight W = m.toInt • p.weight W := by
  refine distribute_induction (motive := fun m p q => q.weight W = m.toInt • p.weight W) ?_ ?_ ?_ ?_ ?_ h
  · intro p
    rw [weight_zero]
    exact (zero_zsmul _).symm
  · intro m c k _ hk
    rw [weight, weight, hk, mul_zsmul']
  · intro m s e _
    rfl
  · intro m c k p q _ hk ih
    rw [ih, weight, hk, mul_zsmul']
  · intro m ps qs _ ih
    rw [weight_sum, weight_sum, weight_of_forall₂ ih]

end

theorem product_ne_zero_iff {m c k : Int64} (hm : m ≠ 0) (hk : k.toInt = c.toInt * m.toInt) :
    k ≠ 0 ↔ c ≠ 0 := by
  rw [ne_eq, ← toInt_eq_zero_iff, hk, mul_eq_zero, toInt_eq_zero_iff, toInt_eq_zero_iff, or_iff_left hm]

/-- Distribution keeps the powers that neither the factor nor a multiple by zero erases. -/
theorem mem_powers_distribute {m : Int64} {p q : Poly} (h : p.distribute m = .ok q) (r : Power) :
    r ∈ q.powers ↔ m ≠ 0 ∧ r ∈ p.livePowers := by
  refine distribute_induction (motive := fun m p q => r ∈ q.powers ↔ m ≠ 0 ∧ r ∈ p.livePowers) ?_ ?_ ?_ ?_ ?_ h
  · intro p
    simp [zero, powers]
  · intro m c k _ _
    simp [powers, livePowers]
  · intro m s e hm
    simp [powers, livePowers, hm]
  · intro m c k p q hm hk ih
    rw [ih, mem_livePowers_product, product_ne_zero_iff hm hk]
    simp [hm]
  · intro m ps qs hm ih
    rw [mem_powers_sum, mem_livePowers_sum, exists_mem_iff_of_forall₂ ih]
    simp [hm]

theorem scaled_of_distribute {m : Int64} {p q : Poly} (h : p.distribute m = .ok q) : ∀ t ∈ q.summands, t.Scaled := by
  refine distribute_induction (motive := fun _ _ q => ∀ t ∈ q.summands, t.Scaled) ?_ ?_ ?_ ?_ ?_ h
  · intro p t ht
    obtain rfl := List.mem_singleton.1 ht
    exact .constant 0
  · intro m c k _ _ t ht
    obtain rfl := List.mem_singleton.1 ht
    exact .constant k
  · intro m s e hm t ht
    obtain rfl := List.mem_singleton.1 ht
    exact .multiple s e hm
  · intro m c k p q _ _ ih
    exact ih
  · intro m ps qs _ ih t ht
    rw [summands, summandsOfTerms_eq, List.mem_flatMap] at ht
    obtain ⟨q, hq, ht⟩ := ht
    exact forall_mem_of_forall₂ ih q hq t ht

theorem Scaled.not_isCompound {p : Poly} (h : p.Scaled) : p.isCompound = false := by
  cases h <;> rfl

end Poly
end PolyDeriv
