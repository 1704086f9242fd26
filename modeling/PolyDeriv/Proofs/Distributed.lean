import PolyDeriv.Proofs.Simplification

/-!
# Distributed expressions

One pass of distribution is enough, however sums and multiples are nested.  Its result is distributed
(`Poly.Distributed`): taken apart, it consists of constants and of multiples of powers by something other than zero.

* Every multiple in a distributed expression is one of those (`Distributed.multiple_of_power`), and no power stands
  alone (`Distributed.not_hasBarePower`).
* Distributing a factor of one over it leaves it as it is (`Distributed.distribute_one`).
* Two factors, one distributed after the other, come to their product (`distribute_distribute`).
-/

namespace PolyDeriv
namespace Poly

/-- A power occurs in an expression outside all multiples. -/
inductive HasBarePower : Poly → Prop
  | monomial (s : String) (e : Int64) : HasBarePower (.monomial s e)
  | sum {t : Poly} {terms : List Poly} : t ∈ terms → HasBarePower t → HasBarePower (.sum terms)

/-- The terms of an expression, those of sums among them included, are constants and multiples of powers. -/
def Distributed (p : Poly) : Prop := ∀ t ∈ p.summands, t.Scaled

private theorem distributed_product_iff {c : Int64} {p : Poly} :
    Distributed (.product c p) ↔ c ≠ 0 ∧ ∃ s e, p = .monomial s e := by
  rw [Distributed, summands, List.forall_mem_singleton]
  constructor
  · intro h
    cases h with
    | multiple s e nonzero => exact ⟨nonzero, s, e, rfl⟩
  · rintro ⟨nonzero, s, e, rfl⟩
    exact .multiple s e nonzero

private theorem distributed_sum_iff {terms : List Poly} : Distributed (.sum terms) ↔ ∀ p ∈ terms, p.Distributed := by
  simp only [Distributed, summands, summandsOfTerms_eq, List.mem_flatMap]
  constructor
  · intro h p hp t ht
    exact h t ⟨p, hp, ht⟩
  · rintro h t ⟨p, hp, ht⟩
    exact h p hp t ht

private theorem not_distributed_monomial (s : String) (e : Int64) : ¬ Distributed (.monomial s e) := by
  intro h
  have scaled : Scaled (.monomial s e) := h _ (List.mem_singleton_self _)
  cases scaled

namespace Distributed

variable {p : Poly}

theorem not_hasBarePower (h : p.Distributed) : ¬ p.HasBarePower := by
  intro bare
  induction bare with
  | monomial s e => exact not_distributed_monomial s e h
  | sum hmem _ ih => exact ih (distributed_sum_iff.1 h _ hmem)

/-- Factors are not zero and stand directly in front of powers. -/
theorem multiple_of_power (h : p.Distributed) {c : Int64} {r : Poly} (hmem : .product c r ∈ p :: p.parts) :
    c ≠ 0 ∧ ∃ s e, r = .monomial s e := by
  induction p with
  | constant k => exact absurd hmem (by simp [parts])
  | monomial s e => exact absurd hmem (by simp [parts])
  | product k p =>
    obtain ⟨nonzero, s, e, rfl⟩ := distributed_product_iff.1 h
    obtain ⟨rfl, rfl⟩ : c = k ∧ r = .monomial s e := by simpa [parts] using hmem
    exact ⟨nonzero, s, e, rfl⟩
  | sum terms ih =>
    have inside : .product c r ∈ (sum terms).parts := by simpa using hmem
    obtain ⟨t, ht, hmem⟩ := mem_parts_sum.1 inside
    exact ih t ht (distributed_sum_iff.1 h t ht) (List.mem_cons.2 hmem)

theorem distribute_one (h : p.Distributed) : p.distribute 1 = .ok p := by
  have one_ne_zero : (1 : Int64) ≠ 0 := by decide
  induction p with
  | constant c => exact distribute_constant c
  | monomial s e => exact absurd h (not_distributed_monomial s e)
  | product c p =>
    obtain ⟨nonzero, s, e, rfl⟩ := distributed_product_iff.1 h
    have in_front : (monomial s e).distribute c = .ok (.product c (.monomial s e)) := by
      rw [distribute, if_neg nonzero]
    exact distribute_product_eq_ok_iff.2 ⟨c, (mul_one _).symm, in_front⟩
  | sum terms ih =>
    have terms_kept : ∀ t ∈ terms, t.distribute 1 = .ok t := fun t ht => ih t ht (distributed_sum_iff.1 h t ht)
    exact (distribute_sum_eq_ok_iff one_ne_zero).2 ⟨terms, List.forall₂_same.2 terms_kept, rfl⟩

end Distributed

theorem value_distribute {w : Power → Rat} (hw : Unital w) {m : Int64} {p q : Poly} (h : p.distribute m = .ok q) :
    q.value w = m.toInt * p.value w := by
  rw [value_eq_weight hw, value_eq_weight hw, weight_distribute _ h, zsmul_eq_mul]

/-- Distribution of a factor multiplies the value by it and is complete.  In the result, no power stands outside a
multiple, and every multiple is one of a power, by something other than zero.  Distributing one over the result changes
nothing.  Its terms are constants and such multiples, so that none of them is passed over when like terms are added
up. -/
theorem distribute_complete {m : Int64} {p q : Poly} (h : p.distribute m = .ok q) :
    (∀ w, Unital w → q.value w = m.toInt * p.value w) ∧
      ¬ q.HasBarePower ∧
      (∀ c r, .product c r ∈ q :: q.parts → c ≠ 0 ∧ ∃ s e, r = .monomial s e) ∧
      q.distribute 1 = .ok q ∧
      (∀ t ∈ q.summands, t.Scaled) ∧ q.summands.filter isCompound = [] := by
  have distributed : q.Distributed := scaled_of_distribute h
  have values : ∀ w, Unital w → q.value w = m.toInt * p.value w := fun w hw => value_distribute hw h
  exact ⟨values, distributed.not_hasBarePower, fun c r => distributed.multiple_of_power, distributed.distribute_one,
    distributed, filter_isCompound_summands h⟩

/-- A factor of two, over `-3 (x² + 5 (y + 7)) + 0 z` in a sum of its own. -/
theorem distribute_complete_nested :
    let p : Poly := .sum [.sum [.product (-3) (.sum [.monomial "x" 2, .product 5 (.sum [.monomial "y" 1, .constant 7])]),
      .product 0 (.monomial "z" 1)], .monomial "x" 0]
    let q : Poly := .sum [.sum [.sum [.product (-6) (.monomial "x" 2), .sum [.product (-30) (.monomial "y" 1),
      .constant (-210)]], .constant 0], .product 2 (.monomial "x" 0)]
    p.distribute 2 = .ok q ∧ (∀ w, Unital w → q.value w = 2 * p.value w) ∧ ¬ q.HasBarePower ∧
      (∀ c r, .product c r ∈ q :: q.parts → c ≠ 0 ∧ ∃ s e, r = .monomial s e) ∧ q.distribute 1 = .ok q ∧
      (∀ t ∈ q.summands, t.Scaled) ∧ q.summands.filter isCompound = [] := by
  intro p q
  have distributed : p.distribute 2 = .ok q := by rfl
  exact ⟨distributed, distribute_complete distributed⟩

/-! ### Two factors -/

/-- Distributing one factor over the result of another comes to distributing their product at once: the second step
succeeds if the single one does, and leads to the same tree.  Any of the factors, and any coefficient in the expression,
may be zero.  (The single step may fail alone, on a product of factors that meets nothing but zeros further down.) -/
theorem distribute_distribute {a b m : Int64} (hm : m.toInt = a.toInt * b.toInt) {p q r : Poly}
    (hq : p.distribute b = .ok q) (hr : p.distribute m = .ok r) : q.distribute a = .ok r := by
  -- on the way down `b` becomes any other factor, and `m` stays the product of `a` with it
  refine distribute_induction (motive := fun b p q => ∀ (m : Int64) r, m.toInt = a.toInt * b.toInt →
    p.distribute m = .ok r → q.distribute a = .ok r) ?_ ?_ ?_ ?_ ?_ hq m r hm hr
  · intro p m r hm hr
    obtain rfl : m = 0 := toInt_eq_zero_iff.1 (by rw [hm, Int64.toInt_zero, mul_zero])
    obtain rfl : zero = r := Except.ok.inj ((distribute_zero p).symm.trans hr)
    exact distribute_constant_eq_ok_iff.2 ⟨0, (zero_mul _).symm, rfl⟩
  · intro b c k _ hk m r hm hr
    obtain ⟨n, hn, rfl⟩ := distribute_constant_eq_ok_iff.1 hr
    have value_eq : n.toInt = k.toInt * a.toInt := by rw [hn, hm, hk, mul_comm a.toInt, mul_assoc]
    exact distribute_constant_eq_ok_iff.2 ⟨n, value_eq, rfl⟩
  · intro b s e _ m r hm hr
    exact distribute_product_eq_ok_iff.2 ⟨m, hm.trans (mul_comm ..), hr⟩
  · intro b c k p q _ hk ih m r hm hr
    obtain ⟨n, hn, hr⟩ := distribute_product_eq_ok_iff.1 hr
    have factor_eq : n.toInt = a.toInt * k.toInt := by rw [hn, hm, hk, mul_left_comm]
    exact ih n r factor_eq hr
  · intro b ps qs hb ih m r hm hr
    by_cases ha : a = 0
    · obtain rfl : m = 0 := toInt_eq_zero_iff.1 (by rw [hm, ha, Int64.toInt_zero, zero_mul])
      rw [distribute_zero] at hr
      rwa [ha, distribute_zero]
    · have hm0 : m ≠ 0 := (product_ne_zero_iff hb hm).2 ha
      obtain ⟨rs, hrs, rfl⟩ := (distribute_sum_eq_ok_iff hm0).1 hr
      exact (distribute_sum_eq_ok_iff ha).2 ⟨rs, forall₂_of_common ih hrs fun p q r ih hr => ih m r hm hr, rfl⟩

/-- Factors of three and minus two, over `4 (x² + 0 y + 5) + 7 + x⁰`. -/
theorem distribute_distribute_nested :
    let p : Poly := .sum [.product 4 (.sum [.monomial "x" 2, .product 0 (.monomial "y" 1), .constant 5]), .constant 7,
      .monomial "x" 0]
    let q : Poly := .sum [.sum [.product 12 (.monomial "x" 2), .constant 0, .constant 60], .constant 21,
      .product 3 (.monomial "x" 0)]
    let r : Poly := .sum [.sum [.product (-24) (.monomial "x" 2), .constant 0, .constant (-120)], .constant (-42),
      .product (-6) (.monomial "x" 0)]
    (-6 : Int64).toInt = (-2 : Int64).toInt * (3 : Int64).toInt ∧ p.distribute 3 = .ok q ∧ p.distribute (-6) = .ok r ∧
      q.distribute (-2) = .ok r := by
  intro p q r
  have at_once : p.distribute (-6) = .ok r := by rfl
  have first : p.distribute 3 = .ok q := by rfl
  exact ⟨by decide, first, at_once, distribute_distribute (by decide) first at_once⟩

example : (product 9223372036854775807 zero).distribute 1 = .ok zero ∧ zero.distribute 2 = .ok zero ∧
    (product 9223372036854775807 zero).distribute 2 = .error (.product 9223372036854775807 2) := by
  decide +kernel

end Poly
end PolyDeriv
