import PolyDeriv.Proofs.Amounts
import PolyDeriv.Proofs.Distribution

/-!
# Contributions

What the leaves of an expression contribute to the coefficients and to the constant of its expansion, as exact
integers.  Only live leaves do, which are those that no factor of zero erases.  Distribution succeeds exactly if no live
node meets a number outside the 64-bit range (`Poly.exists_distribute_iff`), and then the terms it leaves enter what the
live leaves contribute, apart from zeros (`Poly.nonzero_entries_distribute`).
-/

namespace PolyDeriv
namespace Poly

mutual

/-- The nodes that no factor of zero erases, each behind its multiplier, which is the exact product of the factors above
it. -/
def liveNodes (multiplier : Int) : Poly → List (Int × Poly)
  | .constant c => [(multiplier, .constant c)]
  | .monomial s e => [(multiplier, .monomial s e)]
  | .product c p => (multiplier, .product c p) :: if c = 0 then [] else p.liveNodes (multiplier * c.toInt)
  | .sum terms => (multiplier, .sum terms) :: liveNodesOfTerms multiplier terms

/-- The live nodes of terms. -/
def liveNodesOfTerms (multiplier : Int) : List Poly → List (Int × Poly)
  | [] => []
  | p :: ps => p.liveNodes multiplier ++ liveNodesOfTerms multiplier ps

end

/-- What a live node contributes under which key. -/
def contribution : Int × Poly → List (Option Power × Int)
  | (multiplier, .constant c) => [(none, multiplier * c.toInt)]
  | (multiplier, .monomial s e) => [(some ⟨s, e⟩, multiplier)]
  | (_, .product ..) | (_, .sum _) => []

/-- The contributions of the live leaves, from left to right. -/
def contributions (multiplier : Int) (p : Poly) : List (Option Power × Int) :=
  (p.liveNodes multiplier).flatMap contribution

private theorem liveNodesOfTerms_eq (multiplier : Int) (terms : List Poly) :
    liveNodesOfTerms multiplier terms = terms.flatMap (liveNodes multiplier) := by
  induction terms with
  | nil => rfl
  | cons p ps ih => rw [liveNodesOfTerms, ih, List.flatMap_cons]

private theorem self_mem_liveNodes (multiplier : Int) (p : Poly) : (multiplier, p) ∈ p.liveNodes multiplier := by
  cases p <;> simp [liveNodes]

theorem contributions_sum (multiplier : Int) (terms : List Poly) :
    (sum terms).contributions multiplier = terms.flatMap (contributions multiplier) := by
  rw [contributions, liveNodes, liveNodesOfTerms_eq, List.flatMap_cons, List.flatMap_assoc]
  rfl

theorem contributions_product (multiplier : Int) (c : Int64) (p : Poly) :
    (product c p).contributions multiplier = if c = 0 then [] else p.contributions (multiplier * c.toInt) := by
  rw [contributions, liveNodes, List.flatMap_cons]
  split <;> rfl

/-- A node whose multiplier, and whose contribution if it is a leaf, are in range. -/
def NodeFits (node : Int × Poly) : Prop := Fits node.1 ∧ ∀ entry ∈ contribution node, Fits entry.2

theorem exists_distribute_iff {m : Int64} {p : Poly} (hm : m ≠ 0) :
    (∃ q, p.distribute m = .ok q) ↔ ∀ node ∈ p.liveNodes m.toInt, NodeFits node := by
  induction p generalizing m with
  | constant c =>
    have product_fits : NodeFits (m.toInt, constant c) ↔ Fits (c.toInt * m.toInt) := by
      simp [NodeFits, contribution, fits_toInt, mul_comm]
    rw [distribute, if_neg hm, liveNodes, List.forall_mem_singleton, product_fits, ← exists_exactProduct_iff]
    simp [map_eq_ok_iff]
  | monomial s e =>
    rw [distribute, if_neg hm, liveNodes, List.forall_mem_singleton]
    exact iff_of_true ⟨_, rfl⟩ (by simp [NodeFits, contribution, fits_toInt])
  | product c p ih =>
    have head_fits : NodeFits (m.toInt, product c p) := ⟨fits_toInt m, by simp [contribution]⟩
    rw [distribute, if_neg hm, liveNodes, List.forall_mem_cons, and_iff_right head_fits]
    by_cases hc : c = 0
    · have zero_factor : exactProduct c m = .ok 0 := by
        rw [exactProduct_eq_ok_iff, hc, Int64.toInt_zero, zero_mul]
      rw [zero_factor, if_pos hc]
      exact iff_of_true ⟨zero, distribute_zero p⟩ (by simp)
    · rw [if_neg hc]
      cases h : exactProduct c m with
      | ok k =>
        have hk := exactProduct_eq_ok_iff.1 h
        rw [mul_comm, ← hk]
        exact ih ((product_ne_zero_iff hm hk).2 hc)
      | error e =>
        -- the node below the product is live, and its multiplier is out of range
        have too_large := (exactProduct_eq_error_iff.1 h).1
        rw [mul_comm] at too_large
        refine iff_of_false (by simp) fun fits => too_large ?_
        exact (fits _ (self_mem_liveNodes _ p)).1
  | sum terms ih =>
    have head_fits : NodeFits (m.toInt, sum terms) := ⟨fits_toInt m, by simp [contribution]⟩
    have terms_fit : (∀ p ∈ terms, ∃ q, p.distribute m = .ok q) ↔
        ∀ p ∈ terms, ∀ node ∈ p.liveNodes m.toInt, NodeFits node :=
      forall₂_congr fun p hp => ih p hp hm
    rw [distribute, if_neg hm, liveNodes, List.forall_mem_cons, and_iff_right head_fits, liveNodesOfTerms_eq,
      List.forall_mem_flatMap, ← terms_fit, ← exists_mapM_iff, ← distributeOverTerms_eq]
    simp [map_eq_ok_iff]

/-- What the terms of a distributed expression enter is what the live leaves contribute, apart from zeros. -/
theorem nonzero_entries_distribute {m : Int64} {p q : Poly} (h : p.distribute m = .ok q) :
    nonzero (q.summands.flatMap entries) = if m = 0 then [] else nonzero (p.contributions m.toInt) := by
  refine distribute_induction (motive := fun m p q =>
    nonzero (q.summands.flatMap entries) = if m = 0 then [] else nonzero (p.contributions m.toInt)) ?_ ?_ ?_ ?_ ?_ h
  · intro p
    rfl
  · intro m c k hm hk
    rw [if_neg hm, summands, List.flatMap_singleton, entries, hk, mul_comm]
    rfl
  · intro m s e hm
    rw [if_neg hm]
    rfl
  · intro m c k p q hm hk ih
    rw [ih, if_neg hm, contributions_product, hk, mul_comm]
    have erased : k = 0 ↔ c = 0 := not_iff_not.1 (product_ne_zero_iff hm hk)
    by_cases hc : c = 0
    · rw [if_pos (erased.2 hc), if_pos hc]
      rfl
    · rw [if_neg (mt erased.1 hc), if_neg hc]
  · intro m ps qs hm ih
    simp only [if_neg hm] at ih ⊢
    rw [summands, summandsOfTerms_eq, List.flatMap_assoc, contributions_sum, nonzero_flatMap, nonzero_flatMap]
    induction ih with
    | nil => rfl
    | cons head _ tail => rw [List.flatMap_cons, List.flatMap_cons, head, tail]

end Poly
end PolyDeriv
