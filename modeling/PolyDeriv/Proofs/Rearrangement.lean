import Mathlib.Logic.Relation
import PolyDeriv.Proofs.Simplification

/-!
# Rearranged sums

The order of the terms of a sum and their grouping into nested sums have no effect on a simplified form, except that an
intermediate sum may be too large in one order and not in another (`Poly.simplify_rearranged`).

A rearrangement changes neither the weight of an expression nor the powers that no zero erases, at whatever depth it
takes place (`Rearranges.weight_eq`, `Rearranges.mem_livePowers_iff`).  These determine the expansion, and the
simplified form is the expansion written out.
-/

namespace PolyDeriv
namespace Poly

/-- One rearrangement, in one place of an expression. -/
inductive Rearranges : Poly → Poly → Prop
  /-- The terms of a sum are put into another order. -/
  | permute {ps qs : List Poly} : ps.Perm qs → Rearranges (.sum ps) (.sum qs)
  /-- A sum among the terms of a sum gives place to its own terms. -/
  | splice (before inner after : List Poly) :
      Rearranges (.sum (before ++ .sum inner :: after)) (.sum (before ++ inner ++ after))
  /-- Neighbouring terms of a sum become a sum among its terms. -/
  | group (before inner after : List Poly) :
      Rearranges (.sum (before ++ inner ++ after)) (.sum (before ++ .sum inner :: after))
  /-- The rearrangement takes place inside a multiple. -/
  | inProduct {p q : Poly} (coefficient : Int64) : Rearranges p q →
      Rearranges (.product coefficient p) (.product coefficient q)
  /-- The rearrangement takes place inside a term of a sum. -/
  | inSum {p q : Poly} (before after : List Poly) : Rearranges p q →
      Rearranges (.sum (before ++ p :: after)) (.sum (before ++ q :: after))

/-- Any number of rearrangements, one after the other. -/
def Rearranged : Poly → Poly → Prop := Relation.ReflTransGen Rearranges

/-! ### What one rearrangement keeps -/

section

variable {M : Type} [AddCommGroup M]

private theorem weight_splice (W : Weighing M) (before inner after : List Poly) :
    (sum (before ++ sum inner :: after)).weight W = (sum (before ++ inner ++ after)).weight W := by
  simp only [weight_sum, List.map_append, List.sum_append, List.map_cons, List.sum_cons, add_assoc]

theorem Rearranges.weight_eq (W : Weighing M) {p q : Poly} (h : Rearranges p q) : p.weight W = q.weight W := by
  induction h with
  | permute perm => rw [weight_sum, weight_sum, (perm.map _).sum_eq]
  | splice before inner after => exact weight_splice W before inner after
  | group before inner after => exact (weight_splice W before inner after).symm
  | inProduct c _ ih => rw [weight, weight, ih]
  | inSum before after _ ih =>
    simp only [weight_sum, List.map_append, List.sum_append, List.map_cons, List.sum_cons, ih]

end

private theorem mem_livePowers_splice (before inner after : List Poly) (r : Power) :
    r ∈ (sum (before ++ sum inner :: after)).livePowers ↔ r ∈ (sum (before ++ inner ++ after)).livePowers := by
  simp only [livePowers, livePowersOfTerms_eq, List.flatMap_append, List.flatMap_cons, List.append_assoc]

theorem Rearranges.mem_livePowers_iff {p q : Poly} (h : Rearranges p q) (r : Power) :
    r ∈ p.livePowers ↔ r ∈ q.livePowers := by
  induction h with
  | permute perm => simp only [mem_livePowers_sum, perm.mem_iff]
  | splice before inner after => exact mem_livePowers_splice before inner after r
  | group before inner after => exact (mem_livePowers_splice before inner after r).symm
  | inProduct c _ ih => rw [mem_livePowers_product, mem_livePowers_product, ih]
  | inSum before after _ ih =>
    simp only [mem_livePowers_sum, List.mem_append, List.mem_cons, or_and_right, exists_or, exists_eq_left, ih]

private theorem Rearranges.isExpansion {p q : Poly} {x : Expansion} (h : Rearranges p q) (hx : p.IsExpansion x) :
    q.IsExpansion x where
  powers r := by rw [hx.powers, h.mem_livePowers_iff]
  weight W := by rw [hx.weight, h.weight_eq]

/-! ### What any number of rearrangements keeps -/

/-- The expansion of an expression is that of the rearranged expression. -/
theorem Rearranged.isExpansion {p q : Poly} {x : Expansion} (h : Rearranged p q) (hx : p.IsExpansion x) :
    q.IsExpansion x := by
  induction h with
  | refl => exact hx
  | tail _ step ih => exact step.isExpansion ih

/-- If an expression has a simplified form, so has every rearrangement of it, and it is the same tree, unless it fails
by overflow. -/
theorem simplify_rearranged {p p' q : Poly} (h : Rearranged p p') (hq : p.simplify = .ok q) :
    p'.simplify = .ok q ∨ ∃ computation, p'.simplify = .error (.overflow computation) := by
  obtain ⟨x, hx, written⟩ := exists_isExpansion hq
  rcases p'.simplify_cases with overflow | ⟨y, hy, written'⟩
  · exact .inr overflow
  · obtain rfl : y = x := hy.unique (h.isExpansion hx)
    rw [written', written]
    exact .inl rfl

/-- `x + (1 - x) + 2 (y + 3)` and `x + (1 - x + 2 (3 + y))`, where `0 x` is left of the powers of `x`. -/
theorem simplify_rearranged_cancelled :
    let p : Poly := .sum [.monomial "x" 1, .sum [.constant 1, .product (-1) (.monomial "x" 1)],
      .product 2 (.sum [.monomial "y" 1, .constant 3])]
    let p' : Poly := .sum [.monomial "x" 1, .sum [.constant 1, .product (-1) (.monomial "x" 1),
      .product 2 (.sum [.constant 3, .monomial "y" 1])]]
    let q : Poly := .sum [.product 0 (.monomial "x" 1), .product 2 (.monomial "y" 1), .constant 7]
    Rearranged p p' ∧ p.simplify = .ok q ∧
      (p'.simplify = .ok q ∨ ∃ computation, p'.simplify = .error (.overflow computation)) := by
  intro p p' q
  let x : Poly := .monomial "x" 1
  let minus : Poly := .product (-1) x
  have spliced : Rearranges p (.sum [x, .constant 1, minus, .product 2 (.sum [.monomial "y" 1, .constant 3])]) :=
    .splice [x] [.constant 1, minus] _
  have permuted : Rearranges (.sum [x, .constant 1, minus, .product 2 (.sum [.monomial "y" 1, .constant 3])])
      (.sum [x, .constant 1, minus, .product 2 (.sum [.constant 3, .monomial "y" 1])]) :=
    .inSum [x, .constant 1, minus] [] (.inProduct 2 (.permute (.swap _ _ [])))
  have grouped : Rearranges (.sum [x, .constant 1, minus, .product 2 (.sum [.constant 3, .monomial "y" 1])]) p' :=
    .group [x] [.constant 1, minus, .product 2 (.sum [.constant 3, .monomial "y" 1])] []
  have rearranged : Rearranged p p' := ((Relation.ReflTransGen.single spliced).tail permuted).tail grouped
  have simplified : p.simplify = .ok q := by decide +kernel
  exact ⟨rearranged, simplified, simplify_rearranged rearranged simplified⟩

/-- The greatest integer with `-1 + 1` and with `1 - 1` behind it. -/
example : simplify (.sum [.constant 9223372036854775807, .constant (-1), .constant 1]) =
      .ok (.constant 9223372036854775807) ∧
    simplify (.sum [.constant 9223372036854775807, .constant 1, .constant (-1)]) =
      .error (.overflow (.sum 9223372036854775807 1)) := by decide +kernel

end Poly
end PolyDeriv
