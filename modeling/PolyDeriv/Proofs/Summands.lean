import PolyDeriv.Proofs.WellFormedness

/-!
# Summands

Taking an expression apart lists what stands in it when all sums are looked through (`Poly.forall₂_places`), from left to
right, and joining a list of terms that are not sums is undone by taking the result apart again
(`Poly.exists_ofSummands_of_not_sum`).

A node is told by its place (`Poly.ReachedAt`): the numbers of the terms that lead to it, from the outermost sum to the
innermost.  One node stands to the left of another if its place comes first in the order of a dictionary.
-/

namespace PolyDeriv
namespace Poly

/-- A node of an expression that is reached through sums only, and the numbers of the terms on the way to it. -/
inductive ReachedAt : Poly → List Nat → Poly → Prop
  | whole (p : Poly) : ReachedAt p [] p
  | term {k : Nat} {p t : Poly} {terms : List Poly} {place : List Nat} : terms[k]? = some p → ReachedAt p place t →
      ReachedAt (.sum terms) (k :: place) t

mutual

/-- The places of the summands. -/
def places : Poly → List (List Nat)
  | .constant _ | .monomial .. | .product .. => [[]]
  | .sum terms => placesOfTerms 0 terms

/-- The places of the summands of terms, the first of which has the number `k`. -/
def placesOfTerms (k : Nat) : List Poly → List (List Nat)
  | [] => []
  | p :: ps => p.places.map (k :: ·) ++ placesOfTerms (k + 1) ps

end

/-! ### Nodes and their places -/

variable {p : Poly}

private theorem ne_sum_of_mem_summands {t : Poly} (h : t ∈ p.summands) (terms : List Poly) : t ≠ .sum terms := by
  induction p with
  | constant c =>
    obtain rfl := List.mem_singleton.1 h
    simp
  | monomial s e =>
    obtain rfl := List.mem_singleton.1 h
    simp
  | product c p =>
    obtain rfl := List.mem_singleton.1 h
    simp
  | sum ps ih =>
    rw [summands, summandsOfTerms_eq, List.mem_flatMap] at h
    obtain ⟨p, hp, ht⟩ := h
    exact ih p hp ht

private theorem summands_of_not_sum (h : ∀ terms, p ≠ .sum terms) : p.summands = [p] ∧ p.places = [[]] := by
  cases p with
  | constant c => exact ⟨rfl, rfl⟩
  | monomial s e => exact ⟨rfl, rfl⟩
  | product c p => exact ⟨rfl, rfl⟩
  | sum terms => exact absurd rfl (h terms)

private theorem forall₂_placesOfTerms {terms : List Poly}
    (h : ∀ p ∈ terms, List.Forall₂ p.ReachedAt p.places p.summands) (front : List Poly) :
    List.Forall₂ (ReachedAt (.sum (front ++ terms))) (placesOfTerms front.length terms) (summandsOfTerms terms) := by
  induction terms generalizing front with
  | nil => exact .nil
  | cons p ps ih =>
    obtain ⟨head, tail⟩ := List.forall_mem_cons.1 h
    have numbered : (front ++ p :: ps)[front.length]? = some p := by simp
    have first : List.Forall₂ (ReachedAt (.sum (front ++ p :: ps))) (p.places.map (front.length :: ·)) p.summands :=
      List.forall₂_map_left_iff.2 (head.imp fun place t ht => .term numbered ht)
    have rest := ih tail (front ++ [p])
    rw [List.append_assoc, List.length_append] at rest
    rw [placesOfTerms, summandsOfTerms]
    exact List.rel_append first rest

/-- The summands are the nodes at their places. -/
theorem forall₂_places (p : Poly) : List.Forall₂ p.ReachedAt p.places p.summands := by
  induction p with
  | constant c => exact .cons (.whole _) .nil
  | monomial s e => exact .cons (.whole _) .nil
  | product c p => exact .cons (.whole _) .nil
  | sum terms ih => exact forall₂_placesOfTerms ih []

private theorem mem_placesOfTerms {k : Nat} {terms : List Poly} {place : List Nat} : place ∈ placesOfTerms k terms ↔
    ∃ i p rest, terms[i]? = some p ∧ rest ∈ p.places ∧ place = (k + i) :: rest := by
  induction terms generalizing k with
  | nil => simp [placesOfTerms]
  | cons p ps ih =>
    rw [placesOfTerms, List.mem_append, List.mem_map, ih]
    constructor
    · rintro (⟨rest, hrest, rfl⟩ | ⟨i, q, rest, hq, hrest, rfl⟩)
      · exact ⟨0, p, rest, rfl, hrest, rfl⟩
      · exact ⟨i + 1, q, rest, hq, hrest, by rw [Nat.add_right_comm, Nat.add_assoc]⟩
    · rintro ⟨_ | i, q, rest, hq, hrest, rfl⟩
      · obtain rfl := Option.some.inj hq
        exact .inl ⟨rest, hrest, rfl⟩
      · exact .inr ⟨i, q, rest, hq, hrest, by rw [Nat.add_right_comm, Nat.add_assoc]⟩

private theorem pairwise_placesOfTerms {terms : List Poly} (h : ∀ p ∈ terms, p.places.Pairwise (· < ·)) (k : Nat) :
    (placesOfTerms k terms).Pairwise (· < ·) := by
  induction terms generalizing k with
  | nil => exact .nil
  | cons p ps ih =>
    obtain ⟨head, tail⟩ := List.forall_mem_cons.1 h
    rw [placesOfTerms, List.pairwise_append, List.pairwise_map]
    refine ⟨head.imp fun hlt => List.cons_lt_cons_iff.2 (.inr ⟨rfl, hlt⟩), ih tail (k + 1), ?_⟩
    -- places in the first term start with a smaller number than places in the others
    intro left hleft right hright
    obtain ⟨_, -, rfl⟩ := List.mem_map.1 hleft
    obtain ⟨i, _, _, -, -, rfl⟩ := mem_placesOfTerms.1 hright
    exact List.cons_lt_cons_iff.2 (.inl (by omega))

/-- Places are listed from left to right. -/
theorem pairwise_places (p : Poly) : p.places.Pairwise (· < ·) := by
  induction p with
  | constant c => exact List.pairwise_singleton _ _
  | monomial s e => exact List.pairwise_singleton _ _
  | product c p => exact List.pairwise_singleton _ _
  | sum terms ih => exact pairwise_placesOfTerms ih 0

/-- The places are those of the nodes that are not sums and stand in no product. -/
theorem mem_places {place : List Nat} :
    place ∈ p.places ↔ ∃ t, p.ReachedAt place t ∧ ∀ terms, t ≠ .sum terms := by
  constructor
  · intro h
    obtain ⟨t, ht, reached⟩ := exists_mem_of_forall₂ (forall₂_places p).flip place h
    exact ⟨t, reached, ne_sum_of_mem_summands ht⟩
  · rintro ⟨t, reached, ht⟩
    induction reached with
    | whole p => simp [(summands_of_not_sum ht).2]
    | term numbered _ ih => exact mem_placesOfTerms.2 ⟨_, _, _, numbered, ih ht, by rw [Nat.zero_add]⟩

/-! ### Joining what was taken apart -/

private theorem summands_sum_of_not_sum {terms : List Poly} (h : ∀ t ∈ terms, ∀ ts, t ≠ .sum ts) :
    (sum terms).summands = terms := by
  rw [summands, summandsOfTerms_eq, List.flatMap_congr fun t ht => (summands_of_not_sum (h t ht)).1,
    List.flatMap_singleton']

/-- Joining terms that are not sums loses none of them. -/
theorem exists_ofSummands_of_not_sum {terms : List Poly} (nonempty : terms ≠ [])
    (checked : ∀ t ∈ terms, t.check = .ok ()) (notSum : ∀ t ∈ terms, ∀ ts, t ≠ .sum ts) :
    ∃ q, ofSummands terms = .ok q ∧ q.summands = terms := by
  match terms with
  | [] => exact absurd rfl nonempty
  | [t] => exact ⟨t, rfl, (summands_of_not_sum (notSum t (List.mem_singleton.2 rfl))).1⟩
  | t :: u :: ts =>
    exact ⟨.sum (t :: u :: ts), ofSummands_eq_ok_iff.2 (.inr ⟨by simp, checked, rfl⟩), summands_sum_of_not_sum notSum⟩

theorem summands_ne_nil (h : p.check = .ok ()) : p.summands ≠ [] := by
  induction p with
  | constant c => simp [summands]
  | monomial s e => simp [summands]
  | product c p => simp [summands]
  | sum terms ih =>
    obtain ⟨two, checked⟩ := check_sum_iff.1 h
    obtain ⟨t, ht⟩ := List.exists_mem_of_length_pos (by omega : 0 < terms.length)
    rw [summands, summandsOfTerms_eq, Ne, List.flatMap_eq_nil_iff]
    exact fun none => ih t ht (checked t ht) (none t ht)

theorem sum_value_summands {w : Power → Rat} (h : Unital w) (p : Poly) :
    (p.summands.map (value w)).sum = p.value w := by
  rw [value_eq_weight h, ← weight_summands, List.map_congr_left fun t _ => value_eq_weight h t]

theorem value_ofSummands {w : Power → Rat} (h : Unital w) {terms : List Poly} {q : Poly}
    (hq : ofSummands terms = .ok q) : q.value w = (terms.map (value w)).sum := by
  rw [value_eq_weight h, weight_ofSummands _ hq, List.map_congr_left fun t _ => value_eq_weight h t]

/-- Taking apart and joining are inverse to each other and lose nothing.  The summands of an expression are, from left to
right, the nodes that are not sums and are reached through sums only, and they add up to the expression; joined terms that
are not sums come out again; and the summands of a well-formed expression join to one with the same summands and the same
value. -/
theorem summands_ofSummands :
    (∀ p : Poly, (∀ t ∈ p.summands, ∀ terms, t ≠ .sum terms) ∧
      (∃ places : List (List Nat), places.Pairwise (· < ·) ∧
        (∀ place, place ∈ places ↔ ∃ t, p.ReachedAt place t ∧ ∀ terms, t ≠ .sum terms) ∧
        List.Forall₂ p.ReachedAt places p.summands) ∧
      ∀ w, Unital w → (p.summands.map (value w)).sum = p.value w) ∧
    (∀ terms : List Poly, terms ≠ [] → (∀ t ∈ terms, t.check = .ok ()) → (∀ t ∈ terms, ∀ ts, t ≠ .sum ts) →
      ∃ q, ofSummands terms = .ok q ∧ q.summands = terms) ∧
    ∀ p : Poly, p.check = .ok () → ∃ q, ofSummands p.summands = .ok q ∧ q.summands = p.summands ∧
      ∀ w, Unital w → q.value w = p.value w := by
  refine ⟨fun p => ?_, fun terms => exists_ofSummands_of_not_sum, fun p checked => ?_⟩
  · exact ⟨fun t => ne_sum_of_mem_summands, ⟨p.places, pairwise_places p, fun place => mem_places, forall₂_places p⟩,
      fun w hw => sum_value_summands hw p⟩
  · obtain ⟨q, hq, same⟩ := exists_ofSummands_of_not_sum (summands_ne_nil checked) (check_summands checked)
      fun t => ne_sum_of_mem_summands
    refine ⟨q, hq, same, fun w hw => ?_⟩
    rw [value_ofSummands hw hq, sum_value_summands hw]

/-- `x + ((2 (x + 3) + 5) + x⁰)`, where the sum in the product is left alone. -/
theorem summands_ofSummands_nested :
    let kept : Poly := .product 2 (.sum [.monomial "x" 1, .constant 3])
    let p : Poly := .sum [.monomial "x" 1, .sum [.sum [kept, .constant 5], .monomial "x" 0]]
    let terms : List Poly := [.monomial "x" 1, kept, .constant 5, .monomial "x" 0]
    let w : Power → Rat := fun r => if r.exponent = 0 then 1 else 7
    p.check = .ok () ∧ p.summands = terms ∧ p.places = [[0], [1, 0, 0], [1, 0, 1], [1, 1]] ∧
      p.ReachedAt [1, 0, 0] kept ∧ Unital w ∧ p.value w = 33 ∧ (terms.map (value w)).sum = p.value w ∧
      (∃ q, ofSummands terms = .ok q ∧ q.summands = terms) ∧
      ∃ q, ofSummands p.summands = .ok q ∧ q.summands = p.summands ∧ ∀ w, Unital w → q.value w = p.value w := by
  intro kept p terms w
  have checked : p.check = .ok () := by decide +kernel
  have unital : Unital w := fun symbol => rfl
  obtain ⟨apart, join, both⟩ := summands_ofSummands
  obtain ⟨notSum, -, adds⟩ := apart p
  refine ⟨checked, rfl, rfl, .term rfl (.term rfl (.term rfl (.whole kept))), unital, by decide +kernel, adds w unital,
    join terms (List.cons_ne_nil _ _) (check_summands checked) notSum, both p checked⟩

end Poly
end PolyDeriv
