import PolyDeriv.Poly.Terms
import PolyDeriv.Proofs.Occurrence
import PolyDeriv.Proofs.Success
import PolyDeriv.Proofs.Weight

/-!
# Terms of a sum

Taking sums apart, dropping zeros and joining terms change no weight (`weight_summands`, `weight_withoutZeros`,
`weight_ofSummands`).  Joining succeeds on a single term, whatever it is, and on two or more well-formed terms
(`ofSummands_eq_ok_iff`).
-/

namespace PolyDeriv
namespace Poly

/-- Taking sums apart keeps all powers. -/
theorem mem_powers_iff_summands {p : Poly} {r : Power} : r ∈ p.powers ↔ ∃ t ∈ p.summands, r ∈ t.powers := by
  induction p with
  | constant c => simp [summands]
  | monomial s e => simp [summands]
  | product c p => simp [summands]
  | sum terms ih =>
    rw [mem_powers_sum, summands, summandsOfTerms_eq]
    simp only [List.mem_flatMap]
    constructor
    · rintro ⟨p, hp, hr⟩
      obtain ⟨t, ht, hr⟩ := (ih p hp).1 hr
      exact ⟨t, ⟨p, hp, ht⟩, hr⟩
    · rintro ⟨t, ⟨p, hp, ht⟩, hr⟩
      exact ⟨p, hp, (ih p hp).2 ⟨t, ht, hr⟩⟩

theorem ofTerms_eq_ok_iff {terms : List Poly} {q : Poly} :
    ofTerms terms = .ok q ↔ 2 ≤ terms.length ∧ (∀ t ∈ terms, t.check = .ok ()) ∧ q = .sum terms := by
  rw [ofTerms, map_eq_ok_iff, ← and_assoc, ← check_sum_iff]
  constructor
  · rintro ⟨_, hcheck, rfl⟩
    exact ⟨hcheck, rfl⟩
  · rintro ⟨hcheck, rfl⟩
    exact ⟨(), hcheck, rfl⟩

theorem ofSummands_eq_ok_iff {terms : List Poly} {q : Poly} : ofSummands terms = .ok q ↔
    terms = [q] ∨ 2 ≤ terms.length ∧ (∀ t ∈ terms, t.check = .ok ()) ∧ q = .sum terms := by
  unfold ofSummands
  split
  · simp
  · next h =>
    rw [ofTerms_eq_ok_iff, iff_or_self]
    rintro rfl
    exact absurd rfl (h q)

theorem mem_powers_ofSummands {terms : List Poly} {q : Poly} (h : ofSummands terms = .ok q) {r : Power} :
    r ∈ q.powers ↔ ∃ t ∈ terms, r ∈ t.powers := by
  rcases ofSummands_eq_ok_iff.1 h with rfl | ⟨-, -, rfl⟩
  · simp
  · exact mem_powers_sum

/-! ### Weights -/

variable {M : Type} [AddCommGroup M]

theorem weight_summands (W : Weighing M) (p : Poly) : (p.summands.map (weight W)).sum = p.weight W := by
  induction p with
  | constant c => exact List.sum_singleton
  | monomial s e => exact List.sum_singleton
  | product c p => exact List.sum_singleton
  | sum terms ih =>
    rw [summands, summandsOfTerms_eq, weight_sum]
    induction terms with
    | nil => rfl
    | cons p ps ih_rest =>
      rw [List.flatMap_cons, List.map_append, List.sum_append, ih p (by simp), List.map_cons, List.sum_cons,
        ih_rest fun q hq => ih q (by simp [hq])]

theorem weight_withoutZeros (W : Weighing M) (terms : List Poly) :
    ((withoutZeros terms).map (weight W)).sum = (terms.map (weight W)).sum := by
  unfold withoutZeros
  split
  · rfl
  · next hlength =>
    clear hlength
    induction terms with
    | nil => rfl
    | cons p ps ih =>
      by_cases hp : p = zero
      · rw [List.filter_cons_of_neg (by simpa using hp), ih, List.map_cons, List.sum_cons, hp, weight_zero, zero_add]
      · rw [List.filter_cons_of_pos (by simpa using hp), List.map_cons, List.sum_cons, ih, List.map_cons,
          List.sum_cons]

theorem weight_ofSummands (W : Weighing M) {terms : List Poly} {q : Poly} (h : ofSummands terms = .ok q) :
    q.weight W = (terms.map (weight W)).sum := by
  rcases ofSummands_eq_ok_iff.1 h with rfl | ⟨-, -, rfl⟩
  · exact List.sum_singleton.symm
  · exact weight_sum W terms

end Poly
end PolyDeriv
