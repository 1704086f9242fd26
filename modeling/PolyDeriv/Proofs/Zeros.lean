import PolyDeriv.Proofs.Summands

/-!
# Zeros among terms

Removing zeros keeps everything else, in order (`withoutZeros_sublist`, `filter_withoutZeros`).  But of two or more zeros
it leaves none, although one zero is left alone; so there are lists that cannot be joined afterwards (`Vanishes`), and no
others (`ofSummands_withoutZeros_eq_error_iff`).

Added up, like terms never make such a list: they come to one constant, and in front of it there is none
(`exists_constant_of_combine`).
-/

namespace PolyDeriv
namespace Poly

variable {terms : List Poly}

/-- There are no terms, or two or more of them and all are zero. -/
def Vanishes (terms : List Poly) : Prop := terms = [] ∨ 2 ≤ terms.length ∧ ∀ t ∈ terms, t = .constant 0

/-! ### Removing zeros -/

theorem withoutZeros_sublist (terms : List Poly) : (withoutZeros terms).Sublist terms := by
  unfold withoutZeros
  split
  · exact List.Sublist.refl terms
  · exact List.filter_sublist

/-- The terms that are not zero stay. -/
theorem filter_withoutZeros (terms : List Poly) :
    (withoutZeros terms).filter (· ≠ zero) = terms.filter (· ≠ zero) := by
  unfold withoutZeros
  split
  · rfl
  · rw [List.filter_filter]
    simp only [Bool.and_self]

private theorem zero_notMem_withoutZeros (two : 2 ≤ terms.length) : zero ∉ withoutZeros terms := by
  rw [withoutZeros, if_neg (Nat.not_lt.2 two)]
  simp

theorem withoutZeros_eq_nil_iff : withoutZeros terms = [] ↔ Vanishes terms := by
  unfold withoutZeros Vanishes
  split
  · next short => exact (or_iff_left fun ⟨two, _⟩ => absurd short (Nat.not_lt.2 two)).symm
  · next long =>
    have two : 2 ≤ terms.length := Nat.not_lt.1 long
    have nonempty : terms ≠ [] := by
      rintro rfl
      exact absurd two (by decide)
    have all_zero : terms.filter (· ≠ zero) = [] ↔ ∀ t ∈ terms, t = zero := by simp
    rw [all_zero]
    exact ⟨fun zeros => .inr ⟨two, zeros⟩, fun vanishes => (vanishes.resolve_left nonempty).2⟩

theorem value_withoutZeros {w : Power → Rat} (h : Unital w) (terms : List Poly) :
    (sum (withoutZeros terms)).value w = (sum terms).value w := by
  rw [value_eq_weight h, value_eq_weight h, weight_sum, weight_sum, weight_withoutZeros]

/-! ### Joining what is left -/

theorem ofSummands_withoutZeros_eq_error_iff (checked : ∀ t ∈ terms, t.check = .ok ()) {fault : InvariantFault} :
    ofSummands (withoutZeros terms) = .error fault ↔ Vanishes terms ∧ fault = .shortSum 0 := by
  rw [ofSummands_eq_error_iff (check_withoutZeros checked), withoutZeros_eq_nil_iff]

/-- A list that does not vanish joins to an expression with the value of its sum. -/
theorem exists_ofSummands_withoutZeros (checked : ∀ t ∈ terms, t.check = .ok ()) (left : ¬ Vanishes terms) :
    ∃ q, ofSummands (withoutZeros terms) = .ok q ∧ q.check = .ok () ∧
      ∀ w, Unital w → q.value w = (sum terms).value w := by
  cases h : ofSummands (withoutZeros terms) with
  | error fault => exact absurd ((ofSummands_withoutZeros_eq_error_iff checked).1 h).1 left
  | ok q =>
    refine ⟨q, rfl, check_ofSummands h (check_withoutZeros checked), fun w hw => ?_⟩
    rw [← value_withoutZeros hw, value_eq_weight hw, value_eq_weight hw, weight_sum, weight_ofSummands _ h]

/-! ### Like terms -/

/-- Terms that have been added up end in a constant, and no other of them is one. -/
theorem exists_constant_of_combine {result : List Poly} (h : combine terms = .ok result) :
    ∃ front c, result = front ++ [.constant c] ∧ ∀ t ∈ front, ∀ k, t ≠ .constant k := by
  obtain ⟨tally, total, -, -, rfl⟩ := combine_eq_ok_iff.1 h
  refine ⟨_, total, rfl, fun t ht k hk => ?_⟩
  subst hk
  rcases List.mem_append.1 ht with compound | multiple
  · exact absurd (List.mem_filter.1 compound).2 (by simp [isCompound])
  · obtain ⟨entry, -, scaled⟩ := List.mem_map.1 multiple
    unfold Power.scale at scaled
    split at scaled
    · exact absurd scaled (by simp)
    · exact absurd scaled (by simp)

private theorem not_vanishes_of_combine {result : List Poly} (h : combine terms = .ok result) : ¬ Vanishes result := by
  obtain ⟨front, c, rfl, no_constant⟩ := exists_constant_of_combine h
  rintro (nil | ⟨two, zeros⟩)
  · simp at nil
  · -- the first of two or more terms stands in front of the constant
    cases front with
    | nil => simp at two
    | cons t front => exact no_constant t List.mem_cons_self 0 (zeros t List.mem_cons_self)

theorem value_combine {w : Power → Rat} (hw : Unital w) {result : List Poly} (h : combine terms = .ok result) :
    (sum result).value w = (sum terms).value w := by
  rw [value_eq_weight hw, value_eq_weight hw, weight_sum, weight_sum, weight_combine _ h]

/-- Of a list of terms, the zeros are removed and nothing else, if there are two terms or more; what is left stands in
the same order and has the same value.  It can be joined unless no term is left, that is, unless there were no terms or
two or more zeros and nothing else: then an invariant is violated.  The result is well-formed and has the value of the
sum.  When like terms have been added up, joining always succeeds. -/
theorem ofSummands_withoutZeros {terms : List Poly} (checked : ∀ t ∈ terms, t.check = .ok ()) :
    ((withoutZeros terms).Sublist terms ∧ (withoutZeros terms).filter (· ≠ zero) = terms.filter (· ≠ zero) ∧
      (2 ≤ terms.length → zero ∉ withoutZeros terms) ∧
      ∀ w, Unital w → (sum (withoutZeros terms)).value w = (sum terms).value w) ∧
    (∀ e, (ofSummands (withoutZeros terms)).mapError Error.invariant = .error e ↔
      Vanishes terms ∧ e = .invariant (.shortSum 0)) ∧
    (¬ Vanishes terms → ∃ q, ofSummands (withoutZeros terms) = .ok q ∧ q.check = .ok () ∧
      ∀ w, Unital w → q.value w = (sum terms).value w) ∧
    ∀ result, combine terms = .ok result → ∃ q, ofSummands (withoutZeros result) = .ok q ∧ q.check = .ok () ∧
      ∀ w, Unital w → q.value w = (sum terms).value w := by
  refine ⟨⟨withoutZeros_sublist terms, filter_withoutZeros terms, zero_notMem_withoutZeros,
    fun w hw => value_withoutZeros hw terms⟩, fun e => ?_, exists_ofSummands_withoutZeros checked, fun result h => ?_⟩
  · rw [mapError_eq_error_iff]
    simp only [ofSummands_withoutZeros_eq_error_iff checked]
    constructor
    · rintro ⟨_, ⟨vanishes, rfl⟩, rfl⟩
      exact ⟨vanishes, rfl⟩
    · rintro ⟨vanishes, rfl⟩
      exact ⟨_, ⟨vanishes, rfl⟩, rfl⟩
  · obtain ⟨q, hq, well_formed, value_eq⟩ :=
      exists_ofSummands_withoutZeros (check_combine h checked) (not_vanishes_of_combine h)
    exact ⟨q, hq, well_formed, fun w hw => (value_eq w hw).trans (value_combine hw h)⟩

/-- `0 + 2 x + 0 - 2 x`, where the constants are dropped and the power stays even when it has cancelled out; and two
zeros, of which nothing is left. -/
theorem ofSummands_withoutZeros_cancelled :
    let twice : Poly := .product 2 (.monomial "x" 1)
    let back : Poly := .product (-2) (.monomial "x" 1)
    let terms : List Poly := [.constant 0, twice, .constant 0, back]
    let result : List Poly := [.product 0 (.monomial "x" 1), .constant 0]
    let zeros : List Poly := [.constant 0, .constant 0]
    (∀ t ∈ terms, t.check = .ok ()) ∧ withoutZeros terms = [twice, back] ∧ ¬ Vanishes terms ∧
      (∃ q, ofSummands (withoutZeros terms) = .ok q ∧ q.check = .ok () ∧
        ∀ w, Unital w → q.value w = (sum terms).value w) ∧
      combine terms = .ok result ∧ (∃ q, ofSummands (withoutZeros result) = .ok q ∧ q.check = .ok () ∧
        ∀ w, Unital w → q.value w = (sum terms).value w) ∧
      (∀ t ∈ zeros, t.check = .ok ()) ∧ Vanishes zeros ∧
        (ofSummands (withoutZeros zeros)).mapError Error.invariant = .error (.invariant (.shortSum 0)) := by
  intro twice back terms result zeros
  have checked : ∀ t ∈ terms, t.check = .ok () := by decide +kernel
  have combined : combine terms = .ok result := by decide +kernel
  have left : ¬ Vanishes terms := by simp [Vanishes, terms, twice]
  have zeros_checked : ∀ t ∈ zeros, t.check = .ok () := by decide +kernel
  have vanishes : Vanishes zeros := by simp [Vanishes, zeros]
  obtain ⟨-, -, joins, combined_joins⟩ := ofSummands_withoutZeros checked
  obtain ⟨-, fails, -⟩ := ofSummands_withoutZeros zeros_checked
  exact ⟨checked, by decide +kernel, left, joins left, combined, combined_joins result combined, zeros_checked,
    vanishes, (fails _).2 ⟨vanishes, rfl⟩⟩

end Poly
end PolyDeriv
