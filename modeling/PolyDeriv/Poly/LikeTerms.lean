import PolyDeriv.Poly.Power

/-!
# Like terms

Terms are like if they are multiples of the same power, or if they are constants.  `Poly.combine` adds up like terms
of a list.  The coefficients found so far are kept in a `Tally`, whose powers are always in ascending order.  The
terms are added from left to right, and every intermediate sum has to fit.

A zeroth power is a constant, but it counts as a power of its own until all terms are added up.  Sums, and multiples
of sums and of multiples, are not looked into (`Poly.isCompound`).

The key facts: adding to the coefficient of a power keeps the order (`ascending_addCoefficient`), and changes the
coefficient of that power and of no other (`coefficientIn_addCoefficient`).
-/

namespace PolyDeriv

/-! ### Coefficients of powers -/

/-- Every power occurs once, and later powers are greater. -/
def Ascending (entries : List (Power × Int64)) : Prop := entries.Pairwise fun a b => a.1 < b.1

/-- The coefficient of a power, which is zero if the power does not occur. -/
def coefficientIn (entries : List (Power × Int64)) (p : Power) : Int :=
  match entries with
  | [] => 0
  | (q, c) :: rest => if p = q then c.toInt else coefficientIn rest p

/-- Adds to the coefficient of a power, among powers in ascending order. -/
def addCoefficient (p : Power) (c : Int64) : List (Power × Int64) → Except Overflow (List (Power × Int64))
  | [] => .ok [(p, c)]
  | (q, d) :: rest =>
    if p < q then .ok ((p, c) :: (q, d) :: rest)
    else if p = q then
      match exactSum d c with
      | .ok sum => .ok ((q, sum) :: rest)
      | .error e => .error e
    else
      match addCoefficient p c rest with
      | .ok rest => .ok ((q, d) :: rest)
      | .error e => .error e

/-- The powers of the result are the given one and those that were there before. -/
theorem mem_addCoefficient {p : Power} {c : Int64} {entries result : List (Power × Int64)}
    (h : addCoefficient p c entries = .ok result) (q : Power) :
    q ∈ result.map (·.1) ↔ q = p ∨ q ∈ entries.map (·.1) := by
  induction entries generalizing result with
  | nil =>
    obtain rfl := Except.ok.inj h
    simp
  | cons entry rest ih =>
    obtain ⟨r, d⟩ := entry
    unfold addCoefficient at h
    split at h
    · obtain rfl := Except.ok.inj h
      simp
    · split at h
      · next hr =>
        subst hr
        split at h
        · obtain rfl := Except.ok.inj h
          simp
        · exact absurd h (by simp)
      · split at h
        · next tail htail =>
          obtain rfl := Except.ok.inj h
          rw [List.map_cons, List.mem_cons, ih htail, List.map_cons, List.mem_cons]
          exact or_left_comm
        · exact absurd h (by simp)

/-- What is below the first power of a list is below all of them. -/
theorem forall_lt_of_lt {p : Power} {first : Power × Int64} {rest : List (Power × Int64)}
    (sorted : Ascending (first :: rest)) (hlt : p < first.1) : ∀ entry ∈ first :: rest, p < entry.1 := by
  intro entry hentry
  rcases List.mem_cons.1 hentry with rfl | hentry
  · exact hlt
  · exact Power.lt_trans hlt ((List.pairwise_cons.1 sorted).1 entry hentry)

theorem not_mem_of_forall_lt {p : Power} {entries : List (Power × Int64)} (h : ∀ entry ∈ entries, p < entry.1) :
    p ∉ entries.map (·.1) := by
  intro hmem
  obtain ⟨entry, hentry, rfl⟩ := List.mem_map.1 hmem
  exact Power.lt_irrefl _ (h entry hentry)

theorem ascending_addCoefficient {p : Power} {c : Int64} {entries result : List (Power × Int64)}
    (h : addCoefficient p c entries = .ok result) (sorted : Ascending entries) : Ascending result := by
  induction entries generalizing result with
  | nil =>
    obtain rfl := Except.ok.inj h
    simp [Ascending]
  | cons entry rest ih =>
    obtain ⟨q, d⟩ := entry
    obtain ⟨below, sorted_rest⟩ := List.pairwise_cons.1 sorted
    unfold addCoefficient at h
    split at h
    · next hlt =>
      obtain rfl := Except.ok.inj h
      exact List.pairwise_cons.2 ⟨forall_lt_of_lt sorted hlt, sorted⟩
    · next hnlt =>
      split at h
      · split at h
        · obtain rfl := Except.ok.inj h
          exact List.pairwise_cons.2 ⟨below, sorted_rest⟩
        · exact absurd h (by simp)
      · next hne =>
        split at h
        · next tail htail =>
          obtain rfl := Except.ok.inj h
          refine List.pairwise_cons.2 ⟨fun entry hmem => ?_, ih htail sorted_rest⟩
          have hkey := (mem_addCoefficient htail entry.1).1 (List.mem_map_of_mem hmem)
          rcases hkey with hkey | hkey
          · rcases Power.lt_trichotomy p q with hpq | hpq | hpq
            · exact absurd hpq hnlt
            · exact absurd hpq hne
            · exact hkey ▸ hpq
          · obtain ⟨other, hother, hkey⟩ := List.mem_map.1 hkey
            exact hkey ▸ below other hother
        · exact absurd h (by simp)

theorem coefficientIn_eq_zero {entries : List (Power × Int64)} {p : Power} (h : p ∉ entries.map (·.1)) :
    coefficientIn entries p = 0 := by
  induction entries with
  | nil => rfl
  | cons entry rest ih =>
    obtain ⟨q, d⟩ := entry
    rw [List.map_cons, List.mem_cons, not_or] at h
    rw [coefficientIn, if_neg h.1, ih h.2]

theorem coefficientIn_of_mem {entries : List (Power × Int64)} (sorted : Ascending entries) {entry : Power × Int64}
    (h : entry ∈ entries) : coefficientIn entries entry.1 = entry.2.toInt := by
  induction entries with
  | nil => simp at h
  | cons first rest ih =>
    obtain ⟨q, d⟩ := first
    obtain ⟨below, sorted_rest⟩ := List.pairwise_cons.1 sorted
    rcases List.mem_cons.1 h with rfl | h
    · rw [coefficientIn, if_pos rfl]
    · have later : entry.1 ≠ q := fun hq => Power.lt_irrefl q (hq ▸ below entry h)
      rw [coefficientIn, if_neg later, ih sorted_rest h]

theorem coefficientIn_addCoefficient {p : Power} {c : Int64} {entries result : List (Power × Int64)}
    (h : addCoefficient p c entries = .ok result) (sorted : Ascending entries) (q : Power) :
    coefficientIn result q = coefficientIn entries q + if q = p then c.toInt else 0 := by
  induction entries generalizing result with
  | nil =>
    obtain rfl := Except.ok.inj h
    simp [coefficientIn]
  | cons entry rest ih =>
    obtain ⟨r, d⟩ := entry
    obtain ⟨below, sorted_rest⟩ := List.pairwise_cons.1 sorted
    unfold addCoefficient at h
    split at h
    · next hlt =>
      obtain rfl := Except.ok.inj h
      by_cases hq : q = p
      · have absent : p ∉ ((r, d) :: rest).map (·.1) := not_mem_of_forall_lt (forall_lt_of_lt sorted hlt)
        rw [hq, coefficientIn_eq_zero absent]
        simp [coefficientIn]
      · simp [coefficientIn, hq]
    · next hnlt =>
      split at h
      · next hr =>
        subst hr
        split at h
        · next sum hsum =>
          obtain rfl := Except.ok.inj h
          by_cases hq : q = p
          · simp [coefficientIn, hq, exactSum_eq_ok_iff.1 hsum]
          · simp [coefficientIn, hq]
        · exact absurd h (by simp)
      · next hne =>
        split at h
        · next tail htail =>
          obtain rfl := Except.ok.inj h
          by_cases hq : q = r
          · have hrp : r ≠ p := fun hrp => hne hrp.symm
            simp [coefficientIn, hq, hrp]
          · simp [coefficientIn, hq, ih htail sorted_rest]
        · exact absurd h (by simp)

/-! ### Adding up terms -/

/-- What the terms of a list add up to. -/
structure Tally where
  /-- The powers that occur, with their coefficients. -/
  powers : List (Power × Int64)
  ascending : Ascending powers
  constant : Int64

namespace Tally

/-- No terms. -/
def empty : Tally := ⟨[], .nil, 0⟩

/-- Adds a multiple of a power. -/
def addPower (tally : Tally) (p : Power) (c : Int64) : Except Overflow Tally :=
  match h : addCoefficient p c tally.powers with
  | .ok powers => .ok { tally with powers, ascending := ascending_addCoefficient h tally.ascending }
  | .error e => .error e

/-- Adds a constant. -/
def addConstant (tally : Tally) (c : Int64) : Except Overflow Tally :=
  match exactSum tally.constant c with
  | .ok constant => .ok { tally with constant }
  | .error e => .error e

/-- Adds a term, unless it is compound. -/
def addTerm (tally : Tally) : Poly → Except Overflow Tally
  | .constant c => tally.addConstant c
  | .monomial s e => tally.addPower ⟨s, e⟩ 1
  | .product k (.monomial s e) => tally.addPower ⟨s, e⟩ k
  | .product k (.constant c) =>
    match exactProduct k c with
    | .ok c => tally.addConstant c
    | .error e => .error e
  | .product _ (.product ..) | .product _ (.sum _) | .sum _ => .ok tally

/-- The constant together with the zeroth powers. -/
def total (tally : Tally) : Except Overflow Int64 :=
  (tally.powers.filter (·.1.exponent = 0)).foldlM (fun sum entry => exactSum sum entry.2) tally.constant

/-- The multiples of the other powers. -/
def multiples (tally : Tally) : List Poly :=
  (tally.powers.filter (·.1.exponent ≠ 0)).map fun entry => entry.1.scale entry.2

/-- Adding a power affects the coefficients of powers only. -/
theorem addPower_eq_ok_iff {tally result : Tally} {p : Power} {c : Int64} :
    tally.addPower p c = .ok result ↔
      addCoefficient p c tally.powers = .ok result.powers ∧ result.constant = tally.constant := by
  unfold addPower
  split
  · next powers h =>
    cases result
    simp [h, eq_comm]
  · next e h => simp [h]

/-- Adding a constant affects the constant only. -/
theorem addConstant_eq_ok_iff {tally result : Tally} {c : Int64} :
    tally.addConstant c = .ok result ↔
      result.constant.toInt = tally.constant.toInt + c.toInt ∧ result.powers = tally.powers := by
  rw [← exactSum_eq_ok_iff]
  unfold addConstant
  split
  · next constant h =>
    rw [h]
    cases result
    simp [eq_comm, and_comm]
  · next e h => simp [h]

end Tally

namespace Poly

/-- Sums, and multiples of anything that is not a constant or a power. -/
def isCompound : Poly → Bool
  | .constant _ | .monomial .. | .product _ (.constant _) | .product _ (.monomial ..) => false
  | .product _ (.product ..) | .product _ (.sum _) | .sum _ => true

/-- Adds up like terms.  The compound terms come first, in their order; the multiples of powers follow, in theirs;
and the constant is last, even if it is zero. -/
def combine (terms : List Poly) : Except Overflow (List Poly) := do
  let tally ← terms.foldlM Tally.addTerm .empty
  let constant ← tally.total
  return terms.filter isCompound ++ tally.multiples ++ [.constant constant]

end Poly
end PolyDeriv
