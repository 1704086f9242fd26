import Mathlib.Data.Finset.Prod
import Mathlib.Data.Nat.Find
import PolyDeriv.Proofs.Painting

/-!
# Pairs of parentheses

The parentheses of a balanced text come in pairs (`Matches`): an opening one is closed at the first position up to which
the text from there on is balanced.  Every parenthesis belongs to exactly one pair, and both of a pair are painted in the
colour that belongs to the number of pairs around them, the pair itself included (`paint_of_matches`).

What carries the argument is the height of a position (`height`), the number of pairs that are open in front of it.

* A pair begins and ends at the same height, and in between the text stays above it (`matches_iff_height`).
* Two pairs are apart or one inside the other (`Matches.nested`).
* As many pairs are open in front of a position as its height says (`card_openPairs`), and painting goes by the height
  (`paintFrom_eq_paintedBy`).
-/

namespace PolyDeriv

instance : DecidablePred Balanced := fun _ => decidable_of_iff _ balanced_iff.symm

/-- The characters from one position to another, both included. -/
def segment (cs : List Char) (i j : Nat) : List Char := (cs.take (j + 1)).drop i

/-- An opening parenthesis and the one that closes it. -/
structure Matches (cs : List Char) (i j : Nat) : Prop where
  opening : cs[i]? = some '('
  closing : cs[j]? = some ')'
  lt : i < j
  balanced : Balanced (segment cs i j)
  /-- Nothing from the first parenthesis on is balanced any sooner. -/
  first : ∀ k, i < k → k < j → ¬ Balanced (segment cs i k)

/-! ### Heights -/

/-- How many more parentheses open than close in front of a position. -/
def height (cs : List Char) (k : Nat) : Int := (cs.take k).count '(' - (cs.take k).count ')'

section

variable {cs : List Char} {i j k : Nat}

@[simp] theorem height_zero (cs : List Char) : height cs 0 = 0 := by simp [height]

private theorem height_opening (h : cs[k]? = some '(') : height cs (k + 1) = height cs k + 1 := by
  simp [height, List.take_add_one, h]
  omega

private theorem height_closing (h : cs[k]? = some ')') : height cs (k + 1) = height cs k - 1 := by
  simp [height, List.take_add_one, h]
  omega

private theorem height_other (h : ¬ ∃ c, cs[k]? = some c ∧ IsParen c) : height cs (k + 1) = height cs k := by
  cases hk : cs[k]? with
  | none => simp [height, List.take_add_one, hk]
  | some c =>
    obtain ⟨opening, closing⟩ := not_or.1 fun hc : IsParen c => h ⟨c, hk, hc⟩
    simp [height, List.take_add_one, hk, opening, closing]

/-- From one position to the next the height changes by one at most. -/
private theorem height_succ_cases (cs : List Char) (k : Nat) :
    (cs[k]? = some '(' ∧ height cs (k + 1) = height cs k + 1) ∨
    (cs[k]? = some ')' ∧ height cs (k + 1) = height cs k - 1) ∨
    ((¬ ∃ c, cs[k]? = some c ∧ IsParen c) ∧ height cs (k + 1) = height cs k) := by
  by_cases hk : ∃ c, cs[k]? = some c ∧ IsParen c
  · obtain ⟨c, hc, rfl | rfl⟩ := hk
    · exact .inl ⟨hc, height_opening hc⟩
    · exact .inr (.inl ⟨hc, height_closing hc⟩)
  · exact .inr (.inr ⟨hk, height_other hk⟩)

theorem balanced_iff_height : Balanced cs ↔ (∀ k, 0 ≤ height cs k) ∧ height cs cs.length = 0 := by
  constructor
  · intro h
    refine ⟨fun k => ?_, ?_⟩
    · have opened := h.opened _ (List.take_prefix k cs)
      unfold height
      omega
    · have closed := h.closed
      unfold height
      rw [List.take_length]
      omega
  · rintro ⟨nonnegative, closed⟩
    refine ⟨fun front hfront => ?_, ?_⟩
    · have at_front := nonnegative front.length
      rw [height, ← List.prefix_iff_eq_take.1 hfront] at at_front
      omega
    · rw [height, List.take_length] at closed
      omega

/-- In a segment, heights are counted from where it begins. -/
private theorem height_segment (hij : i ≤ j + 1) (k : Nat) :
    height (segment cs i j) k = height cs (min (i + k) (j + 1)) - height cs i := by
  have front : (segment cs i j).take k = (cs.take (min (i + k) (j + 1))).drop i := by
    rw [segment, List.take_drop, List.take_take]
  have counts : ∀ c, (cs.take (min (i + k) (j + 1))).count c =
      (cs.take i).count c + ((cs.take (min (i + k) (j + 1))).drop i).count c := by
    intro c
    have whole := List.take_append_drop i (cs.take (min (i + k) (j + 1)))
    rw [List.take_take, Nat.min_eq_left (by omega)] at whole
    rw [← List.count_append, whole]
  rw [height, height, height, front, counts, counts]
  omega

private theorem balanced_segment_iff (hij : i ≤ j) (hj : j < cs.length) : Balanced (segment cs i j) ↔
    (∀ k, i ≤ k → k ≤ j + 1 → height cs i ≤ height cs k) ∧ height cs (j + 1) = height cs i := by
  have length_eq : (segment cs i j).length = j + 1 - i := by
    rw [segment, List.length_drop, List.length_take, Nat.min_eq_left hj]
  have end_eq : min (i + (j + 1 - i)) (j + 1) = j + 1 := by omega
  simp only [balanced_iff_height, height_segment (Nat.le_succ_of_le hij), length_eq, end_eq, Int.sub_nonneg, sub_eq_zero]
  refine and_congr_left' ⟨fun h k hik hkj => ?_, fun h k => h _ (by omega) (by omega)⟩
  have at_k := h (k - i)
  rwa [show min (i + (k - i)) (j + 1) = k by omega] at at_k

/-! ### Pairs -/

/-- A pair ends at the height at which it begins, and everything in between is higher. -/
theorem matches_iff_height : Matches cs i j ↔
    cs[i]? = some '(' ∧ i < j ∧ j < cs.length ∧ height cs (j + 1) = height cs i ∧
      ∀ k, i < k → k ≤ j → height cs i < height cs k := by
  constructor
  · intro h
    have hj : j < cs.length := (List.getElem?_eq_some_iff.1 h.closing).1
    obtain ⟨above, ends⟩ := (balanced_segment_iff (Nat.le_of_lt h.lt) hj).1 h.balanced
    refine ⟨h.opening, h.lt, hj, ends, fun k hik hkj => ?_⟩
    by_contra low
    have same : height cs k = height cs i := Int.le_antisymm (Int.not_lt.1 low) (above k (by omega) (by omega))
    have raised := height_opening h.opening
    obtain ⟨m, rfl⟩ : ∃ m, k = m + 1 := ⟨k - 1, by omega⟩
    -- the segment would be balanced in front of `k` already
    have later : i < m := by
      by_contra hm
      obtain rfl : m = i := by omega
      omega
    exact h.first m later hkj ((balanced_segment_iff (by omega) (by omega)).2
      ⟨fun l hil hlm => above l hil (by omega), same⟩)
  · rintro ⟨opening, lt, hj, ends, higher⟩
    have closing : cs[j]? = some ')' := by
      have above := higher j lt (Nat.le_refl j)
      rcases height_succ_cases cs j with ⟨-, hstep⟩ | ⟨closing, -⟩ | ⟨-, hstep⟩
      · omega
      · exact closing
      · omega
    refine ⟨opening, closing, lt, (balanced_segment_iff (Nat.le_of_lt lt) hj).2 ⟨fun k hik hkj => ?_, ends⟩, ?_⟩
    · rcases Nat.eq_or_lt_of_le hik with rfl | hik
      · exact Int.le_refl _
      · rcases Nat.eq_or_lt_of_le hkj with rfl | hkj
        · exact Int.le_of_eq ends.symm
        · exact Int.le_of_lt (higher k hik (Nat.le_of_lt_succ hkj))
    · intro k hik hkj balanced
      have ends_at_k := ((balanced_segment_iff (Nat.le_of_lt hik) (by omega)).1 balanced).2
      have above := higher (k + 1) (by omega) hkj
      omega

instance (cs : List Char) (i j : Nat) : Decidable (Matches cs i j) :=
  decidable_of_iff (cs[i]? = some '(' ∧ cs[j]? = some ')' ∧ i < j ∧ Balanced (segment cs i j) ∧
      ∀ k < j, i < k → ¬ Balanced (segment cs i k))
    ⟨fun ⟨opening, closing, lt, balanced, first⟩ => ⟨opening, closing, lt, balanced, fun k hik hkj => first k hkj hik⟩,
      fun h => ⟨h.opening, h.closing, h.lt, h.balanced, fun k hkj hik => h.first k hik hkj⟩⟩

namespace Matches

variable {a b : Nat}

/-- Pairs do not cross: what begins inside a pair ends inside it. -/
theorem nested (h : Matches cs i j) (h' : Matches cs a b) (hia : i < a) (haj : a < j) : b < j := by
  obtain ⟨-, -, -, ends, higher⟩ := matches_iff_height.1 h
  obtain ⟨-, hab, -, ends', higher'⟩ := matches_iff_height.1 h'
  by_contra hb
  have same_end : b ≠ j := by
    rintro rfl
    have above := higher a hia (Nat.le_of_lt haj)
    omega
  have low := higher' (j + 1) (by omega) (by omega)
  have above := higher a hia (Nat.le_of_lt haj)
  omega

theorem closing_unique (h : Matches cs i j) (h' : Matches cs i b) : j = b := by
  obtain ⟨-, hij, -, ends, higher⟩ := matches_iff_height.1 h
  obtain ⟨-, hib, -, ends', higher'⟩ := matches_iff_height.1 h'
  rcases Nat.lt_trichotomy j b with hjb | hjb | hbj
  · have above := higher' (j + 1) (by omega) hjb
    omega
  · exact hjb
  · have above := higher (b + 1) (by omega) hbj
    omega

theorem opening_unique (h : Matches cs i j) (h' : Matches cs a j) : i = a := by
  obtain ⟨-, hij, -, ends, higher⟩ := matches_iff_height.1 h
  obtain ⟨-, haj, -, ends', higher'⟩ := matches_iff_height.1 h'
  rcases Nat.lt_trichotomy i a with hia | hia | hai
  · have above := higher a hia (Nat.le_of_lt haj)
    omega
  · exact hia
  · have above := higher' i hai (Nat.le_of_lt hij)
    omega

end Matches

/-- What is opened in a balanced text is closed. -/
theorem exists_matches_of_opening (balanced : Balanced cs) (hi : cs[i]? = some '(') : ∃ j, Matches cs i j := by
  have hlt : i < cs.length := (List.getElem?_eq_some_iff.1 hi).1
  obtain ⟨nonnegative, closed⟩ := balanced_iff_height.1 balanced
  have raised := height_opening hi
  -- the pair ends where the height is first down again
  have down : ∃ k, i < k ∧ height cs k ≤ height cs i := ⟨cs.length, hlt, closed ▸ nonnegative i⟩
  obtain ⟨after, low⟩ := Nat.find_spec down
  have higher : ∀ k, i < k → k < Nat.find down → height cs i < height cs k := by
    intro k hik hk
    have not_low := Nat.find_min down hk
    omega
  have within : Nat.find down ≤ cs.length := Nat.find_min' down ⟨hlt, closed ▸ nonnegative i⟩
  generalize Nat.find down = m at after low higher within
  obtain ⟨j, rfl⟩ : ∃ j, m = j + 1 := ⟨m - 1, by omega⟩
  have ne : j ≠ i := by
    rintro rfl
    omega
  have above := higher j (by omega) (by omega)
  have step := height_succ_cases cs j
  exact ⟨j, matches_iff_height.2 ⟨hi, by omega, by omega, by omega, fun k hik hkj => higher k hik (by omega)⟩⟩

/-- What is closed in a balanced text has been opened. -/
theorem exists_matches_of_closing (balanced : Balanced cs) (hj : cs[j]? = some ')') : ∃ i, Matches cs i j := by
  have hlt : j < cs.length := (List.getElem?_eq_some_iff.1 hj).1
  have lowered := height_closing hj
  have start : height cs 0 ≤ height cs (j + 1) := by
    rw [height_zero]
    exact (balanced_iff_height.1 balanced).1 (j + 1)
  -- the pair begins where the height was last as low
  have low := Nat.findGreatest_spec (P := fun k => height cs k ≤ height cs (j + 1)) (Nat.zero_le j) start
  have higher : ∀ k, Nat.findGreatest (fun k => height cs k ≤ height cs (j + 1)) j < k → k ≤ j →
      height cs (j + 1) < height cs k := fun k hk hkj => Int.not_le.1 (Nat.findGreatest_is_greatest hk hkj)
  have within := Nat.findGreatest_le (P := fun k => height cs k ≤ height cs (j + 1)) j
  generalize Nat.findGreatest (fun k => height cs k ≤ height cs (j + 1)) j = i at low higher within
  have ne : i ≠ j := by
    rintro rfl
    omega
  have above := higher (i + 1) (by omega) (by omega)
  rcases height_succ_cases cs i with ⟨opening, step⟩ | ⟨-, step⟩ | ⟨-, step⟩
  · have same : height cs (j + 1) = height cs i := by omega
    exact ⟨i, matches_iff_height.2 ⟨opening, by omega, hlt, same, fun k hik hkj => same ▸ higher k hik hkj⟩⟩
  · omega
  · omega

/-! ### Counting pairs -/

/-- The pairs of a text. -/
def pairsOf (cs : List Char) : Finset (Nat × Nat) :=
  (Finset.range cs.length ×ˢ Finset.range cs.length).filter fun q => Matches cs q.1 q.2

/-- The pairs that enclose a pair or are equal to it. -/
def pairsAround (cs : List Char) (i j : Nat) : Finset (Nat × Nat) := (pairsOf cs).filter fun q => q.1 ≤ i ∧ j ≤ q.2

/-- The pairs that have been opened in front of a position and not yet closed. -/
def openPairs (cs : List Char) (k : Nat) : Finset (Nat × Nat) := (pairsOf cs).filter fun q => q.1 < k ∧ k ≤ q.2

private theorem mem_pairsOf {q : Nat × Nat} : q ∈ pairsOf cs ↔ Matches cs q.1 q.2 := by
  simp only [pairsOf, Finset.mem_filter, Finset.mem_product, Finset.mem_range, and_iff_right_iff_imp]
  intro h
  obtain ⟨-, lt, hj, -⟩ := matches_iff_height.1 h
  exact ⟨Nat.lt_trans lt hj, hj⟩

private theorem mem_pairsAround {q : Nat × Nat} : q ∈ pairsAround cs i j ↔ Matches cs q.1 q.2 ∧ q.1 ≤ i ∧ j ≤ q.2 := by
  rw [pairsAround, Finset.mem_filter, mem_pairsOf]

private theorem mem_openPairs {q : Nat × Nat} : q ∈ openPairs cs k ↔ Matches cs q.1 q.2 ∧ q.1 < k ∧ k ≤ q.2 := by
  rw [openPairs, Finset.mem_filter, mem_pairsOf]

private theorem openPairs_of_opening (h : Matches cs k j) : openPairs cs (k + 1) = insert (k, j) (openPairs cs k) := by
  ext ⟨a, b⟩
  rw [Finset.mem_insert, mem_openPairs, mem_openPairs, Prod.mk.injEq]
  constructor
  · rintro ⟨hab, hak, hkb⟩
    rcases Nat.eq_or_lt_of_le (Nat.le_of_lt_succ hak) with rfl | hak
    · exact .inl ⟨rfl, hab.closing_unique h⟩
    · exact .inr ⟨hab, hak, Nat.le_of_succ_le hkb⟩
  · rintro (⟨rfl, rfl⟩ | ⟨hab, hak, hkb⟩)
    · exact ⟨h, Nat.lt_succ_self a, h.lt⟩
    · refine ⟨hab, Nat.lt_succ_of_lt hak, Nat.lt_of_le_of_ne hkb ?_⟩
      rintro rfl
      exact absurd (hab.closing.symm.trans h.opening) (by decide)

private theorem openPairs_of_closing (h : Matches cs i k) : openPairs cs k = insert (i, k) (openPairs cs (k + 1)) := by
  ext ⟨a, b⟩
  rw [Finset.mem_insert, mem_openPairs, mem_openPairs, Prod.mk.injEq]
  constructor
  · rintro ⟨hab, hak, hkb⟩
    rcases Nat.eq_or_lt_of_le hkb with rfl | hkb
    · exact .inl ⟨hab.opening_unique h, rfl⟩
    · exact .inr ⟨hab, Nat.lt_succ_of_lt hak, hkb⟩
  · rintro (⟨rfl, rfl⟩ | ⟨hab, hak, hkb⟩)
    · exact ⟨h, h.lt, Nat.le_refl b⟩
    · refine ⟨hab, Nat.lt_of_le_of_ne (Nat.le_of_lt_succ hak) ?_, Nat.le_of_succ_le hkb⟩
      rintro rfl
      exact absurd (hab.opening.symm.trans h.closing) (by decide)

private theorem openPairs_of_other (h : ¬ ∃ c, cs[k]? = some c ∧ IsParen c) :
    openPairs cs (k + 1) = openPairs cs k := by
  ext ⟨a, b⟩
  rw [mem_openPairs, mem_openPairs]
  refine and_congr_right fun hab => ?_
  have ne_opening : a ≠ k := by
    rintro rfl
    exact h ⟨'(', hab.opening, .inl rfl⟩
  have ne_closing : b ≠ k := by
    rintro rfl
    exact h ⟨')', hab.closing, .inr rfl⟩
  omega

/-- As many pairs are open in front of a position as its height says. -/
theorem card_openPairs (balanced : Balanced cs) (k : Nat) : (openPairs cs k).card = height cs k := by
  induction k with
  | zero =>
    have none_open : openPairs cs 0 = ∅ := Finset.filter_false_of_mem fun q _ h => Nat.not_lt_zero _ h.1
    rw [none_open, height_zero]
    rfl
  | succ k ih =>
    rcases height_succ_cases cs k with ⟨opening, step⟩ | ⟨closing, step⟩ | ⟨other, step⟩
    · obtain ⟨j, h⟩ := exists_matches_of_opening balanced opening
      have not_open : (k, j) ∉ openPairs cs k := fun hmem => Nat.lt_irrefl k (mem_openPairs.1 hmem).2.1
      rw [openPairs_of_opening h, Finset.card_insert_of_notMem not_open, step, ← ih]
      rfl
    · obtain ⟨i, h⟩ := exists_matches_of_closing balanced closing
      have closed : (i, k) ∉ openPairs cs (k + 1) := fun hmem => Nat.not_succ_le_self k (mem_openPairs.1 hmem).2.2
      rw [openPairs_of_closing h, Finset.card_insert_of_notMem closed] at ih
      omega
    · rw [openPairs_of_other other, step, ih]

private theorem Matches.pairsAround_eq (h : Matches cs i j) : pairsAround cs i j = openPairs cs (i + 1) := by
  ext ⟨a, b⟩
  rw [mem_pairsAround, mem_openPairs]
  refine and_congr_right fun hab => ⟨fun ⟨hai, hjb⟩ => ?_, fun ⟨hai, hib⟩ => ?_⟩
  · exact ⟨Nat.lt_succ_of_le hai, Nat.le_trans h.lt hjb⟩
  · rcases Nat.eq_or_lt_of_le (Nat.le_of_lt_succ hai) with rfl | hai
    · exact ⟨Nat.le_refl a, Nat.le_of_eq (h.closing_unique hab)⟩
    · exact ⟨Nat.le_of_lt hai, Nat.le_of_lt (hab.nested h hai hib)⟩

/-- As many pairs are around a pair as are open behind its first parenthesis. -/
theorem Matches.card_pairsAround (h : Matches cs i j) (balanced : Balanced cs) :
    (pairsAround cs i j).card = height cs i + 1 := by
  rw [h.pairsAround_eq, card_openPairs balanced, height_opening h.opening]

/-! ### Colours of pairs -/

/-- Characters with their parentheses painted, each in the colour of its position. -/
def paintedBy (colourOf : Nat → UInt8) (cs : List Char) : List Char :=
  (cs.mapIdx fun k c => if IsParen c then painted (colourOf k) c else [c]).flatten

/-- The pairs that are open around a position, a pair that begins or ends there included. -/
def level (cs : List Char) (k : Nat) : Int := max (height cs k) (height cs (k + 1))

private theorem paintedBy_cons (colourOf : Nat → UInt8) (c : Char) (cs : List Char) : paintedBy colourOf (c :: cs) =
    (if IsParen c then painted (colourOf 0) c else [c]) ++ paintedBy (fun k => colourOf (k + 1)) cs := by
  rw [paintedBy, List.mapIdx_cons, List.flatten_cons]
  rfl

private theorem height_cons (c : Char) (cs : List Char) (k : Nat) :
    height (c :: cs) (k + 1) = height (c :: cs) 1 + height cs k := by
  simp only [height, List.take_succ_cons, List.take_zero, List.count_cons, List.count_nil]
  omega

private theorem level_cons (c : Char) (cs : List Char) (k : Nat) :
    level (c :: cs) (k + 1) = height (c :: cs) 1 + level cs k := by
  rw [level, level, height_cons, height_cons c cs (k + 1)]
  omega

/-- The colour of a parenthesis is that of the pairs around it. -/
theorem paintFrom_eq_paintedBy {colourOf : Nat → UInt8} {depth : Nat} (h : openBehind depth cs = some 0) :
    paintFrom colourOf depth cs = some (paintedBy (fun k => colourOf (depth + level cs k).toNat) cs) := by
  induction cs generalizing depth with
  | nil =>
    obtain rfl : depth = 0 := by simpa using h
    rfl
  | cons c cs ih =>
    rw [paintedBy_cons]
    simp only [level_cons]
    by_cases hc : IsParen c
    · rw [if_pos hc]
      rcases hc with rfl | rfl
      · have raised : height ('(' :: cs) 1 = 1 := height_opening rfl
        have outermost : (depth + level ('(' :: cs) 0).toNat = depth + 1 := by
          rw [level, raised, height_zero]
          omega
        have deeper : ∀ k, ((depth + 1 : Nat) : Int) + level cs k = depth + (1 + level cs k) := fun k => by omega
        rw [openBehind_opening] at h
        rw [paintFrom_opening, ih h, raised, outermost, Option.map_some]
        simp only [deeper]
      · cases depth with
        | zero => exact absurd h (by simp)
        | succ depth =>
          have lowered : height (')' :: cs) 1 = -1 := height_closing rfl
          have innermost : (((depth + 1 : Nat) : Int) + level (')' :: cs) 0).toNat = depth + 1 := by
            rw [level, lowered, height_zero]
            omega
          have less_deep : ∀ k, ((depth + 1 : Nat) : Int) + (-1 + level cs k) = depth + level cs k := fun k => by omega
          rw [openBehind_closing] at h
          rw [paintFrom_closing, ih h, lowered, innermost, Option.map_some]
          simp only [less_deep]
    · have same : height (c :: cs) 1 = 0 := height_other (k := 0) (by simpa using hc)
      rw [openBehind_other hc] at h
      rw [if_neg hc, paintFrom_other hc, ih h, same, Option.map_some]
      simp only [Int.zero_add, List.singleton_append]

namespace Matches

/-- Both parentheses of a pair are at the level that is the number of pairs around them. -/
theorem level_eq (h : Matches cs i j) (balanced : Balanced cs) :
    level cs i = (pairsAround cs i j).card ∧ level cs j = (pairsAround cs i j).card := by
  obtain ⟨-, -, -, ends, -⟩ := matches_iff_height.1 h
  have opening := height_opening h.opening
  have closing := height_closing h.closing
  rw [h.card_pairsAround balanced, level, level]
  omega

end Matches

/-- A pair is inside another, with no pair in between. -/
def DirectlyInside (cs : List Char) (a b i j : Nat) : Prop :=
  i < a ∧ b < j ∧ ∀ k l, Matches cs k l → ¬ (i < k ∧ k < a ∧ b < l ∧ l < j)

/-- A pair directly inside another has that around it, all that are around that, and itself. -/
theorem card_of_directlyInside {a b : Nat} (hij : Matches cs i j) (hab : Matches cs a b)
    (inside : DirectlyInside cs a b i j) : (pairsAround cs a b).card = (pairsAround cs i j).card + 1 := by
  obtain ⟨hia, hbj, none_between⟩ := inside
  have not_around : (a, b) ∉ pairsAround cs i j := fun hmem => absurd (mem_pairsAround.1 hmem).2.1 (Nat.not_le.2 hia)
  suffices around_eq : pairsAround cs a b = insert (a, b) (pairsAround cs i j) by
    rw [around_eq, Finset.card_insert_of_notMem not_around]
  ext ⟨k, l⟩
  rw [Finset.mem_insert, mem_pairsAround, mem_pairsAround, Prod.mk.injEq]
  have hab_lt := hab.lt
  constructor
  · rintro ⟨hkl, hka, hbl⟩
    rcases Nat.eq_or_lt_of_le hka with rfl | hka
    · exact .inl ⟨rfl, hkl.closing_unique hab⟩
    · right
      have hbl : b < l := Nat.lt_of_le_of_ne hbl fun same => by
        subst same
        exact Nat.ne_of_lt hka (hkl.opening_unique hab)
      rcases Nat.lt_trichotomy k i with hki | rfl | hik
      · exact ⟨hkl, Nat.le_of_lt hki, Nat.le_of_lt (hkl.nested hij hki (by omega))⟩
      · exact ⟨hkl, Nat.le_refl k, Nat.le_of_eq (hij.closing_unique hkl)⟩
      · exact absurd ⟨hik, hka, hbl, hij.nested hkl hik (by omega)⟩ (none_between k l hkl)
  · rintro (⟨rfl, rfl⟩ | ⟨hkl, hki, hjl⟩)
    · exact ⟨hab, Nat.le_refl k, Nat.le_refl l⟩
    · exact ⟨hkl, by omega, by omega⟩

end

section

variable {palette : List UInt8} {text : String}

private theorem getElem?_palette (h : palette.length ≠ 0) (depth : Nat) :
    palette[depth % palette.length]? = some (colourAt palette h depth) := by
  rw [List.getElem?_eq_getElem (Nat.mod_lt _ (Nat.pos_of_ne_zero h))]
  rfl

theorem paint_eq_paintedBy (h : palette.length ≠ 0) (balanced : Balanced text.toList) : paint palette text =
    .ok (String.ofList (paintedBy (fun k => colourAt palette h (level text.toList k).toNat) text.toList)) := by
  rw [paint_eq_ok_iff h, paintFrom_eq_paintedBy (balanced_iff.1 balanced), String.toList_ofList]
  simp only [Int.natCast_zero, Int.zero_add]

end

/-- In a balanced text every parenthesis belongs to one pair.  Both of a pair are painted in the same colour, which is the
one that the palette has, going through it again and again, for the number of pairs around them, their own included.  So
a pair directly inside another has the next colour. -/
theorem paint_of_matches {palette : List UInt8} (ne : palette ≠ []) {text : String} (balanced : Balanced text.toList) :
    (∀ i, text.toList[i]? = some '(' → ∃! j, Matches text.toList i j) ∧
    (∀ j, text.toList[j]? = some ')' → ∃! i, Matches text.toList i j) ∧
    ∃ colourOf : Nat → UInt8, paint palette text = .ok (String.ofList (paintedBy colourOf text.toList)) ∧
      ∀ i j, Matches text.toList i j →
        palette[(pairsAround text.toList i j).card % palette.length]? = some (colourOf i) ∧ colourOf j = colourOf i ∧
          ∀ a b, Matches text.toList a b → DirectlyInside text.toList a b i j →
            palette[((pairsAround text.toList i j).card + 1) % palette.length]? = some (colourOf a) := by
  refine ⟨fun i hi => ?_, fun j hj => ?_, ?_⟩
  · obtain ⟨j, h⟩ := exists_matches_of_opening balanced hi
    exact ⟨j, h, fun b h' => h'.closing_unique h⟩
  · obtain ⟨i, h⟩ := exists_matches_of_closing balanced hj
    exact ⟨i, h, fun a h' => h'.opening_unique h⟩
  · have colours : palette.length ≠ 0 := mt List.length_eq_zero_iff.1 ne
    refine ⟨_, paint_eq_paintedBy colours balanced, fun i j h => ?_⟩
    obtain ⟨level_i, level_j⟩ := h.level_eq balanced
    refine ⟨?_, ?_, fun a b h' inside => ?_⟩
    · rw [level_i, Int.toNat_natCast, getElem?_palette colours]
    · rw [level_i, level_j]
    · rw [(h'.level_eq balanced).1, Int.toNat_natCast, card_of_directlyInside h h' inside, getElem?_palette colours]

/-- Two pairs, one after the other, inside a pair, one of them with a pair of its own, in two colours. -/
theorem paint_of_matches_siblings : ∃ colourOf : Nat → UInt8,
    paint [19, 124] "((())())x" = .ok (String.ofList (paintedBy colourOf "((())())x".toList)) ∧
    (Matches "((())())x".toList 0 7 ∧ colourOf 0 = 124 ∧ colourOf 7 = 124) ∧
    (Matches "((())())x".toList 2 3 ∧ colourOf 2 = 124 ∧ colourOf 3 = 124) ∧
    Matches "((())())x".toList 5 6 ∧ DirectlyInside "((())())x".toList 5 6 0 7 ∧ colourOf 5 = 19 := by
  have ne : ([19, 124] : List UInt8) ≠ [] := by decide
  have balanced : Balanced "((())())x".toList := by decide
  obtain ⟨-, -, colourOf, painted_text, colour⟩ := paint_of_matches ne balanced
  have outer : Matches "((())())x".toList 0 7 := by decide
  have innermost : Matches "((())())x".toList 2 3 := by decide
  have second : Matches "((())())x".toList 5 6 := by decide
  have inside : DirectlyInside "((())())x".toList 5 6 0 7 := ⟨by decide, by decide, fun k l _ _ => by omega⟩
  have around_outer : (pairsAround "((())())x".toList 0 7).card = 1 := by decide +kernel
  have around_innermost : (pairsAround "((())())x".toList 2 3).card = 3 := by decide +kernel
  obtain ⟨at_outer, same_outer, directly_inside⟩ := colour 0 7 outer
  obtain ⟨at_innermost, same_innermost, -⟩ := colour 2 3 innermost
  have at_second := directly_inside 5 6 second inside
  rw [around_outer] at at_outer at_second
  rw [around_innermost] at at_innermost
  have outer_colour : 124 = colourOf 0 := Option.some.inj at_outer
  have innermost_colour : 124 = colourOf 2 := Option.some.inj at_innermost
  have second_colour : 19 = colourOf 5 := Option.some.inj at_second
  exact ⟨colourOf, painted_text, ⟨outer, outer_colour.symm, same_outer.trans outer_colour.symm⟩,
    ⟨innermost, innermost_colour.symm, same_innermost.trans innermost_colour.symm⟩, second, inside, second_colour.symm⟩

end PolyDeriv
