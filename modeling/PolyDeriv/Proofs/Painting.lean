import PolyDeriv.Proofs.Colouring

/-!
# Texts that can be painted

Which texts can be painted, told by counting alone: those in which no beginning closes more than it opens, and which as
a whole close all that they open (`Balanced`, `openBehind_eq_some_iff`).  What comes out is the text with escape
sequences around its parentheses, and deleting the sequences gives the text back (`paint_of_balanced`).
-/

namespace PolyDeriv

/-- The parentheses of a text match. -/
structure Balanced (cs : List Char) : Prop where
  /-- No parenthesis closes what has not been opened. -/
  opened : ∀ front, front <+: cs → front.count ')' ≤ front.count '('
  /-- Everything has been closed at the end. -/
  closed : cs.count '(' = cs.count ')'

private theorem forall_prefix_cons_iff {c : Char} {cs : List Char} {P : List Char → Prop} :
    (∀ front, front <+: c :: cs → P front) ↔ P [] ∧ ∀ front, front <+: cs → P (c :: front) := by
  simp only [List.prefix_cons_iff]
  constructor
  · intro h
    exact ⟨h [] (.inl rfl), fun front hfront => h _ (.inr ⟨front, rfl, hfront⟩)⟩
  · rintro ⟨nil, cons⟩ front (rfl | ⟨rest, rfl, hrest⟩)
    · exact nil
    · exact cons rest hrest

/-- Counting pairs from left to right tells how many of each parenthesis there are. -/
theorem openBehind_eq_some_iff {depth behind : Nat} {cs : List Char} : openBehind depth cs = some behind ↔
    (∀ front, front <+: cs → front.count ')' ≤ depth + front.count '(') ∧
      depth + cs.count '(' = behind + cs.count ')' := by
  induction cs generalizing depth with
  | nil => simp [List.prefix_nil]
  | cons c cs ih =>
    rw [forall_prefix_cons_iff]
    by_cases hc : IsParen c
    · rcases hc with rfl | rfl
      · have shift : ∀ m n, m ≤ depth + (n + 1) ↔ m ≤ depth + 1 + n := fun m n => by omega
        have total : ∀ m n, depth + (m + 1) = behind + n ↔ depth + 1 + m = behind + n := fun m n => by omega
        simp [ih, shift, total]
      · cases depth with
        | zero =>
          -- the parenthesis is a beginning that closes more than it opens
          rw [openBehind_unopened]
          refine iff_of_false (by simp) fun h => ?_
          exact absurd (h.1.2 [] List.nil_prefix) (by decide)
        | succ depth =>
          have shift : ∀ m n, m + 1 ≤ depth + 1 + n ↔ m ≤ depth + n := fun m n => by omega
          have total : ∀ m n, depth + 1 + m = behind + (n + 1) ↔ depth + m = behind + n := fun m n => by omega
          simp [ih, shift, total]
    · obtain ⟨opening, closing⟩ := not_or.1 hc
      simp [openBehind_other hc, ih, opening, closing]

theorem balanced_iff {cs : List Char} : Balanced cs ↔ openBehind 0 cs = some 0 := by
  rw [openBehind_eq_some_iff]
  simp only [Nat.zero_add]
  exact ⟨fun h => ⟨h.opened, h.closed⟩, fun h => ⟨h.1, h.2⟩⟩

/-- A text that cannot be painted is quoted. -/
theorem paint_eq_unbalanced {palette : List UInt8} {text : String} (ne : palette ≠ [])
    (h : ¬ ∃ out, paint palette text = .ok out) : paint palette text = .error (.parse (.unbalanced text)) := by
  unfold paint at h ⊢
  rw [dif_neg (mt List.length_eq_zero_iff.1 ne)] at h ⊢
  split
  · next cs hcs => exact absurd ⟨_, by rw [hcs]⟩ h
  · rfl

/-- With no colours nothing can be painted, and with some a text can be painted exactly if its parentheses match.  All
that is added are escape sequences around the parentheses. -/
theorem paint_of_balanced (palette : List UInt8) (text : String) :
    (palette = [] → paint palette text = .error (.invariant .emptyPalette)) ∧
    (palette ≠ [] → ((∃ out, paint palette text = .ok out) ↔ Balanced text.toList) ∧
      (¬ Balanced text.toList → paint palette text = .error (.parse (.unbalanced text)))) ∧
    ∀ out, paint palette text = .ok out → Coloured palette text.toList out.toList ∧
      (escape ∉ text.toList → withoutEscapes out.toList = text.toList) := by
  refine ⟨?_, ?_, fun out hout => ?_⟩
  · rintro rfl
    rfl
  · intro ne
    have paintable : (∃ out, paint palette text = .ok out) ↔ Balanced text.toList :=
      (exists_paint_iff (mt List.length_eq_zero_iff.1 ne)).trans balanced_iff.symm
    exact ⟨paintable, fun unbalanced => paint_eq_unbalanced ne (mt paintable.1 unbalanced)⟩
  · have coloured := coloured_of_paint hout
    exact ⟨coloured, coloured.withoutEscapes_eq⟩

/-- A text that looks like the end of an escape sequence, one that closes too early, and no colours. -/
theorem paint_of_balanced_bracketed :
    (∃ out, paint [7] "[0m(1)m" = .ok out ∧ Coloured [7] "[0m(1)m".toList out.toList ∧
      withoutEscapes out.toList = "[0m(1)m".toList) ∧
    paint [7] ")(" = .error (.parse (.unbalanced ")(")) ∧ paint [] "x" = .error (.invariant .emptyPalette) := by
  have balanced : Balanced "[0m(1)m".toList := balanced_iff.2 (by decide)
  have unbalanced : ¬ Balanced ")(".toList := mt balanced_iff.1 (by decide)
  obtain ⟨-, bracketed, painted⟩ := paint_of_balanced [7] "[0m(1)m"
  obtain ⟨out, hout⟩ := (bracketed (by decide)).1.2 balanced
  obtain ⟨coloured, erased⟩ := painted out hout
  exact ⟨⟨out, hout, coloured, erased (by decide)⟩, ((paint_of_balanced [7] ")(").2.1 (by decide)).2 unbalanced,
    (paint_of_balanced [] "x").1 rfl⟩

end PolyDeriv
