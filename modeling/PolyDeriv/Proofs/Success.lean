import Mathlib.Data.List.Forall2

/-!
# Success

When computations that can fail succeed, and with what, and which error they fail with otherwise (`fault?`).  A
traversal succeeds if every element does (`exists_mapM_iff`), with the results of the elements (`mapM_eq_ok_iff`), and
fails with the first error there is (`fault?_mapM`).  What a fold results in has every property that the start has and
that no successful step loses (`foldlM_induction`).
-/

namespace PolyDeriv

variable {α β ε δ : Type}

theorem bind_eq_ok_iff {x : Except ε α} {f : α → Except ε β} {b : β} :
    x >>= f = .ok b ↔ ∃ a, x = .ok a ∧ f a = .ok b := by
  cases x <;> simp [bind, Except.bind]

theorem bind_eq_error_iff {x : Except ε α} {f : α → Except ε β} {e : ε} :
    x >>= f = .error e ↔ x = .error e ∨ ∃ a, x = .ok a ∧ f a = .error e := by
  cases x <;> simp [bind, Except.bind]

theorem pure_eq_ok_iff {a b : α} : (pure a : Except ε α) = .ok b ↔ a = b := by
  simp [pure, Except.pure]

theorem map_eq_ok_iff {x : Except ε α} {f : α → β} {b : β} : x.map f = .ok b ↔ ∃ a, x = .ok a ∧ f a = b := by
  cases x <;> simp [Except.map]

theorem mapError_eq_ok_iff {x : Except ε α} {f : ε → δ} {a : α} : x.mapError f = .ok a ↔ x = .ok a := by
  cases x <;> simp [Except.mapError]

theorem map_eq_error_iff {x : Except ε α} {f : α → β} {e : ε} : x.map f = .error e ↔ x = .error e := by
  cases x <;> simp [Except.map]

theorem mapError_eq_error_iff {x : Except ε α} {f : ε → δ} {e : δ} :
    x.mapError f = .error e ↔ ∃ d, x = .error d ∧ f d = e := by
  cases x <;> simp [Except.mapError]

/-- The error that a computation fails with, if it fails. -/
def fault? : Except ε α → Option ε
  | .ok _ => none
  | .error e => some e

theorem fault?_eq_none_iff {x : Except ε α} : fault? x = none ↔ ∃ a, x = .ok a := by
  cases x <;> simp [fault?]

theorem fault?_eq_some_iff {x : Except ε α} {e : ε} : fault? x = some e ↔ x = .error e := by
  cases x <;> simp [fault?]

theorem fault?_map (f : α → β) (x : Except ε α) : fault? (x.map f) = fault? x := by
  cases x <;> rfl

theorem fault?_mapError (f : ε → δ) (x : Except ε α) : fault? (x.mapError f) = (fault? x).map f := by
  cases x <;> rfl

/-- A traversal fails with the error of the first element that fails. -/
theorem fault?_mapM (f : α → Except ε β) (as : List α) : fault? (as.mapM f) = as.findSome? fun a => fault? (f a) := by
  induction as with
  | nil => rfl
  | cons a as ih =>
    rw [List.mapM_cons, List.findSome?_cons, ← ih]
    cases f a with
    | error e => rfl
    | ok b => cases as.mapM f <;> rfl

/-- Looking through lists one after the other, for the first find. -/
theorem findSome?_flatMap {f : α → List β} {g : β → Option δ} {h : α → Option δ} {as : List α}
    (hfg : ∀ a ∈ as, (f a).findSome? g = h a) : (as.flatMap f).findSome? g = as.findSome? h := by
  induction as with
  | nil => rfl
  | cons a as ih =>
    rw [List.flatMap_cons, List.findSome?_append, hfg a (by simp), ih fun b hb => hfg b (by simp [hb]),
      List.findSome?_cons]
    cases h a <;> rfl

theorem exists_mapM_iff {f : α → Except ε β} {as : List α} :
    (∃ bs, as.mapM f = .ok bs) ↔ ∀ a ∈ as, ∃ b, f a = .ok b := by
  simp only [← fault?_eq_none_iff, fault?_mapM, List.findSome?_eq_none_iff]

theorem exists_of_mapM_eq_error {f : α → Except ε β} {as : List α} {e : ε} (h : as.mapM f = .error e) :
    ∃ a ∈ as, f a = .error e := by
  rw [← fault?_eq_some_iff, fault?_mapM] at h
  obtain ⟨a, ha, hfault⟩ := List.exists_of_findSome?_eq_some h
  exact ⟨a, ha, fault?_eq_some_iff.1 hfault⟩

theorem mapM_eq_ok_iff {f : α → Except ε β} {as : List α} {bs : List β} :
    as.mapM f = .ok bs ↔ List.Forall₂ (fun a b => f a = .ok b) as bs := by
  induction as generalizing bs with
  | nil =>
    rw [List.mapM_nil, List.forall₂_nil_left_iff, pure_eq_ok_iff, eq_comm]
  | cons a as ih =>
    rw [List.mapM_cons, bind_eq_ok_iff, List.forall₂_cons_left_iff]
    constructor
    · rintro ⟨b, hb, h⟩
      obtain ⟨rest, hrest, h⟩ := bind_eq_ok_iff.1 h
      obtain rfl := pure_eq_ok_iff.1 h
      exact ⟨b, rest, hb, ih.1 hrest, rfl⟩
    · rintro ⟨b, rest, hb, hrest, rfl⟩
      exact ⟨b, hb, bind_eq_ok_iff.2 ⟨rest, ih.2 hrest, rfl⟩⟩

/-- What a fold results in.  The property may speak of the elements that have been gone through. -/
theorem foldlM_induction {f : β → α → Except ε β} {motive : List α → β → Prop} {start result : β} {as : List α}
    (h : as.foldlM f start = .ok result) (nil : motive [] start)
    (snoc : ∀ done a b c, motive done b → f b a = .ok c → motive (done ++ [a]) c) : motive as result := by
  suffices general : ∀ done b, motive done b → as.foldlM f b = .ok result → motive (done ++ as) result from
    general [] start nil h
  clear h nil
  -- the elements that are left get fewer, and those gone through may be any
  induction as with
  | nil =>
    intro done b hb h
    obtain rfl := Except.ok.inj h
    rwa [List.append_nil]
  | cons a as ih =>
    intro done b hb h
    rw [List.foldlM_cons] at h
    obtain ⟨c, hc, h⟩ := bind_eq_ok_iff.1 h
    rw [List.append_cons]
    exact ih (done ++ [a]) c (snoc done a b c hb hc) h

/-- A fold fails because one of its steps does. -/
theorem exists_of_foldlM_eq_error {f : β → α → Except ε β} {start : β} {as : List α} {e : ε}
    (h : as.foldlM f start = .error e) : ∃ b a, f b a = .error e := by
  induction as generalizing start with
  | nil => exact absurd h (by simp [pure, Except.pure])
  | cons a as ih =>
    rw [List.foldlM_cons, bind_eq_error_iff] at h
    rcases h with h | ⟨b, -, h⟩
    · exact ⟨start, a, h⟩
    · exact ih h

/-- When a fold succeeds, if the elements before the last one determine whether that can be taken in. -/
theorem exists_foldlM_concat_iff {f : β → α → Except ε β} {start : β} {as : List α} {a : α} {fits : Prop}
    (h : ∀ b, as.foldlM f start = .ok b → ((∃ result, f b a = .ok result) ↔ fits)) :
    (∃ result, (as ++ [a]).foldlM f start = .ok result) ↔ (∃ b, as.foldlM f start = .ok b) ∧ fits := by
  simp only [List.foldlM_append, bind_eq_ok_iff, List.foldlM_cons, List.foldlM_nil, pure_eq_ok_iff, exists_eq_right]
  constructor
  · rintro ⟨result, b, hb, hresult⟩
    exact ⟨⟨b, hb⟩, (h b hb).1 ⟨result, hresult⟩⟩
  · rintro ⟨⟨b, hb⟩, hfits⟩
    obtain ⟨result, hresult⟩ := (h b hb).2 hfits
    exact ⟨result, b, hb, hresult⟩

/-! ### Lists related element by element -/

theorem forall₂_of_forall_mem {r s : α → β → Prop} {as : List α} {bs : List β} (h : List.Forall₂ r as bs)
    (himp : ∀ a ∈ as, ∀ b, r a b → s a b) : List.Forall₂ s as bs := by
  have both : List.Forall₂ (fun a b => (∀ b, r a b → s a b) ∧ r a b) as bs := (List.forall₂_and_left as bs).2 ⟨himp, h⟩
  exact both.imp fun a b hab => hab.1 b hab.2

/-- Lists that are related to the same list are related to each other. -/
theorem forall₂_of_common {γ : Type} {r : α → β → Prop} {s : α → γ → Prop} {t : β → γ → Prop} {as : List α}
    {bs : List β} {cs : List γ} (hr : List.Forall₂ r as bs) (hs : List.Forall₂ s as cs)
    (himp : ∀ a b c, r a b → s a c → t b c) : List.Forall₂ t bs cs := by
  induction hr generalizing cs with
  | nil =>
    rw [List.forall₂_nil_left_iff.1 hs]
    exact .nil
  | cons hab _ ih =>
    obtain ⟨c, rest, hac, hrest, rfl⟩ := List.forall₂_cons_left_iff.1 hs
    exact .cons (himp _ _ _ hab hac) (ih hrest)

theorem forall_mem_of_forall₂ {p : β → Prop} {as : List α} {bs : List β}
    (h : List.Forall₂ (fun _ b => p b) as bs) : ∀ b ∈ bs, p b := by
  induction h with
  | nil => simp
  | cons hb _ ih => exact List.forall_mem_cons.2 ⟨hb, ih⟩

theorem exists_mem_of_forall₂ {r : α → β → Prop} {as : List α} {bs : List β} (h : List.Forall₂ r as bs) :
    ∀ b ∈ bs, ∃ a ∈ as, r a b :=
  forall_mem_of_forall₂ (forall₂_of_forall_mem h fun a ha _ hab => ⟨a, ha, hab⟩)

theorem exists_mem_iff_of_forall₂ {p : α → Prop} {q : β → Prop} {as : List α} {bs : List β}
    (h : List.Forall₂ (fun a b => q b ↔ p a) as bs) : (∃ b ∈ bs, q b) ↔ ∃ a ∈ as, p a := by
  induction h with
  | nil => simp
  | cons hb _ ih => simp only [List.mem_cons, exists_eq_or_imp, hb, ih]

theorem forall_mem_iff_of_forall₂ {p : α → Prop} {q : β → Prop} {as : List α} {bs : List β}
    (h : List.Forall₂ (fun a b => q b ↔ p a) as bs) : (∀ b ∈ bs, q b) ↔ ∀ a ∈ as, p a := by
  induction h with
  | nil => simp
  | cons hb _ ih => simp only [List.forall_mem_cons, hb, ih]

end PolyDeriv
