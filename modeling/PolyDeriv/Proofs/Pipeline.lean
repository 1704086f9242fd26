import PolyDeriv.Evaluation
import PolyDeriv.Proofs.Derivative
import PolyDeriv.Proofs.RoundTrip
import PolyDeriv.Proofs.WellFormedness

/-!
# Derivatives through text

A derivative can be printed, read back and simplified, or simplified at once.  It comes to the same
(`simplifiedDerivativeText_through_text`), but for one thing: a power of the variable becomes a multiple of a power,
which nests one level deeper.

* Powers stand in a polynomial at the levels at which their lists stand in its text (`Poly.monomialAt_iff_powerAt`).
* The derivative stays within a depth if the polynomial does and no power stands at the deepest level
  (`Poly.depth_derivative_le_iff`).
-/

namespace PolyDeriv

/-! ### Levels of nesting -/

namespace SExpr

/-- A list stands at a level of nesting in an expression: at the first, if it is the whole expression. -/
inductive ListAt : Nat → SExpr → SExpr → Prop
  | whole (items : List SExpr) : ListAt 1 (.list items) (.list items)
  | item {n : Nat} {e l : SExpr} {items : List SExpr} : e ∈ items → ListAt n e l → ListAt (n + 1) (.list items) l

/-- A list that stands for a power stands at a level of nesting. -/
def MonomialAt (n : Nat) (e : SExpr) : Prop :=
  ∃ l, ListAt n e l ∧ ∃ symbol exponent, Denotes l (.monomial symbol exponent)

@[simp] theorem not_monomialAt_atom (n : Nat) (text : String) : ¬ MonomialAt n (.atom text) := by
  rintro ⟨l, h, -⟩
  cases h

private theorem monomialAt_list_iff {n : Nat} {items : List SExpr} : MonomialAt n (.list items) ↔
    (n = 1 ∧ ∃ symbol exponent, Denotes (.list items) (.monomial symbol exponent)) ∨
      ∃ e ∈ items, ∃ k, MonomialAt k e ∧ k + 1 = n := by
  constructor
  · rintro ⟨l, h, denotes⟩
    cases h with
    | whole => exact .inl ⟨rfl, denotes⟩
    | item he h => exact .inr ⟨_, he, _, ⟨l, h, denotes⟩, rfl⟩
  · rintro (⟨rfl, denotes⟩ | ⟨e, he, k, ⟨l, h, denotes⟩, rfl⟩)
    · exact ⟨_, .whole items, denotes⟩
    · exact ⟨l, .item he h, denotes⟩

end SExpr

namespace Poly

/-- A power stands at a level of nesting in an expression. -/
inductive PowerAt : Nat → Poly → Prop
  | monomial (symbol : String) (exponent : Int64) : PowerAt 1 (.monomial symbol exponent)
  | product {n : Nat} {p : Poly} (coefficient : Int64) : PowerAt n p → PowerAt (n + 1) (.product coefficient p)
  | sum {n : Nat} {p : Poly} {terms : List Poly} : p ∈ terms → PowerAt n p → PowerAt (n + 1) (.sum terms)

variable {n : Nat} {p : Poly}

@[simp] theorem not_powerAt_constant (c : Int64) : ¬ PowerAt n (.constant c) := nofun

private theorem powerAt_monomial_iff {s : String} {k : Int64} : PowerAt n (.monomial s k) ↔ n = 1 := by
  constructor
  · intro h
    cases h with
    | monomial => rfl
  · rintro rfl
    exact .monomial s k

private theorem powerAt_product_iff {c : Int64} : PowerAt n (.product c p) ↔ ∃ k, PowerAt k p ∧ k + 1 = n := by
  constructor
  · intro h
    cases h with
    | product _ hp => exact ⟨_, hp, rfl⟩
  · rintro ⟨k, hp, rfl⟩
    exact .product c hp

private theorem powerAt_sum_iff {terms : List Poly} :
    PowerAt n (.sum terms) ↔ ∃ p ∈ terms, ∃ k, PowerAt k p ∧ k + 1 = n := by
  constructor
  · intro h
    cases h with
    | sum hmem hp => exact ⟨_, hmem, _, hp, rfl⟩
  · rintro ⟨p, hmem, k, hp, rfl⟩
    exact .sum hmem hp

private theorem not_denotes_monomial {head : String} {items : List SExpr} (hhead : ¬ (head = "^" ∨ head = "mon")) :
    ¬ ∃ symbol exponent, Denotes (.list (.atom head :: items)) (.monomial symbol exponent) := by
  rintro ⟨symbol, exponent, h⟩
  cases h with
  | monomial hpower => exact hhead hpower

/-- Lists of powers become powers at the same levels. -/
theorem monomialAt_iff_powerAt {e : SExpr} (h : Denotes e p) (n : Nat) : e.MonomialAt n ↔ p.PowerAt n := by
  refine denotes_induction (motive := fun e p => ∀ n, e.MonomialAt n ↔ p.PowerAt n) ?_ ?_ ?_ ?_ h n
  · intro text c _ n
    exact iff_of_false (SExpr.not_monomialAt_atom n text) (not_powerAt_constant c)
  · intro head symbol text k hhead hsymbol spelt n
    have denotes : ∃ s e, Denotes (.list [.atom head, .atom symbol, .atom text]) (.monomial s e) :=
      ⟨symbol, k, .monomial hhead hsymbol spelt⟩
    simp [SExpr.monomialAt_list_iff, powerAt_monomial_iff, denotes]
  · intro head text c e p hhead _ ih n
    have other : ¬ (head = "^" ∨ head = "mon") := by
      rcases hhead with rfl | rfl <;> decide
    simp [SExpr.monomialAt_list_iff, powerAt_product_iff, not_denotes_monomial other, ih]
  · intro head items terms hhead _ ih n
    have other : ¬ (head = "^" ∨ head = "mon") := by
      rcases hhead with rfl | rfl <;> decide
    have same_levels : (∃ e ∈ items, ∃ k, e.MonomialAt k ∧ k + 1 = n) ↔ ∃ p ∈ terms, ∃ k, p.PowerAt k ∧ k + 1 = n :=
      (exists_mem_iff_of_forall₂ (ih.imp fun e p same => exists_congr fun k => and_congr_left' (same k).symm)).symm
    simp [SExpr.monomialAt_list_iff, powerAt_sum_iff, not_denotes_monomial other, same_levels]

theorem PowerAt.le_depth (h : p.PowerAt n) : n ≤ p.depth := by
  induction h with
  | monomial => exact Nat.le_refl 1
  | product _ _ ih => exact Nat.succ_le_succ ih
  | sum hmem _ ih => exact Nat.succ_le_succ (Nat.le_trans ih (depth_le_depthOfTerms hmem))

private theorem forall_powerAt_product_iff {m : Nat} {c : Int64} :
    (∀ n, PowerAt n (.product c p) → n < m + 1) ↔ ∀ n, p.PowerAt n → n < m := by
  constructor
  · intro h n hn
    exact Nat.lt_of_succ_lt_succ (h (n + 1) (.product c hn))
  · intro h n hn
    obtain ⟨k, hk, rfl⟩ := powerAt_product_iff.1 hn
    exact Nat.succ_lt_succ (h k hk)

private theorem forall_powerAt_sum_iff {m : Nat} {terms : List Poly} :
    (∀ n, PowerAt n (.sum terms) → n < m + 1) ↔ ∀ p ∈ terms, ∀ n, p.PowerAt n → n < m := by
  constructor
  · intro h p hp n hn
    exact Nat.lt_of_succ_lt_succ (h (n + 1) (.sum hp hn))
  · intro h n hn
    obtain ⟨p, hp, k, hk, rfl⟩ := powerAt_sum_iff.1 hn
    exact Nat.succ_lt_succ (h p hp k hk)

private theorem depth_multiple_le_iff (c : Int64) (s : String) (lowered e : Int64) (m : Nat) :
    (product c (.monomial s lowered)).depth ≤ m ↔
      (monomial s e).depth ≤ m ∧ ∀ n, PowerAt n (.monomial s e) → n < m := by
  simp only [depth, powerAt_monomial_iff, forall_eq]
  omega

/-- A derivative nests as deep as its expression, and one level deeper than the powers of the expression. -/
theorem depth_derivative_le_iff {v : String} {d : Poly} (h : p.derivative v = .ok d) (m : Nat) :
    d.depth ≤ m ↔ p.depth ≤ m ∧ ∀ n, p.PowerAt n → n < m := by
  refine derivative_induction (motive := fun p d => ∀ m, d.depth ≤ m ↔ p.depth ≤ m ∧ ∀ n, p.PowerAt n → n < m)
    ?_ ?_ ?_ ?_ ?_ h m
  · intro c m
    simp [zero, depth]
  · -- only here does the derivative nest deeper: a power becomes a multiple of a power
    exact depth_multiple_le_iff 0 v 0 0
  · intro e lowered _ _
    exact depth_multiple_le_iff e v lowered e
  · intro c p d ih m
    cases m with
    | zero => simp [depth]
    | succ m => rw [depth, depth, Nat.succ_le_succ_iff, Nat.succ_le_succ_iff, ih, forall_powerAt_product_iff]
  · intro ps ds ih m
    cases m with
    | zero => simp [depth]
    | succ m =>
      have terms_depth : (∀ d ∈ ds, d.depth ≤ m) ↔ ∀ p ∈ ps, p.depth ≤ m ∧ ∀ n, p.PowerAt n → n < m :=
        forall_mem_iff_of_forall₂ (ih.imp fun p d hpd => hpd m)
      rw [depth, depth, Nat.succ_le_succ_iff, Nat.succ_le_succ_iff, depthOfTerms_le_iff, depthOfTerms_le_iff,
        forall_powerAt_sum_iff, terms_depth, ← forall₂_and]

private theorem depth_derivative_le_maxDepth_iff {v : String} {d : Poly} (h : p.derivative v = .ok d)
    (shallow : p.depth ≤ maxDepth) : d.depth ≤ maxDepth ↔ ¬ p.PowerAt maxDepth := by
  rw [depth_derivative_le_iff h, and_iff_right shallow]
  constructor
  · intro below at_deepest
    exact Nat.lt_irrefl maxDepth (below maxDepth at_deepest)
  · intro none_deepest n hn
    have at_most : n ≤ maxDepth := Nat.le_trans hn.le_depth shallow
    have ne_deepest : n ≠ maxDepth := by
      rintro rfl
      exact none_deepest hn
    omega

end Poly

/-! ### Derivatives of texts -/

/-- A list that stands for a power stands in a text at a level of nesting. -/
def MonomialAtLevel (n : Nat) (text : String) : Prop := ∃ e, SExpr.read text = .ok e ∧ e.MonomialAt n

section

variable {v text s : String} {p d : Poly}

private theorem monomialAtLevel_iff_powerAt (h : Poly.read text = .ok p) (n : Nat) :
    MonomialAtLevel n text ↔ p.PowerAt n := by
  obtain ⟨e, he, denotes⟩ := Poly.read_eq_ok_iff.1 h
  rw [MonomialAtLevel, he, ← Poly.monomialAt_iff_powerAt denotes]
  simp

theorem derivativeText_eq_ok_iff : derivativeText v text = .ok s ↔
    ∃ p, Poly.read text = .ok p ∧ ∃ d, p.derivative v = .ok d ∧ d.render = s := by
  simp only [derivativeText, bind_eq_ok_iff, pure_eq_ok_iff]

theorem simplifiedText_eq_ok_iff : simplifiedText text = .ok s ↔
    ∃ p, Poly.read text = .ok p ∧ ∃ q, p.simplify = .ok q ∧ q.render = s := by
  simp only [simplifiedText, bind_eq_ok_iff, pure_eq_ok_iff]

theorem simplifiedDerivativeText_eq_ok_iff : simplifiedDerivativeText v text = .ok s ↔
    ∃ p, Poly.read text = .ok p ∧ ∃ d, p.derivative v = .ok d ∧ ∃ q, d.simplify = .ok q ∧ q.render = s := by
  simp only [simplifiedDerivativeText, bind_eq_ok_iff, pure_eq_ok_iff]

/-- Reading, differentiating and simplifying may fail; printing does not. -/
theorem simplifiedDerivativeText_eq_error_iff {e : Error} : simplifiedDerivativeText v text = .error e ↔
    Poly.read text = .error e ∨ ∃ p, Poly.read text = .ok p ∧
      (p.derivative v = .error e ∨ ∃ d, p.derivative v = .ok d ∧ d.simplify = .error e) := by
  simp only [simplifiedDerivativeText, bind_eq_error_iff, pure, Except.pure, reduceCtorEq, and_false, exists_false,
    or_false]

theorem simplifiedDerivativeText_of_error {e : Error} (h : derivativeText v text = .error e) :
    simplifiedDerivativeText v text = .error e := by
  simp only [derivativeText, bind_eq_error_iff] at h
  rw [simplifiedDerivativeText_eq_error_iff]
  rcases h with hread | ⟨p, hp, hderivative | ⟨d, -, hprint⟩⟩
  · exact .inl hread
  · exact .inr ⟨p, hp, .inl hderivative⟩
  · exact absurd hprint (by simp [pure, Except.pure])

theorem simplifiedText_of_read (hp : Poly.read text = .ok p) (hd : p.derivative v = .ok d)
    (hs : Poly.read s = .ok d) : simplifiedText s = simplifiedDerivativeText v text := by
  rw [simplifiedText, simplifiedDerivativeText, hs, hp]
  show _ = (p.derivative v >>= fun d => d.simplify >>= fun q => pure q.render)
  rw [hd]

theorem simplifiedText_of_error {e : Error} (h : Poly.read text = .error e) : simplifiedText text = .error e := by
  rw [simplifiedText, h]
  rfl

/-- Of the errors that a simplified derivative can have, only overflow comes from simplifying it. -/
theorem simplifiedDerivativeText_error_cases {e : Error} (hp : Poly.read text = .ok p)
    (h : simplifiedDerivativeText v text = .error e) :
    (∃ computation, e = .overflow computation) ∨ p.derivative v = .error e := by
  simp only [simplifiedDerivativeText_eq_error_iff, hp, reduceCtorEq, false_or, Except.ok.injEq, exists_eq_left'] at h
  rcases h with hderivative | ⟨d, hd, hsimplify⟩
  · exact .inr hderivative
  · have derivative_checked := Poly.check_derivative hd (Poly.check_depth_of_read hp).1
    exact .inl (Poly.simplify_eq_error (Poly.isSymbol_of_check derivative_checked) hsimplify)

private theorem simplifiedDerivativeText_ne_parse (hp : Poly.read text = .ok p) (hd : p.derivative v = .ok d)
    (fault : ParseFault) : simplifiedDerivativeText v text ≠ .error (.parse fault) := by
  intro h
  rcases simplifiedDerivativeText_error_cases hp h with ⟨computation, hoverflow⟩ | hderivative
  · exact absurd hoverflow (by simp)
  · exact absurd (hd.symm.trans hderivative) (by simp)

end

/-- What has no derivative has no simplified derivative, for the same reason.  A derivative that is printed can be read
back and simplified, with the same result as without printing it, unless a power of the polynomial stands at level 256:
then it is nested too deeply to be read, which the polynomial was not. -/
theorem simplifiedDerivativeText_through_text (v text : String) :
    (∀ e, derivativeText v text = .error e → simplifiedDerivativeText v text = .error e) ∧
    ∀ s, derivativeText v text = .ok s →
      (¬ MonomialAtLevel 256 text →
        (∃ p d, Poly.read text = .ok p ∧ p.derivative v = .ok d ∧ Poly.read s = .ok d) ∧
          simplifiedText s = simplifiedDerivativeText v text) ∧
      (MonomialAtLevel 256 text →
        Poly.read s = .error (.parse .tooDeep) ∧ simplifiedText s = .error (.parse .tooDeep) ∧
          ∀ fault, simplifiedDerivativeText v text ≠ .error (.parse fault)) := by
  refine ⟨fun e => simplifiedDerivativeText_of_error, fun s h => ?_⟩
  obtain ⟨p, hp, d, hd, rfl⟩ := derivativeText_eq_ok_iff.1 h
  obtain ⟨checked, shallow⟩ := Poly.check_depth_of_read hp
  have derivative_checked := Poly.check_derivative hd checked
  have readable_iff := Poly.depth_derivative_le_maxDepth_iff hd shallow
  have level_iff : MonomialAtLevel 256 text ↔ p.PowerAt maxDepth := monomialAtLevel_iff_powerAt hp 256
  rw [level_iff]
  constructor
  · intro none_deepest
    have read_back := Poly.read_render derivative_checked (readable_iff.2 none_deepest)
    exact ⟨⟨p, d, hp, hd, read_back⟩, simplifiedText_of_read hp hd read_back⟩
  · intro at_deepest
    have deep : maxDepth < d.depth := by
      rw [← Nat.not_le, readable_iff]
      exact not_not_intro at_deepest
    have refused := Poly.read_render_tooDeep derivative_checked deep
    exact ⟨refused, simplifiedText_of_error refused, simplifiedDerivativeText_ne_parse hp hd⟩

/-- The square of a variable in multiples by one, `n` of them. -/
def wrappedSquare (n : Nat) : Poly := (List.replicate n 1).foldr .product (.monomial "x" 2)

theorem powerAt_wrappedSquare_iff (n k : Nat) : (wrappedSquare n).PowerAt k ↔ k = n + 1 := by
  induction n generalizing k with
  | zero => exact Poly.powerAt_monomial_iff
  | succ n ih =>
    rw [wrappedSquare, List.replicate_succ, List.foldr_cons, Poly.powerAt_product_iff]
    simp only [← wrappedSquare.eq_def, ih, exists_eq_left, eq_comm]

private theorem check_wrappedSquare (n : Nat) : (wrappedSquare n).check = .ok () := by
  induction n with
  | zero => decide +kernel
  | succ n ih => exact ih

theorem depth_wrappedSquare (n : Nat) : (wrappedSquare n).depth = n + 1 := by
  induction n with
  | zero => rfl
  | succ n ih => exact congrArg (· + 1) ih

private theorem powers_wrappedSquare (n : Nat) : (wrappedSquare n).powers = [⟨"x", 2⟩] := by
  induction n with
  | zero => rfl
  | succ n ih => exact ih

theorem read_wrappedSquare {n : Nat} (h : n ≤ 255) : Poly.read (wrappedSquare n).render = .ok (wrappedSquare n) := by
  have shallow : (wrappedSquare n).depth ≤ maxDepth := by
    rw [depth_wrappedSquare]
    exact Nat.succ_le_succ h
  exact Poly.read_render (check_wrappedSquare n) shallow

theorem exists_derivativeText_wrappedSquare {n : Nat} (h : n ≤ 255) :
    ∃ s, derivativeText "x" (wrappedSquare n).render = .ok s := by
  obtain ⟨d, hd⟩ : ∃ d, (wrappedSquare n).derivative "x" = .ok d := by
    rw [Poly.exists_derivative_iff, powers_wrappedSquare]
    decide
  exact ⟨d.render, derivativeText_eq_ok_iff.2 ⟨_, read_wrappedSquare h, d, hd, rfl⟩⟩

/-- The derivative can be read back from a square in 254 multiples, but not from one in 255. -/
theorem simplifiedDerivativeText_through_text_wrapped :
    (∃ s, derivativeText "x" (wrappedSquare 254).render = .ok s ∧ ¬ MonomialAtLevel 256 (wrappedSquare 254).render ∧
      simplifiedText s = simplifiedDerivativeText "x" (wrappedSquare 254).render) ∧
    ∃ s, derivativeText "x" (wrappedSquare 255).render = .ok s ∧ MonomialAtLevel 256 (wrappedSquare 255).render ∧
      Poly.read s = .error (.parse .tooDeep) ∧ simplifiedText s = .error (.parse .tooDeep) ∧
        ∀ fault, simplifiedDerivativeText "x" (wrappedSquare 255).render ≠ .error (.parse fault) := by
  have level_iff : ∀ n, n ≤ 255 → (MonomialAtLevel 256 (wrappedSquare n).render ↔ 256 = n + 1) := by
    intro n hn
    rw [monomialAtLevel_iff_powerAt (read_wrappedSquare hn), powerAt_wrappedSquare_iff]
  constructor
  · obtain ⟨s, hs⟩ := exists_derivativeText_wrappedSquare (n := 254) (by decide)
    have none_deepest : ¬ MonomialAtLevel 256 (wrappedSquare 254).render := by
      rw [level_iff 254 (by decide)]
      decide
    exact ⟨s, hs, none_deepest, (((simplifiedDerivativeText_through_text "x" _).2 s hs).1 none_deepest).2⟩
  · obtain ⟨s, hs⟩ := exists_derivativeText_wrappedSquare (n := 255) (by decide)
    have at_deepest : MonomialAtLevel 256 (wrappedSquare 255).render := (level_iff 255 (by decide)).2 rfl
    exact ⟨s, hs, at_deepest, ((simplifiedDerivativeText_through_text "x" _).2 s hs).2 at_deepest⟩

end PolyDeriv
