import PolyDeriv.Proofs.SimplifiedText

/-!
# Depth of expressions

A text is read only if it nests at most 256 deep, and what is made of it later stays close to that
(`depth_of_everything_built`).

* An expression is as deep as the S-expression it stands for.
* The derivative is at most one level deeper than the expression (`Poly.depth_derivative_le`), and so is what
  distribution makes of an expression (`Poly.depth_distribute_le`).
* The two do not add up.  In a derivative every power is the operand of a multiple (`Poly.covered_derivative`), and
  distribution makes nothing of that kind deeper.
-/

namespace PolyDeriv

namespace SExpr

/-- An expression is another one, or an item in one of its lists. -/
inductive Contains : SExpr → SExpr → Prop
  | whole (e : SExpr) : Contains e e
  | item {e f : SExpr} {items : List SExpr} : e ∈ items → Contains e f → Contains (.list items) f

private theorem Contains.depth_le {e f : SExpr} (h : e.Contains f) : f.depth ≤ e.depth := by
  induction h with
  | whole e => exact Nat.le_refl _
  | item hmem _ ih =>
    rw [depth]
    exact Nat.le_succ_of_le (Nat.le_trans ih (depthOfItems_le_iff.1 (Nat.le_refl _) _ hmem))

end SExpr

namespace Poly

/-- Every power in an expression is the operand of a multiple. -/
inductive Covered : Poly → Prop
  | constant (c : Int64) : Covered (.constant c)
  | multiple (c : Int64) (s : String) (e : Int64) : Covered (.product c (.monomial s e))
  | product {p : Poly} (c : Int64) : Covered p → Covered (.product c p)
  | sum {terms : List Poly} : (∀ p ∈ terms, Covered p) → Covered (.sum terms)

variable {p q d : Poly}

private theorem Covered.of_mem {terms : List Poly} (h : Covered (.sum terms)) : ∀ p ∈ terms, p.Covered := by
  cases h with
  | sum hterms => exact hterms

/-! ### Depths after each step -/

private theorem depth_lt_of_mem_parts (h : q ∈ p.parts) : q.depth < p.depth := by
  induction p with
  | constant c => exact absurd h (by simp [parts])
  | monomial s e => exact absurd h (by simp [parts])
  | product c p ih =>
    rw [depth, Nat.lt_succ_iff]
    rcases List.mem_cons.1 (show q ∈ p :: p.parts by rwa [parts] at h) with rfl | h
    · exact Nat.le_refl _
    · exact Nat.le_of_lt (ih h)
  | sum terms ih =>
    obtain ⟨t, ht, hq⟩ := mem_parts_sum.1 h
    have term_depth := depth_le_depthOfTerms ht
    rw [depth, Nat.lt_succ_iff]
    rcases hq with rfl | hq
    · exact term_depth
    · exact Nat.le_trans (Nat.le_of_lt (ih t ht hq)) term_depth

private theorem depth_le_of_mem (h : q ∈ p :: p.parts) : q.depth ≤ p.depth := by
  rcases List.mem_cons.1 h with rfl | h
  · exact Nat.le_refl _
  · exact Nat.le_of_lt (depth_lt_of_mem_parts h)

/-- Terms that are deeper than others by at most `k`, one by one, make a sum that is. -/
private theorem depthOfTerms_le_of_forall₂ {k : Nat} {ps qs : List Poly}
    (h : List.Forall₂ (fun p q => q.depth ≤ p.depth + k) ps qs) : depthOfTerms qs ≤ depthOfTerms ps + k := by
  rw [depthOfTerms_le_iff]
  intro q hq
  obtain ⟨p, hp, hpq⟩ := exists_mem_of_forall₂ h q hq
  have term_depth := depth_le_depthOfTerms hp
  omega

theorem depth_derivative_le {v : String} (h : p.derivative v = .ok d) : d.depth ≤ p.depth + 1 :=
  (depth_derivative_le_iff h (p.depth + 1)).2
    ⟨Nat.le_succ _, fun _ hn => Nat.lt_succ_of_le hn.le_depth⟩

theorem covered_derivative {v : String} (h : p.derivative v = .ok d) : d.Covered := by
  refine derivative_induction (motive := fun _ d => d.Covered) ?_ ?_ ?_ ?_ ?_ h
  · intro c
    exact .constant 0
  · exact .multiple 0 v 0
  · intro e lowered _ _
    exact .multiple e v lowered
  · intro c p d ih
    exact .product c ih
  · intro ps ds ih
    exact .sum (forall_mem_of_forall₂ ih)

/-- Distribution makes an expression deeper by one level at most, and only at powers that are not covered. -/
theorem depth_distribute_le {m : Int64} (h : p.distribute m = .ok q) :
    q.depth ≤ p.depth + 1 ∧ (p.Covered → q.depth ≤ p.depth) := by
  refine distribute_induction (motive := fun _ p q => q.depth ≤ p.depth + 1 ∧ (p.Covered → q.depth ≤ p.depth))
    ?_ ?_ ?_ ?_ ?_ h
  · intro p
    exact ⟨Nat.zero_le _, fun _ => Nat.zero_le _⟩
  · intro m c k _ _
    exact ⟨Nat.zero_le _, fun _ => Nat.zero_le _⟩
  · intro m s e _
    exact ⟨Nat.le_refl 2, nofun⟩
  · -- the multiple itself goes, which makes up for the new one in front of a power
    intro m c k p q _ _ ih
    exact ⟨Nat.le_succ_of_le ih.1, fun _ => ih.1⟩
  · intro m ps qs _ ih
    refine ⟨Nat.succ_le_succ (depthOfTerms_le_of_forall₂ (ih.imp fun p q hpq => hpq.1)), fun covered => ?_⟩
    have shallow : List.Forall₂ (fun p q => q.depth ≤ p.depth + 0) ps qs :=
      forall₂_of_forall_mem ih fun p hp q hpq => hpq.2 (covered.of_mem p hp)
    exact Nat.succ_le_succ (depthOfTerms_le_of_forall₂ shallow)

theorem Scaled.depth_le_two (h : q.Scaled) : q.depth ≤ 2 := by
  cases h with
  | constant c => exact Nat.zero_le 2
  | multiple s e _ => exact Nat.le_refl 2

private theorem depth_scale_le_two (c : Int64) (r : Power) : (r.scale c).depth ≤ 2 := by
  unfold Power.scale
  split
  · exact Nat.le_succ 1
  · exact Nat.le_refl 2

private theorem depth_of_mem_multiples {tally : Tally} (h : q ∈ tally.multiples) : q.depth ≤ 2 := by
  obtain ⟨entry, -, rfl⟩ := List.mem_map.1 h
  exact depth_scale_le_two entry.2 entry.1

private theorem depth_of_mem_combine {terms : List Poly} (hd : p.distribute 1 = .ok d)
    (h : combine d.summands = .ok terms) (hq : q ∈ terms) : q.depth ≤ 2 := by
  obtain ⟨tally, constant, -, -, rfl⟩ := combine_eq_ok_iff.1 h
  rw [filter_isCompound_summands hd, List.nil_append] at hq
  rcases List.mem_append.1 hq with hq | hq
  · exact depth_of_mem_multiples hq
  · obtain rfl := List.mem_singleton.1 hq
    exact Nat.zero_le 2

end Poly

/-! ### Everything that is built -/

/-- What is simplified: the polynomial that a text stands for, or its derivative. -/
inductive Simplifies (v text : String) : Poly → Prop
  | read {p : Poly} : Poly.read text = .ok p → Simplifies v text p
  | derivative {p d : Poly} : Poly.read text = .ok p → p.derivative v = .ok d → Simplifies v text d

/-- What is built on the way from a text to its derivative, its simplified form or its simplified derivative, also if
nothing comes of it in the end.  Every step goes through the parts of an expression one by one. -/
inductive Built (v text : String) : Poly → Prop
  | read {e f : SExpr} {p : Poly} : SExpr.read text = .ok e → e.Contains f → Poly.ofSExpr f = .ok p → Built v text p
  | derivative {p r d : Poly} : Poly.read text = .ok p → r ∈ p :: p.parts → r.derivative v = .ok d → Built v text d
  | distributed {p r q : Poly} {m : Int64} : Simplifies v text p → r ∈ p :: p.parts → r.distribute m = .ok q →
      Built v text q
  | summand {p d t : Poly} : Simplifies v text p → p.distribute 1 = .ok d → t ∈ d.summands → Built v text t
  | multiple {p d t : Poly} {tally : Tally} : Simplifies v text p → p.distribute 1 = .ok d →
      d.summands.foldlM Tally.addTerm .empty = .ok tally → t ∈ tally.multiples → Built v text t
  | combined {p d t : Poly} {terms : List Poly} : Simplifies v text p → p.distribute 1 = .ok d →
      Poly.combine d.summands = .ok terms → t ∈ terms → Built v text t
  | simplified {p q : Poly} : Simplifies v text p → p.simplify = .ok q → Built v text q

section

variable {v text : String} {e : SExpr} {p q d : Poly}

theorem depth_of_read (h : SExpr.read text = .ok e) : e.depth ≤ 256 := (SExpr.read_eq_ok_iff.1 h).2.shallow

/-- A polynomial that is to be simplified is at most 256 deep, or it is 257 deep and all its powers are covered. -/
theorem Simplifies.depth_le (h : Simplifies v text p) : p.depth ≤ 256 ∨ p.depth ≤ 257 ∧ p.Covered := by
  cases h with
  | read hp => exact .inl (Poly.check_depth_of_read hp).2
  | derivative hr hp =>
    have shallow := (Poly.check_depth_of_read hr).2
    exact .inr ⟨Nat.le_trans (Poly.depth_derivative_le hp) (Nat.succ_le_succ shallow), Poly.covered_derivative hp⟩

theorem Simplifies.depth_distribute_le {r : Poly} {m : Int64} (h : Simplifies v text p) (hr : r ∈ p :: p.parts)
    (hq : r.distribute m = .ok q) : q.depth ≤ 257 := by
  obtain ⟨one_deeper, as_deep⟩ := Poly.depth_distribute_le hq
  rcases List.mem_cons.1 hr with rfl | hr
  · rcases h.depth_le with shallow | ⟨shallow, covered⟩
    · omega
    · exact Nat.le_trans (as_deep covered) shallow
  · have part_depth := Poly.depth_lt_of_mem_parts hr
    have whole_depth := h.depth_le
    omega

private theorem Built.depth_le (h : Built v text p) : p.depth ≤ 257 := by
  have at_most_two : ∀ {t : Poly}, t.depth ≤ 2 → t.depth ≤ 257 := fun ht => Nat.le_trans ht (by decide)
  cases h with
  | read he hf hp =>
    have shallow := depth_of_read he
    have part_depth := hf.depth_le
    rw [Poly.depth_of_denotes (Poly.ofSExpr_eq_ok_iff.1 hp)] at part_depth
    omega
  | derivative hp hr hd =>
    have shallow := (Poly.check_depth_of_read hp).2
    have part_depth := Nat.le_trans (Poly.depth_le_of_mem hr) shallow
    exact Nat.le_trans (Poly.depth_derivative_le hd) (Nat.succ_le_succ part_depth)
  | distributed hp hr hq => exact hp.depth_distribute_le hr hq
  | summand hp hd ht => exact at_most_two (Poly.scaled_of_distribute hd _ ht).depth_le_two
  | multiple hp hd htally ht => exact at_most_two (Poly.depth_of_mem_multiples ht)
  | combined hp hd hterms ht => exact at_most_two (Poly.depth_of_mem_combine hd hterms ht)
  | simplified hp hq => exact Nat.le_trans (Poly.depth_simplify hq) (by decide)

theorem built_of_derivativeText {s : String} (h : derivativeText v text = .ok s) : ∃ d, Built v text d ∧ d.render = s := by
  obtain ⟨p, hp, d, hd, rfl⟩ := derivativeText_eq_ok_iff.1 h
  exact ⟨d, .derivative hp List.mem_cons_self hd, rfl⟩

private theorem exists_simplifies {s : String}
    (h : simplifiedText text = .ok s ∨ simplifiedDerivativeText v text = .ok s) :
    ∃ p q, Simplifies v text p ∧ p.simplify = .ok q ∧ q.render = s := by
  rcases h with h | h
  · obtain ⟨p, hp, q, hq, rfl⟩ := simplifiedText_eq_ok_iff.1 h
    exact ⟨p, q, .read hp, hq, rfl⟩
  · obtain ⟨p, hp, d, hd, q, hq, rfl⟩ := simplifiedDerivativeText_eq_ok_iff.1 h
    exact ⟨d, q, .derivative hp hd, hq, rfl⟩

end

/-- What is read nests at most 256 deep, and the polynomial it stands for is as deep.  A derivative is at most one level
deeper than its polynomial, and so is what distribution makes of an expression, but not of one in which all powers are
covered, as they are in a derivative.  So nothing that is built from a text is more than 257 deep, and what is left of it
after simplification is at most three deep. -/
theorem depth_of_everything_built :
    (∀ text e, SExpr.read text = .ok e → e.depth ≤ 256) ∧
    (∀ e p, Poly.ofSExpr e = .ok p → p.depth = e.depth) ∧
    (∀ v p d, Poly.derivative v p = .ok d → d.depth ≤ p.depth + 1 ∧ d.Covered) ∧
    (∀ m p q, Poly.distribute m p = .ok q → q.depth ≤ p.depth + 1 ∧ (p.Covered → q.depth ≤ p.depth)) ∧
    ∀ v text, (∀ p, Built v text p → p.depth ≤ 257) ∧
      (∀ p q, Simplifies v text p → p.simplify = .ok q → q.depth ≤ 3) ∧
      (∀ s, derivativeText v text = .ok s → ∃ d, Built v text d ∧ d.render = s) ∧
      ∀ s, simplifiedText text = .ok s ∨ simplifiedDerivativeText v text = .ok s →
        ∃ p q, Simplifies v text p ∧ p.simplify = .ok q ∧ q.render = s := by
  refine ⟨fun text e => depth_of_read, ?_, ?_, fun m p q => Poly.depth_distribute_le, fun v text => ⟨?_, ?_, ?_, ?_⟩⟩
  · intro e p h
    exact (Poly.depth_of_denotes (Poly.ofSExpr_eq_ok_iff.1 h)).symm
  · intro v p d h
    exact ⟨Poly.depth_derivative_le h, Poly.covered_derivative h⟩
  · exact fun p => Built.depth_le
  · exact fun p q _ => Poly.depth_simplify
  · exact fun s => built_of_derivativeText
  · exact fun s => exists_simplifies

/-- A square in 255 multiples is as deep as can be read, and its derivative is deeper by one.  Distribution makes a power
deeper, but not a multiple of it, and the simplified form of a sum of multiples is three deep. -/
theorem depth_of_everything_built_deepest :
    (∃ e, SExpr.read (wrappedSquare 255).render = .ok e ∧ e.depth ≤ 256 ∧
      Poly.ofSExpr e = .ok (wrappedSquare 255) ∧ (wrappedSquare 255).depth = e.depth) ∧
    (∃ s d, derivativeText "x" (wrappedSquare 255).render = .ok s ∧ (wrappedSquare 255).derivative "x" = .ok d ∧
      256 < d.depth ∧ d.depth ≤ 256 + 1 ∧ d.Covered ∧ Built "x" (wrappedSquare 255).render d ∧ d.depth ≤ 257) ∧
    ((Poly.monomial "x" 2).distribute 3 = .ok (.product 3 (.monomial "x" 2)) ∧
      (Poly.product 3 (.monomial "x" 2)).depth ≤ (Poly.monomial "x" 2).depth + 1) ∧
    (Poly.Covered (.product 3 (.monomial "x" 2)) ∧
      (Poly.product 3 (.monomial "x" 2)).distribute 2 = .ok (.product 6 (.monomial "x" 2)) ∧
      (Poly.product 6 (.monomial "x" 2)).depth ≤ (Poly.product 3 (.monomial "x" 2)).depth) ∧
    simplifiedText "(* 2 (+ (* 3 (^ x 2)) 1))" = .ok "( + ( * 6 ( ^ x 2 ) ) 2 )" ∧
      ∃ q : Poly, q.render = "( + ( * 6 ( ^ x 2 ) ) 2 )" ∧ q.depth ≤ 3 := by
  obtain ⟨read_depth, same_depth, derivative_depth, distribute_depth, from_text⟩ := depth_of_everything_built
  have bare : (Poly.monomial "x" 2).distribute 3 = .ok (.product 3 (.monomial "x" 2)) := by rfl
  have multiple : (Poly.product 3 (.monomial "x" 2)).distribute 2 = .ok (.product 6 (.monomial "x" 2)) := by rfl
  have covered : Poly.Covered (.product 3 (.monomial "x" 2)) := .multiple 3 "x" 2
  have simplified : simplifiedText "(* 2 (+ (* 3 (^ x 2)) 1))" = .ok "( + ( * 6 ( ^ x 2 ) ) 2 )" := by decide +kernel
  have read_square := read_wrappedSquare (n := 255) (Nat.le_refl 255)
  refine ⟨?_, ?_, ⟨bare, (distribute_depth 3 _ _ bare).1⟩, ⟨covered, multiple, (distribute_depth 2 _ _ multiple).2 covered⟩,
    simplified, ?_⟩
  · obtain ⟨e, he, denotes⟩ := Poly.read_eq_ok_iff.1 read_square
    have stands_for := Poly.ofSExpr_eq_ok_iff.2 denotes
    exact ⟨e, he, read_depth _ e he, stands_for, same_depth e _ stands_for⟩
  · obtain ⟨s, hs⟩ := exists_derivativeText_wrappedSquare (n := 255) (Nat.le_refl 255)
    obtain ⟨p, hp, d, hd, rfl⟩ := derivativeText_eq_ok_iff.1 hs
    obtain rfl : wrappedSquare 255 = p := Except.ok.inj (read_square.symm.trans hp)
    obtain ⟨one_deeper, all_covered⟩ := derivative_depth "x" _ d hd
    rw [depth_wrappedSquare] at one_deeper
    have deeper : 256 < d.depth := by
      rw [← Nat.not_le, Poly.depth_derivative_le_iff hd 256]
      exact fun h => Nat.lt_irrefl 256 (h.2 256 ((powerAt_wrappedSquare_iff 255 256).2 rfl))
    have built : Built "x" (wrappedSquare 255).render d := .derivative hp List.mem_cons_self hd
    exact ⟨_, d, hs, hd, deeper, one_deeper, all_covered, built, (from_text "x" _).1 d built⟩
  · obtain ⟨-, simplified_depth, -, from_simplified⟩ := from_text "x" "(* 2 (+ (* 3 (^ x 2)) 1))"
    obtain ⟨p, q, hp, hq, hs⟩ := from_simplified _ (.inl simplified)
    exact ⟨q, hs, simplified_depth p q hp hq⟩

end PolyDeriv
