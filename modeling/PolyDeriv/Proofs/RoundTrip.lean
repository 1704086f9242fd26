import PolyDeriv.Proofs.Denotation
import PolyDeriv.Proofs.Reading

/-!
# Reading what was printed

An S-expression is read back from its printed form exactly if its atoms are atoms and its lists are not nested too
deeply (`SExpr.read_render_eq_ok_iff`).  A polynomial is read back from its S-expression exactly if it is well-formed,
and from its printed form exactly if, in addition, that is not nested too deeply (`Poly.read_render_eq_self_iff`).
-/

namespace PolyDeriv

/-! ### S-expressions -/

namespace SExpr

theorem read_render {e : SExpr} (h : e.Readable maxDepth) : SExpr.read e.render = .ok e :=
  read_eq_ok_iff.2 ⟨tokensOf_render h.valid, h⟩

/-- An expression is read back from its printed form exactly if its atoms are atoms and it is nested at most 256 deep.
One of atoms that is deeper is refused for its depth, and one that was read from any text at all is read back. -/
theorem read_render_eq_ok_iff (e : SExpr) :
    (SExpr.read e.render = .ok e ↔ (∀ a ∈ e.atoms, IsAtom a) ∧ e.depth ≤ 256) ∧
      ((∀ a ∈ e.atoms, IsAtom a) → 256 < e.depth → SExpr.read e.render = .error .tooDeep) ∧
      ∀ text, SExpr.read text = .ok e → SExpr.read e.render = .ok e := by
  refine ⟨?_, read_render_tooDeep, ?_⟩
  · constructor
    · intro h
      have readable := (read_eq_ok_iff.1 h).2
      exact ⟨readable.valid, readable.shallow⟩
    · rintro ⟨valid, shallow⟩
      exact read_render ⟨valid, shallow⟩
  · intro text h
    exact read_render (read_eq_ok_iff.1 h).2

/-- The empty list, in `n` lists with an operator behind it. -/
def nested : Nat → SExpr
  | 0 => .list []
  | n + 1 => .list [nested n, .atom "^"]

private theorem depth_nested (n : Nat) : (nested n).depth = n + 1 := by
  induction n with
  | zero => rfl
  | succ n ih => simp [nested, depth, depthOfItems, ih]

private theorem valid_nested (n : Nat) : ∀ a ∈ (nested n).atoms, IsAtom a := by
  induction n with
  | zero => simp [nested, atoms, atomsOfItems]
  | succ n ih =>
    have operator : ∀ a ∈ (atom "^").atoms, IsAtom a := by simp [atoms, IsAtom]
    rw [nested, valid_list_iff, List.forall_mem_cons, List.forall_mem_singleton]
    exact ⟨ih, operator⟩

/-- Two lists in a text without spaces; then 256 lists in each other, and 257. -/
theorem read_render_eq_ok_iff_nested :
    (SExpr.read "(()^)" = .ok (nested 1) ∧ SExpr.read (nested 1).render = .ok (nested 1)) ∧
      ((∀ a ∈ (nested 255).atoms, IsAtom a) ∧ (nested 255).depth ≤ 256 ∧
        SExpr.read (nested 255).render = .ok (nested 255)) ∧
      (∀ a ∈ (nested 256).atoms, IsAtom a) ∧ 256 < (nested 256).depth ∧
        SExpr.read (nested 256).render = .error .tooDeep := by
  have packed : SExpr.read "(()^)" = .ok (nested 1) := by decide +kernel
  have shallow : (nested 255).depth ≤ 256 := Nat.le_of_eq (depth_nested 255)
  have deep : 256 < (nested 256).depth := by
    rw [depth_nested]
    decide
  obtain ⟨-, -, again⟩ := read_render_eq_ok_iff (nested 1)
  obtain ⟨accepted, -, -⟩ := read_render_eq_ok_iff (nested 255)
  obtain ⟨-, refused, -⟩ := read_render_eq_ok_iff (nested 256)
  exact ⟨⟨packed, again _ packed⟩, ⟨valid_nested 255, shallow, accepted.2 ⟨valid_nested 255, shallow⟩⟩,
    valid_nested 256, deep, refused (valid_nested 256) deep⟩

end SExpr

/-! ### Atoms of the notation -/

theorem isAtom_of_isSymbol {text : String} (h : IsSymbol text) : IsAtom text := by
  refine .inr ⟨h.1, fun c hc => .inl ?_⟩
  simp [Char.isAlphanum, h.2 c hc]

theorem isAtom_of_spells {text : String} {n : Int} (h : Spells text.toList n) : IsAtom text := by
  have alphanum : ∀ digits : List Char, (∀ c ∈ digits, c.isDigit) → ∀ c ∈ digits, c.isAlphanum ∨ c = '-' := by
    intro digits all_digits c hc
    exact .inl (by simp [Char.isAlphanum, all_digits c hc])
  obtain ⟨⟨digits, ne, all_digits, split | split⟩, -⟩ := spells_iff.1 h
  · exact .inr ⟨split ▸ ne, split ▸ alphanum digits all_digits⟩
  · refine .inr ⟨by simp [split], fun c hc => ?_⟩
    rw [split, List.mem_cons] at hc
    rcases hc with rfl | hc
    · exact .inr rfl
    · exact alphanum digits all_digits c hc

private theorem Form.isAtom_head (form : Form) {head : String} (h : head = form.sugar ∨ head = form.keyword) :
    IsAtom head := by
  rcases h with rfl | rfl
  · cases form <;> exact .inl (by decide)
  · have keyword_symbol : TokenClass.symbol.accepts form.keyword := by cases form <;> decide +kernel
    exact isAtom_of_isSymbol (accepts_symbol_iff.1 keyword_symbol)

namespace Poly

theorem valid_of_denotes {e : SExpr} {p : Poly} (h : Denotes e p) : ∀ a ∈ e.atoms, IsAtom a := by
  refine denotes_induction (motive := fun e _ => ∀ a ∈ e.atoms, IsAtom a) ?_ ?_ ?_ ?_ h
  · intro text c spelt
    simpa [SExpr.atoms] using isAtom_of_spells spelt
  · intro head symbol text e hhead hsymbol spelt
    have head_atom := Form.isAtom_head .monomial hhead
    simpa [SExpr.atoms, SExpr.atomsOfItems] using ⟨head_atom, isAtom_of_isSymbol hsymbol, isAtom_of_spells spelt⟩
  · intro head text c e p hhead spelt ih
    have head_atom := Form.isAtom_head .product hhead
    have coefficient_atom := isAtom_of_spells spelt
    intro a ha
    have cases : a = head ∨ a = text ∨ a ∈ e.atoms := by simpa [SExpr.atoms, SExpr.atomsOfItems] using ha
    rcases cases with rfl | rfl | ha
    · exact head_atom
    · exact coefficient_atom
    · exact ih a ha
  · intro head items terms hhead _ ih
    have head_atom := Form.isAtom_head .sum hhead
    have items_valid : ∀ e ∈ items, ∀ a ∈ e.atoms, IsAtom a := forall_mem_of_forall₂ ih.flip
    rw [SExpr.valid_list_iff, List.forall_mem_cons]
    exact ⟨by simpa [SExpr.atoms] using head_atom, items_valid⟩

/-! ### Round trips -/

theorem read_eq_ok_iff {text : String} {p : Poly} :
    Poly.read text = .ok p ↔ ∃ e, SExpr.read text = .ok e ∧ Denotes e p := by
  have bind_iff := bind_eq_ok_iff (x := (SExpr.read text).mapError Error.parse) (f := ofSExpr) (b := p)
  simp only [mapError_eq_ok_iff, ofSExpr_eq_ok_iff] at bind_iff
  exact bind_iff

theorem check_depth_of_read {text : String} {p : Poly} (h : Poly.read text = .ok p) :
    p.check = .ok () ∧ p.depth ≤ maxDepth := by
  obtain ⟨e, he, denotes⟩ := read_eq_ok_iff.1 h
  have shallow := (SExpr.read_eq_ok_iff.1 he).2.shallow
  rw [depth_of_denotes denotes] at shallow
  exact ⟨check_of_denotes denotes, shallow⟩

theorem read_render {p : Poly} (checked : p.check = .ok ()) (shallow : p.depth ≤ maxDepth) :
    Poly.read p.render = .ok p := by
  have denotes := denotes_toSExpr checked
  have valid := valid_of_denotes denotes
  have readable : p.toSExpr.Readable maxDepth := ⟨valid, by rwa [depth_toSExpr]⟩
  exact read_eq_ok_iff.2 ⟨p.toSExpr, SExpr.read_render readable, denotes⟩

theorem read_render_tooDeep {p : Poly} (checked : p.check = .ok ()) (deep : maxDepth < p.depth) :
    Poly.read p.render = .error (.parse .tooDeep) := by
  have valid := valid_of_denotes (denotes_toSExpr checked)
  rw [← depth_toSExpr] at deep
  rw [Poly.read, render, SExpr.read_render_tooDeep valid deep]
  rfl

/-- Writing a polynomial as an S-expression and reading it again gives the polynomial exactly if it is well-formed.
Through its printed form it comes back exactly if, in addition, it is nested at most 256 deep; one that is well-formed
but deeper is refused for its depth. -/
theorem read_render_eq_self_iff (p : Poly) :
    (ofSExpr p.toSExpr = .ok p ↔ p.check = .ok ()) ∧
      (Poly.read p.render = .ok p ↔ p.check = .ok () ∧ p.depth ≤ 256) ∧
      (p.check = .ok () → 256 < p.depth → Poly.read p.render = .error (.parse .tooDeep)) := by
  refine ⟨?_, ⟨check_depth_of_read, fun h => read_render h.1 h.2⟩, read_render_tooDeep⟩
  rw [ofSExpr_eq_ok_iff]
  exact ⟨check_of_denotes, denotes_toSExpr⟩

/-- Products in products in products, `n` deep. -/
def chain (n : Nat) : Poly := (List.replicate n (-1)).foldr product (constant (-9223372036854775808))

private theorem check_chain (n : Nat) : (chain n).check = .ok () := by
  induction n with
  | zero => rfl
  | succ n ih => exact ih

private theorem depth_chain (n : Nat) : (chain n).depth = n := by
  induction n with
  | zero => rfl
  | succ n ih => exact congrArg (· + 1) ih

theorem read_render_eq_self_iff_chain : (chain 257).check = .ok () ∧ 256 < (chain 257).depth ∧
    ofSExpr (chain 257).toSExpr = .ok (chain 257) ∧ Poly.read (chain 257).render = .error (.parse .tooDeep) := by
  have deep : 256 < (chain 257).depth := by
    rw [depth_chain]
    decide
  obtain ⟨through_expression, -, refused⟩ := read_render_eq_self_iff (chain 257)
  exact ⟨check_chain 257, deep, through_expression.2 (check_chain 257), refused (check_chain 257) deep⟩

end Poly
end PolyDeriv
