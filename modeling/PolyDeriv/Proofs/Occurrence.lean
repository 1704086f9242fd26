import PolyDeriv.Poly.Power

/-!
# Occurrence

What occurs in an expression: its powers, from left to right (`Poly.powers`); the powers that no factor of zero erases
(`Poly.livePowers`); and the expressions it is made of (`Poly.parts`).
-/

namespace PolyDeriv
namespace Poly

mutual

/-- The powers in an expression. -/
def powers : Poly → List Power
  | .constant _ => []
  | .monomial s e => [⟨s, e⟩]
  | .product _ p => p.powers
  | .sum terms => powersOfTerms terms

/-- The powers in terms. -/
def powersOfTerms : List Poly → List Power
  | [] => []
  | p :: ps => p.powers ++ powersOfTerms ps

end

mutual

/-- The powers in an expression that are not in a multiple by zero. -/
def livePowers : Poly → List Power
  | .constant _ => []
  | .monomial s e => [⟨s, e⟩]
  | .product c p => if c = 0 then [] else p.livePowers
  | .sum terms => livePowersOfTerms terms

/-- The powers in terms that are not in a multiple by zero. -/
def livePowersOfTerms : List Poly → List Power
  | [] => []
  | p :: ps => p.livePowers ++ livePowersOfTerms ps

end

mutual

/-- The operands of an expression, their operands, and so on; the expression itself is not one of them. -/
def parts : Poly → List Poly
  | .constant _ | .monomial .. => []
  | .product _ p => p :: p.parts
  | .sum terms => partsOfTerms terms

/-- Terms and their parts. -/
def partsOfTerms : List Poly → List Poly
  | [] => []
  | p :: ps => p :: p.parts ++ partsOfTerms ps

end

theorem powersOfTerms_eq (terms : List Poly) : powersOfTerms terms = terms.flatMap powers := by
  induction terms with
  | nil => rfl
  | cons p ps ih => rw [powersOfTerms, ih, List.flatMap_cons]

theorem livePowersOfTerms_eq (terms : List Poly) : livePowersOfTerms terms = terms.flatMap livePowers := by
  induction terms with
  | nil => rfl
  | cons p ps ih => rw [livePowersOfTerms, ih, List.flatMap_cons]

private theorem partsOfTerms_eq (terms : List Poly) : partsOfTerms terms = terms.flatMap fun p => p :: p.parts := by
  induction terms with
  | nil => rfl
  | cons p ps ih => rw [partsOfTerms, ih, List.flatMap_cons]

@[simp] theorem mem_powers_sum {terms : List Poly} {r : Power} :
    r ∈ (sum terms).powers ↔ ∃ p ∈ terms, r ∈ p.powers := by
  rw [powers, powersOfTerms_eq, List.mem_flatMap]

@[simp] theorem mem_livePowers_sum {terms : List Poly} {r : Power} :
    r ∈ (sum terms).livePowers ↔ ∃ p ∈ terms, r ∈ p.livePowers := by
  rw [livePowers, livePowersOfTerms_eq, List.mem_flatMap]

@[simp] theorem mem_livePowers_product {c : Int64} {p : Poly} {r : Power} :
    r ∈ (product c p).livePowers ↔ c ≠ 0 ∧ r ∈ p.livePowers := by
  rw [livePowers]
  split
  · next h => simp [h]
  · next h => simp [h]

theorem livePowers_subset (p : Poly) : ∀ r ∈ p.livePowers, r ∈ p.powers := by
  intro r hr
  induction p with
  | constant c => exact hr
  | monomial s e => exact hr
  | product c p ih => exact ih (mem_livePowers_product.1 hr).2
  | sum terms ih =>
    obtain ⟨p, hp, hr⟩ := mem_livePowers_sum.1 hr
    exact mem_powers_sum.2 ⟨p, hp, ih p hp hr⟩

@[simp] theorem mem_parts_sum {terms : List Poly} {q : Poly} :
    q ∈ (sum terms).parts ↔ ∃ p ∈ terms, q = p ∨ q ∈ p.parts := by
  rw [parts, partsOfTerms_eq, List.mem_flatMap]
  simp only [List.mem_cons]

end Poly
end PolyDeriv
