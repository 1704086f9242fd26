import PolyDeriv.Poly.Basic

/-!
# Distribution of factors

`Poly.distribute m p` is `m` times `p` without any multiple of a sum or of a multiple: factors are multiplied
together on their way down, a constant takes up the factor it meets, and a power becomes a multiple of itself, even
if the factor is one.  A factor of zero erases everything below it, unseen.
-/

namespace PolyDeriv
namespace Poly

mutual

/-- A multiple of an expression, with the factor moved down to the leaves. -/
def distribute (factor : Int64) (p : Poly) : Except Overflow Poly :=
  if factor = 0 then .ok zero
  else
    match p with
    | .constant c => (exactProduct c factor).map .constant
    | .monomial s e => .ok (.product factor (.monomial s e))
    | .product c q =>
      match exactProduct c factor with
      | .ok factor => q.distribute factor
      | .error e => .error e
    | .sum terms => (distributeOverTerms factor terms).map .sum

/-- The multiples of terms. -/
def distributeOverTerms (factor : Int64) : List Poly → Except Overflow (List Poly)
  | [] => .ok []
  | p :: ps =>
    match distribute factor p with
    | .ok q => (distributeOverTerms factor ps).map (q :: ·)
    | .error e => .error e

end

theorem distributeOverTerms_eq (factor : Int64) (terms : List Poly) :
    distributeOverTerms factor terms = terms.mapM (distribute factor) := by
  induction terms with
  | nil => rfl
  | cons p ps ih =>
    rw [distributeOverTerms, List.mapM_cons, ih]
    cases p.distribute factor <;> rfl

end Poly
end PolyDeriv
