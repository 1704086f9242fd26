import PolyDeriv.Token.Basic

/-!
# S-expressions

An S-expression is an atom or a list of S-expressions, possibly empty.  It has a printed form (`render`), in which
every item of a list is followed by a space, and a sequence of tokens (`tokens`), which is what is left of a
printed form when spacing is forgotten.

Functions on S-expressions come in pairs, one for an expression and one for a list of items; a lemma of the form
`renderItems_eq` expresses the second through the first.
-/

namespace PolyDeriv

/-- An atom, or a list of S-expressions. -/
inductive SExpr
  | atom (text : String)
  | list (items : List SExpr)

namespace SExpr

/-- Induction on S-expressions: a list may assume the property of each of its items. -/
@[elab_as_elim, induction_eliminator]
theorem ind {motive : SExpr → Prop} (atom : ∀ text, motive (.atom text))
    (list : ∀ items, (∀ e ∈ items, motive e) → motive (.list items)) (e : SExpr) : motive e :=
  SExpr.rec (motive_1 := motive) (motive_2 := fun items => ∀ e ∈ items, motive e) atom list (by simp)
    (fun _ _ head tail => by simpa using ⟨head, tail⟩) e

mutual

/-- Whether two S-expressions are equal. -/
def decEq : (a b : SExpr) → Decidable (a = b)
  | .atom s, .atom t => decidable_of_iff (s = t) (by simp)
  | .list as, .list bs =>
    match decEqItems as bs with
    | isTrue h => isTrue (by rw [h])
    | isFalse h => isFalse (by simpa using h)
  | .atom _, .list _ => isFalse (by simp)
  | .list _, .atom _ => isFalse (by simp)

/-- Whether two lists of items are equal. -/
def decEqItems : (as bs : List SExpr) → Decidable (as = bs)
  | [], [] => isTrue rfl
  | [], _ :: _ => isFalse (by simp)
  | _ :: _, [] => isFalse (by simp)
  | a :: as, b :: bs =>
    match decEq a b, decEqItems as bs with
    | isTrue h, isTrue hs => isTrue (by rw [h, hs])
    | isFalse h, _ => isFalse (by simp [h])
    | _, isFalse hs => isFalse (by simp [hs])

end

instance : DecidableEq SExpr := SExpr.decEq

/-- The text of an atom. -/
def atom? : SExpr → Option String
  | .atom text => some text
  | .list _ => none

/-- The items of a list. -/
def items? : SExpr → Option (List SExpr)
  | .atom _ => none
  | .list items => some items

mutual

/-- The printed form. -/
def render : SExpr → String
  | .atom text => text
  | .list items => "( " ++ renderItems items ++ ")"

/-- The printed forms of items, each followed by a space. -/
def renderItems : List SExpr → String
  | [] => ""
  | e :: es => e.render ++ " " ++ renderItems es

end

mutual

/-- The tokens of the printed form. -/
def tokens : SExpr → List Token
  | .atom text => [.word text]
  | .list items => .opening :: tokensOfItems items ++ [.closing]

/-- The tokens of the printed forms of items, one after the other. -/
def tokensOfItems : List SExpr → List Token
  | [] => []
  | e :: es => e.tokens ++ tokensOfItems es

end

mutual

/-- How deep lists are nested: not at all in an atom, and in a list one level deeper than in its deepest item. -/
def depth : SExpr → Nat
  | .atom _ => 0
  | .list items => depthOfItems items + 1

/-- The depth of the deepest item. -/
def depthOfItems : List SExpr → Nat
  | [] => 0
  | e :: es => max e.depth (depthOfItems es)

end

mutual

/-- The atoms, from left to right. -/
def atoms : SExpr → List String
  | .atom text => [text]
  | .list items => atomsOfItems items

/-- The atoms of items, from left to right. -/
def atomsOfItems : List SExpr → List String
  | [] => []
  | e :: es => e.atoms ++ atomsOfItems es

end

theorem tokensOfItems_eq (items : List SExpr) : tokensOfItems items = items.flatMap tokens := by
  induction items with
  | nil => rfl
  | cons e es ih => simp [tokensOfItems, ih]

theorem atomsOfItems_eq (items : List SExpr) : atomsOfItems items = items.flatMap atoms := by
  induction items with
  | nil => rfl
  | cons e es ih => simp [atomsOfItems, ih]

theorem toList_renderItems (items : List SExpr) :
    (renderItems items).toList = items.flatMap fun e => e.render.toList ++ [' '] := by
  induction items with
  | nil => rfl
  | cons e es ih => simp [renderItems, ih]

theorem depthOfItems_le_iff {items : List SExpr} {n : Nat} : depthOfItems items ≤ n ↔ ∀ e ∈ items, e.depth ≤ n := by
  induction items with
  | nil => simp [depthOfItems]
  | cons e es ih =>
    rw [depthOfItems, Nat.max_le, ih]
    simp

end SExpr
end PolyDeriv
