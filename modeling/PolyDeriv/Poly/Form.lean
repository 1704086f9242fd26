import PolyDeriv.SExpr.Basic

/-!
# Forms

The three kinds of list that stand for polynomials, told apart by their heads.  Every form has a keyword and a
one-character name; both are read, and the latter is written.
-/

namespace PolyDeriv

/-- What a list stands for. -/
inductive Form
  | sum
  | monomial
  | product
deriving DecidableEq

namespace Form

/-- Every form. -/
def all : List Form := [sum, monomial, product]

/-- The word for a form. -/
def keyword : Form → String
  | sum => "sum"
  | monomial => "mon"
  | product => "prod"

/-- The operator for a form. -/
def sugar : Form → String
  | sum => "+"
  | monomial => "^"
  | product => "*"

/-- The head a list of this form is written with. -/
def head (form : Form) : SExpr := .atom form.sugar

/-- The form that the head of a list announces. -/
def ofHead? : SExpr → Option Form
  | .atom text => all.find? fun form => text = form.keyword || text = form.sugar
  | .list _ => none

@[simp] theorem ofHead?_head (form : Form) : ofHead? form.head = some form := by
  cases form <;> rfl

end Form
end PolyDeriv
