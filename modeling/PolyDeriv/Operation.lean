import PolyDeriv.Poly.Building
import PolyDeriv.Poly.Derivative
import PolyDeriv.Poly.Simplify

/-!
# Operations

What can be done with polynomials, one operation at a time: reading, differentiating, simplifying, and the steps of
simplification on their own.  An operation works on expressions and lists of terms and yields one of these, or fails.

A run applies operations one after the other, in any order, to values that are at hand (`Run`).  What an operation
yields is at hand for all operations behind it; an operation that fails leaves everything as it was.
-/

namespace PolyDeriv

/-- What operations work on. -/
inductive Value
  | poly (p : Poly)
  | terms (ts : List Poly)

/-- An expression that passes the check, or a list of such expressions. -/
def Value.WellFormed : Value → Prop
  | poly p => p.check = .ok ()
  | terms ts => ∀ t ∈ ts, t.check = .ok ()

/-- An operation, with what it is applied to. -/
inductive Operation
  | ofSExpr (e : SExpr)
  | read (text : String)
  | derivative (var : String) (p : Poly)
  | simplify (p : Poly)
  | distribute (factor : Int64) (p : Poly)
  /-- Writes a coefficient in front of an expression, without computing anything. -/
  | scale (coefficient : Int64) (p : Poly)
  | ofTerms (terms : List Poly)
  | summands (p : Poly)
  | append (terms : List Poly) (p : Poly)
  | combine (terms : List Poly)
  | withoutZeros (terms : List Poly)
  | ofSummands (terms : List Poly)

namespace Operation

/-- What an operation yields. -/
def apply : Operation → Except Error Value
  | ofSExpr e => (Poly.buildSExpr e).map .poly
  | read text => (Poly.buildText text).map .poly
  | derivative var p => (p.derivative var).map .poly
  | simplify p => p.simplify.map .poly
  | distribute factor p => ((p.distribute factor).mapError .overflow).map .poly
  | scale c p => .ok (.poly (.product c p))
  | ofTerms terms => ((Poly.ofTerms terms).mapError .invariant).map .poly
  | summands p => .ok (.terms p.summands)
  | append terms p => .ok (.terms (terms ++ [p]))
  | combine terms => ((Poly.combine terms).mapError .overflow).map .terms
  | withoutZeros terms => .ok (.terms (Poly.withoutZeros terms))
  | ofSummands terms => ((Poly.ofSummands terms).mapError .invariant).map .poly

/-- Whether what an operation is applied to is at hand.  Texts and S-expressions always are, and so is any well-formed
term to be appended. -/
def Applicable (values : List Value) : Operation → Prop
  | ofSExpr _ | read _ => True
  | derivative _ p | simplify p | distribute _ p | scale _ p | summands p => .poly p ∈ values
  | append terms p => .terms terms ∈ values ∧ p.check = .ok ()
  | ofTerms terms | combine terms | withoutZeros terms | ofSummands terms => .terms terms ∈ values

/-- Making a sum of fewer than two terms, or joining none. -/
def LacksTerms : Operation → Prop
  | ofTerms terms => terms.length < 2
  | ofSummands terms => terms = []
  | _ => False

end Operation

/-- A run of operations, one after the other, from the values at hand at its start to those at hand at its end. -/
inductive Run : List Value → List Operation → List Value → Prop
  | done (values : List Value) : Run values [] values
  | yield {values final : List Value} {op : Operation} {ops : List Operation} {v : Value} :
      op.Applicable values → op.apply = .ok v → Run (v :: values) ops final → Run values (op :: ops) final
  | fail {values final : List Value} {op : Operation} {ops : List Operation} {e : Error} :
      op.Applicable values → op.apply = .error e → Run values ops final → Run values (op :: ops) final

end PolyDeriv
