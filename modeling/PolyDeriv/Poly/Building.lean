import PolyDeriv.Poly.Reading

/-!
# Building expressions node by node

Reading builds a polynomial from its leaves up.  Here every node is checked as soon as it has been built
(`Poly.checkNode`), while its operands, which have been checked before, are not looked at again.  A node that does not
pass is a violated invariant, and not a fault of any expression around it.
-/

namespace PolyDeriv

/-- Why nothing is built. -/
inductive BuildFault
  | semantic (fault : SemanticFault)
  | invariant (fault : InvariantFault)
deriving DecidableEq

namespace BuildFault

/-- The fault of an operand, as a fault of the expression around it. -/
def within (f : SemanticFault → SemanticFault) : BuildFault → BuildFault
  | semantic fault => semantic (f fault)
  | invariant fault => invariant fault

/-- The error that is reported for an expression. -/
def error (e : SExpr) : BuildFault → Error
  | semantic fault => .semantic e fault
  | invariant fault => .invariant fault

end BuildFault

namespace Poly

/-- Checks a node, but not its operands. -/
def checkNode : Poly → Except InvariantFault Unit
  | .constant _ | .product .. => .ok ()
  | .monomial s _ => if TokenClass.symbol.accepts s then .ok () else .error (.nonSymbol s)
  | .sum terms => if terms.length < 2 then .error (.shortSum terms.length) else .ok ()

/-- An expression that has just been built, if its node passes the check. -/
def checkedNode (p : Poly) : Except BuildFault Poly := (p.checkNode.mapError .invariant).map fun _ => p

mutual

/-- The polynomial that is built from an S-expression. -/
def build : SExpr → Except BuildFault Poly
  | .atom text =>
    match readInteger text with
    | .ok c => checkedNode (constant c)
    | .error fault => .error (.semantic (.integer .constant fault))
  | .list [] => .error (.semantic .emptyList)
  | .list (head :: operands) =>
    match Form.ofHead? head with
    | none => .error (.semantic (.unknownForm head))
    | some .sum =>
      if operands.length < 2 then .error (.semantic .sumArity)
      else (buildTerms operands).bind fun terms => checkedNode (sum terms)
    | some .monomial => ((ofPowerOperands operands).mapError .semantic).bind checkedNode
    | some .product =>
      match operands with
      | [left, right] =>
        match build left with
        | .ok (constant c) =>
          match build right with
          | .ok p => checkedNode (product c p)
          | .error fault => .error (fault.within (.right right))
        | .ok _ => .error (.semantic (.nonConstant left))
        | .error fault => .error (fault.within (.left left))
      | _ => .error (.semantic .productArity)

/-- The polynomials that are built from the terms of a sum. -/
def buildTerms : List SExpr → Except BuildFault (List Poly)
  | [] => .ok []
  | e :: es =>
    match build e with
    | .ok p => (buildTerms es).map (p :: ·)
    | .error fault => .error (fault.within (.term e))

end

/-- Builds the polynomial that an S-expression stands for. -/
def buildSExpr (e : SExpr) : Except Error Poly := (build e).mapError (BuildFault.error e)

/-- Builds the polynomial that a text stands for. -/
def buildText (text : String) : Except Error Poly := ((SExpr.read text).mapError .parse).bind buildSExpr

end Poly
end PolyDeriv
