import PolyDeriv.Poly.Basic
import PolyDeriv.Error

/-!
# Reading polynomials

The meaning of S-expressions: an integer is a constant, and a list is a sum, a power or a multiple, as its head says.
Operands are looked at from left to right, and the first one at fault decides.
-/

namespace PolyDeriv
namespace Poly

/-- A power, from the operands of its list. -/
def ofPowerOperands : List SExpr → Except SemanticFault Poly
  | [.atom symbol, exponent] =>
    if TokenClass.symbol.accepts symbol then
      match exponent with
      | .atom text =>
        match readInteger text with
        | .ok e => .ok (monomial symbol e)
        | .error fault => .error (.exponent exponent (.integer .exponent fault))
      | .list _ => .error (.exponent exponent .compoundExponent)
    else .error (.nonSymbol (.atom symbol))
  | [.list items, _] => .error (.nonSymbol (.list items))
  | _ => .error .monomialArity

mutual

/-- The polynomial an S-expression stands for, or why it stands for none. -/
def meaning : SExpr → Except SemanticFault Poly
  | .atom text =>
    match readInteger text with
    | .ok c => .ok (constant c)
    | .error fault => .error (.integer .constant fault)
  | .list [] => .error .emptyList
  | .list (head :: operands) =>
    match Form.ofHead? head with
    | none => .error (.unknownForm head)
    | some .sum => if operands.length < 2 then .error .sumArity else (meaningOfTerms operands).map sum
    | some .monomial => ofPowerOperands operands
    | some .product =>
      match operands with
      | [left, right] =>
        match meaning left with
        | .ok (constant c) =>
          match meaning right with
          | .ok p => .ok (product c p)
          | .error fault => .error (.right right fault)
        | .ok _ => .error (.nonConstant left)
        | .error fault => .error (.left left fault)
      | _ => .error .productArity

/-- The polynomials that the terms of a sum stand for. -/
def meaningOfTerms : List SExpr → Except SemanticFault (List Poly)
  | [] => .ok []
  | e :: es =>
    match meaning e with
    | .ok p => (meaningOfTerms es).map (p :: ·)
    | .error fault => .error (.term e fault)

end

theorem meaningOfTerms_eq (items : List SExpr) :
    meaningOfTerms items = items.mapM fun e => (meaning e).mapError (.term e) := by
  induction items with
  | nil => rfl
  | cons e es ih =>
    rw [meaningOfTerms, List.mapM_cons, ih]
    cases meaning e <;> rfl

/-- The polynomial an S-expression stands for; the fault of one that stands for none is reported with it. -/
def ofSExpr (e : SExpr) : Except Error Poly := (meaning e).mapError (.semantic e)

/-- Reads a polynomial. -/
def read (text : String) : Except Error Poly := ((SExpr.read text).mapError .parse).bind ofSExpr

end Poly
end PolyDeriv
