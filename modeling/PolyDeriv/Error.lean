import PolyDeriv.SExpr.Reader
import PolyDeriv.Integer.Decimal
import PolyDeriv.Text.Quoted

/-!
# Errors

Everything that can go wrong, by cause, and the wording of each cause.  A fault of an operand is also a fault of the
expression around it, so the message of an expression quotes the message that its operand would have on its own, and
goes on with the expression it belongs to.
-/

namespace PolyDeriv

/-! ### Causes -/

/-- What an integer is wanted for. -/
inductive IntegerRole
  | constant
  | exponent
deriving DecidableEq

/-- A value that no well-formed text describes, or a request that makes no sense. -/
inductive InvariantFault
  /-- A monomial in something that is not a symbol. -/
  | nonSymbol (text : String)
  /-- A sum of fewer than two terms. -/
  | shortSum (count : Nat)
  | emptyPalette
deriving DecidableEq

/-- Why an S-expression is not a polynomial.  If an operand is at fault, the operand and its own fault are given. -/
inductive SemanticFault
  | integer (role : IntegerRole) (fault : IntegerFault)
  /-- The exponent is a list. -/
  | compoundExponent
  | emptyList
  | unknownForm (head : SExpr)
  | sumArity
  | monomialArity
  | productArity
  | nonSymbol (symbol : SExpr)
  | nonConstant (left : SExpr)
  | term (term : SExpr) (fault : SemanticFault)
  | exponent (exponent : SExpr) (fault : SemanticFault)
  | left (left : SExpr) (fault : SemanticFault)
  | right (right : SExpr) (fault : SemanticFault)
deriving DecidableEq

/-- Why there is no result. -/
inductive Error
  /-- The text is not well bracketed. -/
  | parse (fault : ParseFault)
  /-- The expression is well bracketed, but not a polynomial. -/
  | semantic (expr : SExpr) (fault : SemanticFault)
  /-- A monomial is in another variable than the one to differentiate with respect to. -/
  | variableMismatch (bound found : String)
  | invariant (fault : InvariantFault)
  | overflow (computation : Overflow)
deriving DecidableEq

/-! ### Messages -/

/-- The parse error of a text that nests too deeply starts with these words. -/
def tooDeepWords : String := "nesting too deep"

namespace Overflow

/-- The computation, as it would be written. -/
def message : Overflow → String
  | product a b => writeInteger a ++ " * " ++ writeInteger b
  | sum a b => writeInteger a ++ " + " ++ writeInteger b
  | predecessor e => "exponent " ++ writeInteger e ++ " - 1"

end Overflow

namespace ParseFault

/-- What is wrong with the brackets or the atoms of a text. -/
def message : ParseFault → String
  | trailing token => "unexpected \"" ++ token.text ++ "\" after a complete S-expression"
  | tooDeep => tooDeepWords ++ ": more than " ++ writeCount maxDepth ++ " levels"
  | unopened => "mismatched parens, unexpected \")\""
  | invalidAtom text => "invalid atom \"" ++ text ++ "\""
  | unclosed count => "mismatched parens, " ++ writeCount count ++ " list(s) never closed"
  | empty => "empty input"
  | unbalanced text => "mismatched parentheses in \"" ++ text ++ "\""

end ParseFault

namespace InvariantFault

/-- What is missing. -/
def message : InvariantFault → String
  | nonSymbol text => "monomial bound to non-symbol " ++ quoted text
  | shortSum count => "sum with " ++ writeCount count ++ " term(s)"
  | emptyPalette => "need at least one colour to paint parentheses"

end InvariantFault

namespace IntegerRole

/-- The word for the role. -/
def name : IntegerRole → String
  | constant => "constant"
  | exponent => "exponent"

end IntegerRole

namespace IntegerFault

/-- What is wrong with an integer, said of its role. -/
def message : IntegerFault → String
  | malformed => " is not an integer"
  | tooLarge => " out of range: number too large to fit in target type"
  | tooSmall => " out of range: number too small to fit in target type"

end IntegerFault

/-- The message of a fault that belongs to an expression. -/
def located (expr : SExpr) (message : String) : String :=
  "Semantic error: " ++ message ++ " in " ++ expr.render

namespace SemanticFault

/-- What is wrong with an expression, not counting the expression itself. -/
def message : SemanticFault → String
  | integer role fault => role.name ++ fault.message
  | compoundExponent => "exponent must be an atom"
  | emptyList => "empty list is not a polynomial"
  | unknownForm head => "unknown polynomial form with head " ++ head.render
  | sumArity => "a sum needs at least two terms"
  | monomialArity => "a monomial takes a symbol and an exponent"
  | productArity => "a product takes a constant and a polynomial"
  | nonSymbol symbol => symbol.render ++ " is not a valid symbol for a monomial"
  | nonConstant l => "left multiplicand " ++ l.render ++ " must be a constant"
  | term t fault => "failed to parse term " ++ t.render ++ ": " ++ located t fault.message
  | exponent e fault => "failed to parse exponent: " ++ located e fault.message
  | left l fault => "failed to parse left multiplicand: " ++ located l fault.message
  | right r fault => "failed to parse " ++ r.render ++ ": " ++ located r fault.message

end SemanticFault

namespace Error

/-- The text an error is reported with. -/
def message : Error → String
  | parse fault => "Parse error: " ++ fault.message
  | semantic expr fault => located expr fault.message
  | variableMismatch bound found =>
    "cannot differentiate a polynomial function bound in a different variable (bound: " ++ bound ++ ", found: " ++
      found ++ ")"
  | invariant fault => "Invariant violation: " ++ fault.message
  | overflow computation => "Integer overflow: " ++ computation.message

end Error
end PolyDeriv
