import PolyDeriv.SExpr.Basic
import PolyDeriv.Token.Class

/-!
# Reading S-expressions

A text is read token by token.  The state of the reader (`Reader`) is a stack of the lists that are still open, or
the one expression the text may hold once that is complete.  Reading stops at the first token that does not fit:
anything behind a complete expression, a parenthesis that would open a list deeper than `maxDepth`, one that closes
nothing, or a word that is not an atom.
-/

namespace PolyDeriv

/-- How deep lists may be nested. -/
def maxDepth : Nat := 256

/-- Why a text is not one S-expression, or not well bracketed. -/
inductive ParseFault
  /-- A token follows a complete expression. -/
  | trailing (token : Token)
  /-- A list is nested deeper than `maxDepth`. -/
  | tooDeep
  /-- A parenthesis closes no list. -/
  | unopened
  /-- A word is not an atom. -/
  | invalidAtom (text : String)
  /-- The text ends with this many lists open. -/
  | unclosed (count : Nat)
  /-- The text holds no tokens. -/
  | empty
  /-- The parentheses of a text to be coloured do not match. -/
  | unbalanced (text : String)
deriving DecidableEq

/-- Where the reader stands. -/
inductive Reader
  /-- The items read so far of each list that is still open, newest item and innermost list first. -/
  | pending (stack : List (List SExpr))
  /-- The whole text, unless more tokens follow. -/
  | complete (e : SExpr)
deriving DecidableEq

namespace Reader

/-- Adds a finished expression to the innermost open list; if there is none, the text is complete. -/
def attach (e : SExpr) : List (List SExpr) → Reader
  | [] => complete e
  | items :: outer => pending ((e :: items) :: outer)

/-- Reads one token. -/
def step : Reader → Token → Except ParseFault Reader
  | complete _, token => .error (.trailing token)
  | pending stack, .opening => if stack.length < maxDepth then .ok (pending ([] :: stack)) else .error .tooDeep
  | pending [], .closing => .error .unopened
  | pending (items :: outer), .closing => .ok (attach (.list items.reverse) outer)
  | pending stack, .word text =>
    if TokenClass.atom.accepts text then .ok (attach (.atom text) stack) else .error (.invalidAtom text)

/-- The expression read, at the end of the text. -/
def finish : Reader → Except ParseFault SExpr
  | complete e => .ok e
  | pending [] => .error .empty
  | pending stack => .error (.unclosed stack.length)

/-- Reads a sequence of tokens to its end. -/
def run (reader : Reader) (tokens : List Token) : Except ParseFault SExpr := do
  (← tokens.foldlM step reader).finish

@[simp] theorem run_nil (reader : Reader) : reader.run [] = reader.finish := rfl

theorem run_cons (reader : Reader) (token : Token) (tokens : List Token) :
    reader.run (token :: tokens) = (reader.step token).bind fun next => next.run tokens := by
  unfold run
  rw [List.foldlM_cons]
  cases reader.step token <;> rfl

end Reader

/-- Reads the one S-expression that a text consists of. -/
def SExpr.read (text : String) : Except ParseFault SExpr := (Reader.pending []).run (tokensOf text)

end PolyDeriv
