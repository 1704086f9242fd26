import PolyDeriv.Token.Class

/-!
# The grammar of tokens

The lexical rules, written as parsing expressions.  A parsing expression is tried at a place of a text and moves on from
there, or fails.  Of two alternatives the first is taken if it succeeds, whatever comes after it; a repetition goes on for
as long as it can, and gives nothing back.

`TokenClass.match?` is what comes of the grammar when this is worked out for each of its rules.
-/

namespace PolyDeriv

/-- A place in a text: what stands in front of it and behind it, and the pieces that have been found. -/
structure Cursor where
  done : List Char
  left : List Char
  pieces : List Span
deriving DecidableEq

namespace Cursor

/-- The place in front of a text. -/
def front (text : String) : Cursor := ⟨[], text.toList, []⟩

/-- The number of bytes in front of a place. -/
def offset (place : Cursor) : Nat := (String.ofList place.done).utf8ByteSize

/-- The piece between two places. -/
def spanTo (kind : TokenClass) (start stop : Cursor) : Span :=
  ⟨kind, String.ofList (stop.done.drop start.done.length), start.offset, stop.offset⟩

/-- Moves on as long as that is possible.  A step that stays where it is counts as the last one. -/
def exhaust (step : Cursor → Option Cursor) (place : Cursor) : Cursor :=
  match step place with
  | none => place
  | some next => if next.left.length < place.left.length then exhaust step next else next
termination_by place.left.length

end Cursor

/-- A parsing expression. -/
inductive ParsingExpr
  /-- One character of a class. -/
  | char (p : Char → Bool)
  /-- The beginning of the text. -/
  | beginning
  /-- The end of the text, which counts as a piece. -/
  | ending
  /-- One expression and then another. -/
  | both (a b : ParsingExpr)
  /-- The first of two expressions that succeeds. -/
  | either (a b : ParsingExpr)
  /-- An expression, or nothing. -/
  | perhaps (a : ParsingExpr)
  /-- An expression, once or more often. -/
  | repeated (a : ParsingExpr)
  /-- A piece of its own, whose parts are not told. -/
  | piece (kind : TokenClass) (a : ParsingExpr)
  /-- An expression whose pieces are not told. -/
  | atomic (a : ParsingExpr)

namespace ParsingExpr

/-- Tries an expression at a place. -/
def run : ParsingExpr → Cursor → Option Cursor
  | char p, place =>
    match place.left with
    | [] => none
    | c :: cs => if p c then some { place with done := place.done ++ [c], left := cs } else none
  | beginning, place => if place.done = [] then some place else none
  | ending, place =>
    if place.left = [] then some { place with pieces := place.pieces ++ [place.spanTo .endOfText place] } else none
  | both a b, place => (a.run place).bind b.run
  | either a b, place =>
    match a.run place with
    | some next => some next
    | none => b.run place
  | perhaps a, place => some ((a.run place).getD place)
  | repeated a, place => (a.run place).map (Cursor.exhaust a.run)
  | piece kind a, place => (a.run place).map fun next => { next with pieces := place.pieces ++ [place.spanTo kind next] }
  | atomic a, place => (a.run place).map fun next => { next with pieces := place.pieces }

/-- What an expression matches at the front of a text. -/
def match? (kind : TokenClass) (e : ParsingExpr) (text : String) : Option TokenMatch :=
  (e.run (.front text)).map fun place => ⟨.ofFront kind place.done, place.pieces⟩

/-- An expression that has to use up the whole text. -/
def anchored (e : ParsingExpr) : ParsingExpr := .both .beginning (.both e .ending)

variable {p : Char → Bool} {done cs : List Char} {c : Char} {pieces : List Span}

@[simp] theorem run_char_nil : (char p).run ⟨done, [], pieces⟩ = none := rfl

@[simp] theorem run_char_cons :
    (char p).run ⟨done, c :: cs, pieces⟩ = if p c then some ⟨done ++ [c], cs, pieces⟩ else none := rfl

theorem run_repeated (a : ParsingExpr) (place : Cursor) :
    (repeated a).run place = (a.run place).map (Cursor.exhaust a.run) := rfl

end ParsingExpr

namespace TokenClass

open ParsingExpr

/-- One of the four operators. -/
def sugarGrammar : ParsingExpr :=
  .either (.char (· = '+')) (.either (.char (· = '^')) (.either (.char (· = '*')) (.char (· = '\x27'))))

/-- Letters, digits and hyphens. -/
def wordGrammar : ParsingExpr := .atomic (.repeated (.either (.char Char.isAlphanum) (.char (· = '-'))))

/-- Digits, and a minus sign in front of them if there is one. -/
def integerGrammar : ParsingExpr := .both (.perhaps (.char (· = '-'))) (.repeated (.char Char.isDigit))

/-- The rule of a class. -/
def grammar : TokenClass → ParsingExpr
  | sugar => sugarGrammar
  | word => wordGrammar
  | atom => anchored (.either (.piece .sugar sugarGrammar) (.piece .word wordGrammar))
  | symbol => .atomic (anchored (.repeated (.char Char.isAlpha)))
  | integer => .atomic (anchored integerGrammar)
  | endOfText => .atomic .ending

end TokenClass
end PolyDeriv
