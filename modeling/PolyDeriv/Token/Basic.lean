/-!
# Tokens

A text is a sequence of parentheses and words.  Space, tab, newline and carriage return separate words and mean
nothing else; every other character, in ASCII or not, belongs to a word.  A word is never cut: it ends only at a
separator, at a parenthesis or at the end of the text.

The text is read from its end, so that `Scan.close` of what has been read is always the list of tokens of the
suffix behind the current place.
-/

namespace PolyDeriv

/-- The characters that separate tokens. -/
def isSeparator (c : Char) : Bool := c = ' ' || c = '\t' || c = '\n' || c = '\r'

/-- A parenthesis or a word. -/
inductive Token
  | opening
  | closing
  | word (text : String)
deriving DecidableEq

namespace Token

/-- The text a token stands for. -/
def text : Token → String
  | opening => "("
  | closing => ")"
  | word w => w

end Token

/-- What has been read of a suffix: the tokens that are complete, and in front of them the run of word characters
that the text before the suffix may still extend. -/
structure Scan where
  run : List Char
  tokens : List Token

namespace Scan

/-- The tokens of the suffix when the run ends here. -/
def close (s : Scan) : List Token := if s.run.isEmpty then s.tokens else .word (String.ofList s.run) :: s.tokens

/-- Reads the character in front of the suffix. -/
def push (c : Char) (s : Scan) : Scan :=
  if c = '(' then ⟨[], .opening :: s.close⟩
  else if c = ')' then ⟨[], .closing :: s.close⟩
  else if isSeparator c then ⟨[], s.close⟩
  else ⟨c :: s.run, s.tokens⟩

/-- Reads a text in front of the tokens that follow it. -/
def before (following : List Token) (cs : List Char) : Scan := cs.foldr push ⟨[], following⟩

@[simp] theorem before_nil (following : List Token) : before following [] = ⟨[], following⟩ := rfl

@[simp] theorem before_cons (following : List Token) (c : Char) (cs : List Char) :
    before following (c :: cs) = push c (before following cs) := rfl

theorem before_append (following : List Token) (as bs : List Char) :
    before following (as ++ bs) = as.foldr push (before following bs) := List.foldr_append

end Scan

/-- The parentheses and words of a text, in order. -/
def tokensOf (text : String) : List Token := (Scan.before [] text.toList).close

end PolyDeriv
