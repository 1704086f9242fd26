import PolyDeriv.Text.Printable

/-!
# Quoted text

Text between double quotes, in a form that stays on one line and shows every character: the quote and the
backslash are written behind a backslash, four controls have a letter, and any other character that is not
printable is written by its code point.
-/

namespace PolyDeriv

/-- The form of one character between quotes. -/
def quotedChar (c : Char) : List Char :=
  if c = '"' || c = '\\' then ['\\', c]
  else if c = '\t' then ['\\', 't']
  else if c = '\n' then ['\\', 'n']
  else if c = '\r' then ['\\', 'r']
  else if c.toNat = 0 then ['\\', '0']
  else if isPrintable c then [c]
  else ['\\', 'u', '\x7b'] ++ Nat.toDigits 16 c.toNat ++ ['\x7d']

/-- A text between quotes. -/
def quoted (text : String) : String := "\"" ++ String.ofList (text.toList.flatMap quotedChar) ++ "\""

end PolyDeriv
