import PolyDeriv.Error

/-!
# Coloured parentheses

On a terminal, the two parentheses of a pair are shown in the same colour, and nested pairs in different ones.  The
colour belongs to the number of pairs around a parenthesis, its own included; deeper pairs go through the palette
again and again.  Nothing else in the text is changed.
-/

namespace PolyDeriv

/-- The colours of nested parentheses, out of a terminal's 256. -/
def defaultPalette : List UInt8 := [19, 124, 202, 11, 34, 51]

/-- The escape sequence that switches to a colour. -/
def colourOn (colour : UInt8) : List Char := '\x1b' :: '[' :: "38;5;".toList ++ Nat.toDigits 10 colour.toNat ++ ['m']

/-- The escape sequence that switches back. -/
def colourOff : List Char := '\x1b' :: "[0m".toList

/-- A parenthesis in a colour. -/
def painted (colour : UInt8) (paren : Char) : List Char := colourOn colour ++ paren :: colourOff

/-- Paints the parentheses of a text that starts inside `depth` pairs.  There is no result if they do not match. -/
def paintFrom (colourOf : Nat → UInt8) : (depth : Nat) → List Char → Option (List Char)
  | 0, [] => some []
  | _ + 1, [] => none
  | depth, c :: cs =>
    if c = '(' then (paintFrom colourOf (depth + 1) cs).map (painted (colourOf (depth + 1)) c ++ ·)
    else if c = ')' then
      match depth with
      | 0 => none
      | outer + 1 => (paintFrom colourOf outer cs).map (painted (colourOf (outer + 1)) c ++ ·)
    else (paintFrom colourOf depth cs).map (c :: ·)

/-- The colour of parentheses at a depth. -/
def colourAt (palette : List UInt8) (h : palette.length ≠ 0) (depth : Nat) : UInt8 :=
  palette.get ⟨depth % palette.length, Nat.mod_lt _ (Nat.pos_of_ne_zero h)⟩

/-- Paints the parentheses of a text. -/
def paint (palette : List UInt8) (text : String) : Except Error String :=
  if h : palette.length = 0 then .error (.invariant .emptyPalette)
  else
    match paintFrom (colourAt palette h) 0 text.toList with
    | some cs => .ok (String.ofList cs)
    | none => .error (.parse (.unbalanced text))

/-- A text as it is shown.  If it cannot be painted, it is shown as it is. -/
def display (coloured : Bool) (text : String) : String :=
  if coloured then
    match paint defaultPalette text with
    | .ok painted => painted
    | .error _ => text
  else text

end PolyDeriv
