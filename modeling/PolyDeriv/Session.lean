import PolyDeriv.Colour
import PolyDeriv.Evaluation
import PolyDeriv.Text.Lines

/-!
# Sessions

A session reads a polynomial from every line and answers with its simplified derivative, or with an error message;
then it goes on with the next line.  Blank lines are passed over in silence, but for a new prompt.  A line that is
not text ends the session.
-/

namespace PolyDeriv
namespace Session

/-- What a session is asked for. -/
structure Settings where
  var : String := defaultVariable
  coloured : Bool := false

/-- The first line that is written. -/
def greeting : String := "d/dx, simplify, print"

/-- What asks for a line. -/
def prompt : String := "d/dx "

/-- What a session starts with. -/
def header : String := "\n" ++ greeting ++ "\n\n" ++ prompt

/-- The answer to a line. -/
def answer (settings : Settings) (line : String) : String :=
  match simplifiedDerivativeText settings.var line with
  | .ok result => display settings.coloured result
  | .error e => "Error: " ++ e.message

/-- Whether a line has nothing but separators. -/
def isBlank (line : String) : Bool := line.toList.all isSeparator

/-- What is written after a line: the answer, unless the line is blank, and a prompt for the next one. -/
def reply (settings : Settings) (line : String) : String :=
  (if isBlank line then "" else answer settings line ++ "\n") ++ "\n" ++ prompt

/-- What is written in a session or in a part of it, and whether all lines were text. -/
structure Transcript where
  output : String
  readable : Bool
deriving DecidableEq

/-- The replies to lines, up to the first that is not text. -/
def replies (settings : Settings) : List (List UInt8) → Transcript
  | [] => ⟨"", true⟩
  | line :: lines =>
    match decodeLine? line with
    | none => ⟨"", false⟩
    | some text =>
      let rest := replies settings lines
      ⟨reply settings text ++ rest.output, rest.readable⟩

/-- A whole session on the given input. -/
def run (settings : Settings) (input : ByteArray) : Transcript :=
  let body := replies settings (splitLines input.data.toList)
  ⟨header ++ body.output ++ (if body.readable then "\n" else ""), body.readable⟩

end Session
end PolyDeriv
