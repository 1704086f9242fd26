import PolyDeriv.Session

/-!
# The log

What can be watched while texts are evaluated.  The log is a function of the input like the result: an entry stands
for a step that was reached, and it is left out where an earlier step failed.  Choosing how much of the log to show
changes nothing else.  The choice is made by the verbosity alone: no variable of the environment is read, so that the
entries of a topic cannot be asked for by themselves.
-/

namespace PolyDeriv

/-- How much of the log one has to ask for before an entry of this kind is shown. -/
inductive LogLevel
  | info
  | debug
  | trace
deriving DecidableEq

namespace LogLevel

/-- The level's name, in a column of five. -/
def label : LogLevel → String
  | info => "INFO "
  | debug => "DEBUG"
  | trace => "TRACE"

/-- The least verbosity that shows entries of this level. -/
def threshold : LogLevel → Nat
  | info => 1
  | debug => 2
  | trace => 3

end LogLevel

/-- One thing to be seen in the log. -/
structure LogEntry where
  level : LogLevel
  topic : String
  text : String
deriving DecidableEq

namespace LogEntry

/-- The line for an entry. -/
def render (entry : LogEntry) : String :=
  "[" ++ entry.level.label ++ " " ++ entry.topic ++ "] " ++ entry.text ++ "\n"

end LogEntry

namespace Log

/-- The lines shown at a verbosity. -/
def render (verbosity : Nat) (entries : List LogEntry) : String :=
  String.join ((entries.filter (·.level.threshold ≤ verbosity)).map LogEntry.render)

/-- The log of reading a text. -/
def reading (text : String) : List LogEntry :=
  [⟨.trace, "symdiff::sexp", writeCount (tokensOf text).length ++ " token(s)"⟩]

/-- The log of a derivative that was found. -/
def derivative (var : String) (p d : Poly) : List LogEntry :=
  [⟨.debug, "symdiff", "d/d" ++ var ++ " " ++ p.render ++ " = " ++ d.render⟩]

/-- An entry about a step of simplification. -/
def simplifying (text : String) : LogEntry := ⟨.debug, "symdiff::simplify", text⟩

/-- The log of simplifying an expression. -/
def simplification (p : Poly) : List LogEntry :=
  match p.distribute 1 with
  | .error _ => []
  | .ok distributed =>
    [simplifying ("distributed: " ++ distributed.render),
      simplifying ("flattened into " ++ writeCount distributed.summands.length ++ " term(s)")] ++
    match p.simplify with
    | .error _ => []
    | .ok q => [simplifying ("simplified " ++ p.render ++ " to " ++ q.render)]

/-- The log of `derivativeText`. -/
def derivativeText (var text : String) : List LogEntry :=
  reading text ++
    match (do let p ← Poly.read text; return (p, ← p.derivative var)) with
    | .error _ => []
    | .ok (p, d) => derivative var p d

/-- The log of `simplifiedText`. -/
def simplifiedText (text : String) : List LogEntry :=
  reading text ++
    match Poly.read text with
    | .error _ => []
    | .ok p => simplification p

/-- The log of `simplifiedDerivativeText`. -/
def simplifiedDerivativeText (var text : String) : List LogEntry :=
  reading text ++
    match (do let p ← Poly.read text; return (p, ← p.derivative var)) with
    | .error _ => []
    | .ok (p, d) => derivative var p d ++ simplification d

/-- The log of the start of a session. -/
def sessionStart (settings : Session.Settings) : List LogEntry :=
  [⟨.info, "symdiff::repl", "differentiating with respect to " ++ settings.var⟩]

/-- The log of the replies to lines, up to the first that is not text. -/
def replies (settings : Session.Settings) : List (List UInt8) → List LogEntry
  | [] => []
  | line :: lines =>
    match decodeLine? line with
    | none => []
    | some text =>
      (if Session.isBlank text then [] else simplifiedDerivativeText settings.var text) ++ replies settings lines

/-- The log of a whole session. -/
def session (settings : Session.Settings) (input : ByteArray) : List LogEntry :=
  sessionStart settings ++ replies settings (splitLines input.data.toList)

end Log
end PolyDeriv
