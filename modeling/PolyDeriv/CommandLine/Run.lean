import PolyDeriv.CommandLine.Arguments
import PolyDeriv.Log

/-!
# Running a command line

The outcome of a command line is an exit code and what is written to the two output streams.  The code is 0 if there
is a result, 1 if there is an error to report, and 2 if the command line itself is out of order.  In a session only a
line that is not text is an error; polynomials at fault are answered, and the session goes on.

A session does not wait for the end of its input: it replies to the lines that are complete whenever a chunk of the
input has arrived, and remembers the bytes behind them.

The usage text is worded by hand, for requests for help and for command lines out of order alike.  Help and messages
that are generated from a table of the options read otherwise; the exit code and the stream they go to are the same.
-/

namespace PolyDeriv
namespace CommandLine

/-- What a command line comes to. -/
structure Outcome where
  code : Nat
  stdout : String
  stderr : String
deriving DecidableEq

/-- What is printed for the version. -/
def versionText : String := "symdiff 0.1.0\n"

/-- How the program is to be called. -/
def usageText : String :=
  "Usage: symdiff [OPTIONS] <COMMAND>\n\n" ++
  "Commands:\n" ++
  "  repl                   Differentiate, simplify and print one polynomial per input line\n" ++
  "  d/dx <EXPRESSION>      Take the derivative in the bound variable, without simplifying\n" ++
  "  simplify <EXPRESSION>  Normalize a polynomial into a flat sum of monomials\n" ++
  "  help                   Print this message\n\n" ++
  "Options:\n" ++
  "      --var <VAR>        Variable to differentiate with respect to [default: x]\n" ++
  "      --color <COLOR>    When to colour matching parentheses: auto, always or never [default: auto]\n" ++
  "  -v, --verbose...       Increase log verbosity (-v info, -vv debug, -vvv trace)\n" ++
  "  -h, --help             Print this message\n" ++
  "  -V, --version          Print the version\n"

namespace ColourChoice

/-- Whether to colour, on a terminal or elsewhere. -/
def enabled (terminal : Bool) : ColourChoice → Bool
  | auto => terminal
  | always => true
  | never => false

end ColourChoice

/-- The settings of a session under the given options. -/
def sessionSettings (terminal : Bool) (options : Options) : Session.Settings where
  var := options.var
  coloured := options.colour.enabled terminal

/-- The report of a failure that has no further cause. -/
def failure (text : String) : String := "Error: " ++ text ++ "\n"

/-- The report of a failure and its cause. -/
def failureWithCause (context cause : String) : String :=
  "Error: " ++ context ++ "\n\nCaused by:\n    " ++ cause ++ "\n"

/-- The report on a variable that is not a symbol. -/
def invalidVariable (var : String) : String :=
  failure ("bound variable " ++ quoted var ++ " is not an alphabetic symbol")

/-- The report on input that is not text. -/
def unreadableInput : String := failureWithCause "error reading user input" "stream did not contain valid UTF-8"

/-- The outcome of a command that evaluates one expression. -/
def outcomeOf (coloured : Bool) (log context : String) : Except Error String → Outcome
  | .ok result => ⟨0, display coloured result ++ "\n", log⟩
  | .error e => ⟨1, "", log ++ failureWithCause context e.message⟩

/-- Runs a command under options that are in order. -/
def execute (terminal : Bool) (options : Options) (command : Command) (input : ByteArray) : Outcome :=
  let coloured := options.colour.enabled terminal
  if TokenClass.symbol.accepts options.var then
    match command with
    | .session =>
      let settings := sessionSettings terminal options
      let transcript := Session.run settings input
      let log := Log.render options.verbosity (Log.session settings input)
      if transcript.readable then ⟨0, transcript.output, log⟩
      else ⟨1, transcript.output, log ++ unreadableInput⟩
    | .derivative expression =>
      outcomeOf coloured (Log.render options.verbosity (Log.derivativeText options.var expression))
        ("error taking derivative of " ++ expression) (derivativeText options.var expression)
    | .simplify expression =>
      outcomeOf coloured (Log.render options.verbosity (Log.simplifiedText expression))
        ("error simplifying " ++ expression) (simplifiedText expression)
  else ⟨1, "", invalidVariable options.var⟩

/-! ### Sessions as their input arrives -/

/-- What a session writes at a part of its input, and the bytes that are pending from there on, unless the session
fails. -/
structure Turn where
  stdout : String
  stderr : String
  pending : Option (List UInt8)

namespace Turn

/-- The outcome if a session goes on like this from the bytes that are pending after a turn. -/
def andThen (turn : Turn) (rest : List UInt8 → Outcome) : Outcome :=
  match turn.pending with
  | none => ⟨1, turn.stdout, turn.stderr⟩
  | some pending =>
    let outcome := rest pending
    ⟨outcome.code, turn.stdout ++ outcome.stdout, turn.stderr ++ outcome.stderr⟩

end Turn

/-- What a session begins with. -/
def opening (terminal : Bool) (options : Options) : Turn :=
  if TokenClass.symbol.accepts options.var then
    ⟨Session.header, Log.render options.verbosity (Log.sessionStart (sessionSettings terminal options)), some []⟩
  else ⟨"", invalidVariable options.var, none⟩

/-- The replies when a chunk of the input arrives behind pending bytes. -/
def feed (settings : Session.Settings) (verbosity : Nat) (pending chunk : List UInt8) : Turn :=
  let lines := completeLines (pending ++ chunk)
  let transcript := Session.replies settings lines
  let log := Log.render verbosity (Log.replies settings lines)
  if transcript.readable then ⟨transcript.output, log, some (pendingBytes (pending ++ chunk))⟩
  else ⟨transcript.output, log ++ unreadableInput, none⟩

/-- What is left to do at the end of the input, when the pending bytes turn out to be the last line. -/
def finish (settings : Session.Settings) (verbosity : Nat) (pending : List UInt8) : Outcome :=
  let lines := splitLines pending
  let transcript := Session.replies settings lines
  let log := Log.render verbosity (Log.replies settings lines)
  if transcript.readable then ⟨0, transcript.output ++ "\n", log⟩
  else ⟨1, transcript.output, log ++ unreadableInput⟩

/-- The outcome of a session with pending bytes, if these chunks arrive one after the other and then the input ends. -/
def serve (settings : Session.Settings) (verbosity : Nat) : (pending : List UInt8) → List (List UInt8) → Outcome
  | pending, [] => finish settings verbosity pending
  | pending, chunk :: chunks =>
    (feed settings verbosity pending chunk).andThen fun later => serve settings verbosity later chunks

/-- Runs a command line. -/
def run (terminal : Bool) (args : List String) (input : ByteArray) : Outcome :=
  match parse args with
  | none => ⟨2, "", usageText⟩
  | some .help => ⟨0, usageText, ""⟩
  | some .version => ⟨0, versionText, ""⟩
  | some (.invoke options command) => execute terminal options command input

end CommandLine
end PolyDeriv
