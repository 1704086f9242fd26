import PolyDeriv.CommandLine.Run

/-!
# The program

The outer layer: it passes the arguments on, writes what comes back, and feeds a session with its input as it
arrives, so that a prompt is written before the line it asks for is read.  What a session comes to this way is
`CommandLine.serve` of the chunks that have arrived.
-/

namespace PolyDeriv
namespace CommandLine

/-- Writes an outcome to the standard streams. -/
private def write (outcome : Outcome) : IO UInt32 := do
  let stdout ← IO.getStdout
  let stderr ← IO.getStderr
  stderr.putStr outcome.stderr
  stdout.putStr outcome.stdout
  stdout.flush
  return outcome.code.toUInt32

/-- Writes a turn of a session, and goes on with the input that arrives; nothing arrives any more at its end. -/
private partial def proceed (settings : Session.Settings) (verbosity : Nat) (turn : Turn) : IO UInt32 := do
  let stdin ← IO.getStdin
  let stdout ← IO.getStdout
  let stderr ← IO.getStderr
  stderr.putStr turn.stderr
  stdout.putStr turn.stdout
  stdout.flush
  match turn.pending with
  | none => return 1
  | some pending =>
    let chunk ← stdin.read 4096
    if chunk.isEmpty then write (finish settings verbosity pending)
    else proceed settings verbosity (feed settings verbosity pending chunk.data.toList)

/-- Runs a command line on the standard streams. -/
def main (args : List String) : IO UInt32 := do
  let stdout ← IO.getStdout
  let terminal ← stdout.isTty
  match parse args with
  | some (.invoke options .session) =>
    proceed (sessionSettings terminal options) options.verbosity (opening terminal options)
  | _ => write (run terminal args .empty)

end CommandLine
end PolyDeriv

def main (args : List String) : IO UInt32 := PolyDeriv.CommandLine.main args
