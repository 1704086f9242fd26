import PolyDeriv.Evaluation

/-!
# Arguments of the command line

A command line is a list of options, a command, and the options and operands of the command.  The same options are
understood in both places.  Within one place only `--verbose` may be repeated; if both places give an option, the one
next to the operands is taken.

An argument is an option if it starts with a hyphen and goes on.  The value of an option stands behind an equals
sign, or is the next argument, provided that this is not an option itself.  The argument `--` ends the options.
-/

namespace PolyDeriv
namespace CommandLine

/-- When to colour parentheses. -/
inductive ColourChoice
  /-- Colour what goes to a terminal. -/
  | auto
  | always
  | never
deriving DecidableEq

namespace ColourChoice

/-- The choice a word stands for. -/
def ofString? (text : String) : Option ColourChoice :=
  if text = "auto" then some auto
  else if text = "always" then some always
  else if text = "never" then some never
  else none

end ColourChoice

/-- An argument by its shape. -/
inductive Argument
  | operand (text : String)
  /-- A name behind two hyphens, perhaps with a value behind an equals sign. -/
  | long (name : String) (value : Option String)
  /-- Letters behind one hyphen. -/
  | short (letters : List Char)
  /-- Two hyphens alone. -/
  | endOfOptions
deriving DecidableEq

namespace Argument

/-- The shape of an argument. -/
def ofString (text : String) : Argument :=
  match text.toList with
  | ['-', '-'] => endOfOptions
  | '-' :: '-' :: cs =>
    let name := String.ofList (cs.takeWhile (· ≠ '='))
    match cs.dropWhile (· ≠ '=') with
    | [] => long name none
    | _ :: value => long name (some (String.ofList value))
  | '-' :: c :: cs => short (c :: cs)
  | _ => operand text

end Argument

/-- What an argument, or an argument and its value, asks for. -/
inductive Item
  | var (name : String)
  | colour (choice : ColourChoice)
  | verbose
  | help
  | version
  | operand (text : String)
  | endOfOptions
  | invalid
deriving DecidableEq

namespace Item

/-- The option with a value that a name stands for. -/
def ofSetting (name value : String) : Item :=
  if name = "var" then var value
  else if name = "color" then
    match ColourChoice.ofString? value with
    | some choice => colour choice
    | none => invalid
  else invalid

/-- Whether an option has a value. -/
def takesValue (name : String) : Bool := name = "var" || name = "color"

/-- The option without a value that a name stands for. -/
def ofName (name : String) : Item :=
  if name = "verbose" then verbose
  else if name = "help" then help
  else if name = "version" then version
  else invalid

/-- The option that a letter stands for. -/
def ofLetter (c : Char) : Item :=
  if c = 'v' then verbose else if c = 'h' then help else if c = 'V' then version else invalid

/-- The items that arguments stand for. -/
def ofArguments : List String → List Item
  | [] => []
  | text :: rest =>
    match Argument.ofString text with
    | .operand text => operand text :: ofArguments rest
    | .endOfOptions => endOfOptions :: rest.map operand
    | .short letters => letters.map ofLetter ++ ofArguments rest
    | .long name (some value) => ofSetting name value :: ofArguments rest
    | .long name none =>
      if takesValue name then
        match rest with
        | [] => [invalid]
        | value :: rest =>
          match Argument.ofString value with
          | .operand value => ofSetting name value :: ofArguments rest
          | _ => [invalid]
      else ofName name :: ofArguments rest

end Item

/-- The options given in one place. -/
structure Given where
  var : Option String := none
  colour : Option ColourChoice := none
  verbosity : Nat := 0
deriving DecidableEq

namespace Given

/-- Adds a variable, unless there is one. -/
def addVar (given : Given) (name : String) : Option Given :=
  if given.var.isSome then none else some { given with var := some name }

/-- Adds a choice of colour, unless there is one. -/
def addColour (given : Given) (choice : ColourChoice) : Option Given :=
  if given.colour.isSome then none else some { given with colour := some choice }

/-- Counts a request for more of the log. -/
def addVerbose (given : Given) : Given := { given with verbosity := given.verbosity + 1 }

end Given

/-- The options in force. -/
structure Options where
  var : String := defaultVariable
  colour : ColourChoice := .auto
  verbosity : Nat := 0
deriving DecidableEq

namespace Options

/-- Options given in two places, the second of which counts where both say something. -/
def ofGiven (first second : Given) : Options where
  var := (second.var.or first.var).getD defaultVariable
  colour := (second.colour.or first.colour).getD .auto
  verbosity := if second.verbosity = 0 then first.verbosity else second.verbosity

end Options

/-- The commands by name. -/
inductive CommandName
  | session
  | derivative
  | simplify
deriving DecidableEq

namespace CommandName

/-- The command a word stands for. -/
def ofString? (text : String) : Option CommandName :=
  if text = "repl" then some session
  else if text = "d/dx" || text = "ddx" then some derivative
  else if text = "simplify" then some simplify
  else none

/-- How many operands a command takes. -/
def arity : CommandName → Nat
  | session => 0
  | derivative | simplify => 1

end CommandName

/-- The commands with their operands. -/
inductive Command
  | session
  | derivative (expression : String)
  | simplify (expression : String)
deriving DecidableEq

/-- What a command line asks for. -/
inductive Request
  | help
  | version
  | invoke (options : Options) (command : Command)
deriving DecidableEq

/-- The command with the given operands. -/
def Command.ofOperands : CommandName → List String → Option Command
  | .session, [] => some .session
  | .derivative, [expression] => some (.derivative expression)
  | .simplify, [expression] => some (.simplify expression)
  | _, _ => none

/-- Reads the options and operands of a command; `before` holds the options in front of it.  A surplus operand is
refused as soon as it is met. -/
def parseCommand (name : CommandName) (before : Given) : (given : Given) → (operands : List String) → List Item →
    Option Request
  | given, operands, [] => (Command.ofOperands name operands).map (.invoke (.ofGiven before given))
  | given, operands, .var v :: rest => do parseCommand name before (← given.addVar v) operands rest
  | given, operands, .colour c :: rest => do parseCommand name before (← given.addColour c) operands rest
  | given, operands, .verbose :: rest => parseCommand name before given.addVerbose operands rest
  | given, operands, .operand text :: rest =>
    if operands.length < name.arity then parseCommand name before given (operands ++ [text]) rest else none
  | given, operands, .endOfOptions :: rest => parseCommand name before given operands rest
  | _, _, .help :: _ => some .help
  | _, _, .version :: _ => none
  | _, _, .invalid :: _ => none

/-- Reads what a request for help is about: nothing in particular, or a command. -/
def parseHelp : List Item → Option Request
  | [] => some .help
  | [.operand topic] => if topic = "help" || (CommandName.ofString? topic).isSome then some .help else none
  | _ => none

/-- Reads what is left of a command line after the given options. -/
def parseItems : Given → List Item → Option Request
  | _, [] => none
  | given, .var v :: rest => do parseItems (← given.addVar v) rest
  | given, .colour c :: rest => do parseItems (← given.addColour c) rest
  | given, .verbose :: rest => parseItems given.addVerbose rest
  | given, .operand text :: rest =>
    if text = "help" then parseHelp rest
    else
      match CommandName.ofString? text with
      | none => none
      | some name => parseCommand name given {} [] rest
  | _, .help :: _ => some .help
  | _, .version :: _ => some .version
  | _, .endOfOptions :: _ => none
  | _, .invalid :: _ => none

/-- What a command line asks for, if it is in order. -/
def parse (args : List String) : Option Request := parseItems {} (Item.ofArguments args)

end CommandLine
end PolyDeriv
