import PolyDeriv.CommandLine.Arguments

/-!
# Arguments for every request

All options and commands can be asked for, with the options in front of the command
(`CommandLine.parse_options_command`) or behind it (`CommandLine.parse_command_options`).  The values of options stand
behind equals signs, `-v` is repeated, and operands stand behind `--`, so that variables and expressions may be any
texts, even such as look like options.
-/

namespace PolyDeriv
namespace CommandLine

/-! ### Arguments -/

/-- The word for a choice of colour. -/
def ColourChoice.word : ColourChoice → String
  | auto => "auto"
  | always => "always"
  | never => "never"

/-- An option with a value, as one argument. -/
def setting (name value : String) : String := "--" ++ name ++ "=" ++ value

/-- Arguments for options. -/
def Options.arguments (options : Options) : List String :=
  setting "var" options.var :: setting "color" options.colour.word :: List.replicate options.verbosity "-v"

/-- What the arguments for options stand for. -/
def Options.items (options : Options) : List Item :=
  .var options.var :: .colour options.colour :: List.replicate options.verbosity .verbose

/-- The word for a command. -/
def CommandName.word : CommandName → String
  | session => "repl"
  | derivative => "d/dx"
  | simplify => "simplify"

/-- The name of a command. -/
def Command.name : Command → CommandName
  | session => .session
  | derivative _ => .derivative
  | simplify _ => .simplify

/-- What a command works on. -/
def Command.operands : Command → List String
  | session => []
  | derivative expression | simplify expression => [expression]

private theorem ofString_setting {name : String} (h : '=' ∉ name.toList) (value : String) :
    Argument.ofString (setting name value) = .long name (some value) := by
  have chars : (setting name value).toList = '-' :: '-' :: (name.toList ++ '=' :: value.toList) := by
    simp [setting]
  have in_name : ∀ c ∈ name.toList, decide (c ≠ '=') = true := fun c hc =>
    decide_eq_true fun equals => h (equals ▸ hc)
  have front : (name.toList ++ '=' :: value.toList).takeWhile (· ≠ '=') = name.toList := by
    rw [List.takeWhile_append_of_pos in_name]
    simp
  have back : (name.toList ++ '=' :: value.toList).dropWhile (· ≠ '=') = '=' :: value.toList := by
    rw [List.dropWhile_append_of_pos in_name]
    simp
  rw [Argument.ofString, chars]
  -- something stands behind the hyphens
  cases rest : name.toList ++ '=' :: value.toList with
  | nil => exact absurd rest (by simp)
  | cons c cs =>
    rw [rest] at front back
    simp only [front, back, String.ofList_toList]

private theorem ofArguments_setting {name : String} (h : '=' ∉ name.toList) (value : String) (rest : List String) :
    Item.ofArguments (setting name value :: rest) = Item.ofSetting name value :: Item.ofArguments rest := by
  rw [Item.ofArguments, ofString_setting h]

private theorem ofArguments_verbose (n : Nat) (rest : List String) :
    Item.ofArguments (List.replicate n "-v" ++ rest) = List.replicate n .verbose ++ Item.ofArguments rest := by
  have letter : Argument.ofString "-v" = .short ['v'] := by decide
  induction n with
  | zero => rfl
  | succ n ih =>
    rw [List.replicate_succ, List.cons_append, Item.ofArguments, letter, ih]
    rfl

private theorem ofArguments_options (options : Options) (rest : List String) :
    Item.ofArguments (options.arguments ++ rest) = options.items ++ Item.ofArguments rest := by
  have colour : Item.ofSetting "color" options.colour.word = .colour options.colour := by
    cases options.colour <;> rfl
  rw [Options.arguments, List.cons_append, List.cons_append, ofArguments_setting (by decide),
    ofArguments_setting (by decide), ofArguments_verbose, colour]
  rfl

private theorem ofArguments_operands (operands : List String) :
    Item.ofArguments ("--" :: operands) = .endOfOptions :: operands.map .operand := by
  have hyphens : Argument.ofString "--" = .endOfOptions := by decide
  rw [Item.ofArguments, hyphens]

private theorem ofArguments_word (name : CommandName) (rest : List String) :
    Item.ofArguments (name.word :: rest) = .operand name.word :: Item.ofArguments rest := by
  have shape : Argument.ofString name.word = .operand name.word := by cases name <;> decide
  rw [Item.ofArguments, shape]

/-! ### Items -/

/-- What has been given when options have been read. -/
def Options.given (options : Options) : Given := ⟨options.var, options.colour, options.verbosity⟩

/-- Whoever counts requests for more of the log one by one counts them all. -/
private theorem count_verbose {α : Type} (read : Given → List Item → α)
    (one : ∀ given rest, read given (.verbose :: rest) = read given.addVerbose rest) (given : Given) (n : Nat)
    (rest : List Item) :
    read given (List.replicate n .verbose ++ rest) = read { given with verbosity := given.verbosity + n } rest := by
  induction n generalizing given with
  | zero => rfl
  | succ n ih =>
    rw [List.replicate_succ, List.cons_append, one, ih, Given.addVerbose, Nat.add_right_comm, Nat.add_assoc]

private theorem parseItems_options (options : Options) (rest : List Item) :
    parseItems {} (options.items ++ rest) = parseItems options.given rest := by
  have counted := count_verbose parseItems (fun _ _ => rfl) ⟨options.var, options.colour, 0⟩ options.verbosity rest
  rw [Nat.zero_add] at counted
  exact counted

private theorem parseCommand_options (name : CommandName) (before : Given) (options : Options) (rest : List Item) :
    parseCommand name before {} [] (options.items ++ rest) = parseCommand name before options.given [] rest := by
  have counted := count_verbose (parseCommand name before · []) (fun _ _ => rfl) ⟨options.var, options.colour, 0⟩
    options.verbosity rest
  rw [Nat.zero_add] at counted
  exact counted

private theorem parseItems_word (given : Given) (name : CommandName) (rest : List Item) :
    parseItems given (.operand name.word :: rest) = parseCommand name given {} [] rest := by
  have found : CommandName.ofString? name.word = some name := by cases name <;> rfl
  have other : name.word ≠ "help" := by cases name <;> decide
  rw [parseItems, if_neg other, found]

private theorem parseCommand_operands (command : Command) (before given : Given) :
    parseCommand command.name before given [] (.endOfOptions :: command.operands.map .operand) =
      some (.invoke (.ofGiven before given) command) := by
  cases command <;> rfl

/-! ### Command lines -/

/-- Every request can be made with the options in front of the command. -/
theorem parse_options_command (options : Options) (command : Command) :
    parse (options.arguments ++ command.name.word :: "--" :: command.operands) = some (.invoke options command) := by
  have in_force : Options.ofGiven options.given {} = options := rfl
  rw [parse, ofArguments_options, parseItems_options, ofArguments_word, ofArguments_operands, parseItems_word,
    parseCommand_operands, in_force]

/-- Every request can be made with the options behind the command. -/
theorem parse_command_options (options : Options) (command : Command) :
    parse (command.name.word :: (options.arguments ++ "--" :: command.operands)) = some (.invoke options command) := by
  have in_force : Options.ofGiven {} options.given = options := by
    cases options with
    | mk var colour verbosity => cases verbosity <;> rfl
  rw [parse, ofArguments_word, ofArguments_options, ofArguments_operands, parseItems_word, parseCommand_options,
    parseCommand_operands, in_force]

end CommandLine
end PolyDeriv
