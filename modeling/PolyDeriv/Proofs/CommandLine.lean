import PolyDeriv.CommandLine.Run
import PolyDeriv.Proofs.Arguments
import PolyDeriv.Proofs.Session

/-!
# Outcomes of command lines

What the exit code and the output of a command line that is in order depend on (`CommandLine.outcome_of_run`): the
variable has to be a symbol, and then a command that evaluates an expression needs a result, and a session needs lines
that are texts.  How much of the log is shown makes no difference to them (`CommandLine.execute_verbosity`).
Whatever the options and the command are, there is a command line that gives them (`CommandLine.run_arguments`).

A script that finds its output knows the result, since what is shown tells the text (`CommandLine.reports_outcomeOf`).
-/

namespace PolyDeriv

theorem isSymbol_iff_accepts {var : String} : IsSymbol var ↔ TokenClass.symbol.accepts var = true :=
  accepts_symbol_iff.symm

namespace CommandLine

/-- An outcome tells the result of an evaluation, or what is wrong with it: the variable, if that is not a symbol, and
otherwise the error.  Only a result is written to the standard output, and only with a result the code is zero. -/
structure Reports (outcome : Outcome) (coloured : Bool) (var : String) (evaluated : Except Error String) : Prop where
  success : ∀ result, (outcome.code = 0 ∧ outcome.stdout = display coloured result ++ "\n") ↔
    (IsSymbol var ∧ evaluated = .ok result)
  invalid : ¬ IsSymbol var → outcome.code = 1 ∧ outcome.stdout = "" ∧ ∃ before,
    outcome.stderr = before ++ ("bound variable " ++ quoted var ++ " is not an alphabetic symbol") ++ "\n"
  failure : ∀ e, IsSymbol var → evaluated = .error e →
    outcome.code = 1 ∧ outcome.stdout = "" ∧ ∃ before, outcome.stderr = before ++ e.message ++ "\n"

section

variable {options : Options} {args : List String} {command : Command} {input : ByteArray}

theorem run_of_parse {terminal : Bool} (h : parse args = some (.invoke options command)) (input : ByteArray) :
    run terminal args input = execute terminal options command input := by
  rw [run, h]

/-- Every command can be run under all options. -/
theorem run_arguments (terminal : Bool) (options : Options) (command : Command) (input : ByteArray) :
    run terminal (options.arguments ++ command.name.word :: "--" :: command.operands) input =
      execute terminal options command input :=
  run_of_parse (parse_options_command options command) input

/-- Off a terminal, only the choice to colour always makes a difference. -/
private theorem enabled_false (choice : ColourChoice) : choice.enabled false = decide (choice = .always) := by
  cases choice <;> rfl

theorem execute_of_not_isSymbol {terminal : Bool} (h : ¬ IsSymbol options.var) :
    execute terminal options command input = ⟨1, "", invalidVariable options.var⟩ :=
  if_neg (mt isSymbol_iff_accepts.2 h)

theorem execute_session {terminal : Bool} (h : IsSymbol options.var) :
    (execute terminal options .session input).code =
        (if (Session.run (sessionSettings terminal options) input).readable then 0 else 1) ∧
      (execute terminal options .session input).stdout = (Session.run (sessionSettings terminal options) input).output := by
  rw [execute, if_pos (isSymbol_iff_accepts.1 h)]
  dsimp only
  split <;> exact ⟨rfl, rfl⟩

theorem execute_derivative {terminal : Bool} {expression : String} (h : IsSymbol options.var) :
    execute terminal options (.derivative expression) input = outcomeOf (options.colour.enabled terminal)
      (Log.render options.verbosity (Log.derivativeText options.var expression))
      ("error taking derivative of " ++ expression) (derivativeText options.var expression) :=
  if_pos (isSymbol_iff_accepts.1 h)

theorem execute_simplify {terminal : Bool} {expression : String} (h : IsSymbol options.var) :
    execute terminal options (.simplify expression) input = outcomeOf (options.colour.enabled terminal)
      (Log.render options.verbosity (Log.simplifiedText expression))
      ("error simplifying " ++ expression) (simplifiedText expression) :=
  if_pos (isSymbol_iff_accepts.1 h)

/-! ### Evaluations -/

private theorem reports_of_not_isSymbol {terminal coloured : Bool} {evaluated : Except Error String}
    (h : ¬ IsSymbol options.var) : Reports (execute terminal options command input) coloured options.var evaluated := by
  rw [execute_of_not_isSymbol h]
  exact ⟨fun result => by simp [h], fun _ => ⟨rfl, rfl, "Error: ", rfl⟩, fun e valid => absurd valid h⟩

/-- The result is told from what is written, even in colour. -/
theorem reports_outcomeOf {coloured : Bool} {log context var : String} (h : IsSymbol var)
    (evaluated : Except Error String) : Reports (outcomeOf coloured log context evaluated) coloured var evaluated := by
  refine ⟨fun result => ?_, fun invalid => absurd h invalid, ?_⟩
  · rw [and_iff_right h]
    cases evaluated with
    | ok s =>
      have same_result : display coloured s ++ "\n" = display coloured result ++ "\n" ↔ s = result := by
        rw [String.append_left_inj, (display_injective coloured).eq_iff]
      simpa [outcomeOf] using same_result
    | error e => simp [outcomeOf]
  · rintro e - rfl
    have layout : log ++ failureWithCause context e.message =
        (log ++ ("Error: " ++ context ++ "\n\nCaused by:\n    ")) ++ e.message ++ "\n" := by
      simp only [failureWithCause, String.append_assoc]
    exact ⟨rfl, rfl, _, layout⟩

theorem reports_derivative (terminal : Bool) (options : Options) (expression : String) (input : ByteArray) :
    Reports (execute terminal options (.derivative expression) input) (options.colour.enabled terminal) options.var
      (derivativeText options.var expression) := by
  by_cases h : IsSymbol options.var
  · rw [execute_derivative h]
    exact reports_outcomeOf h _
  · exact reports_of_not_isSymbol h

theorem reports_simplify (terminal : Bool) (options : Options) (expression : String) (input : ByteArray) :
    Reports (execute terminal options (.simplify expression) input) (options.colour.enabled terminal) options.var
      (simplifiedText expression) := by
  by_cases h : IsSymbol options.var
  · rw [execute_simplify h]
    exact reports_outcomeOf h _
  · exact reports_of_not_isSymbol h

/-! ### Sessions -/

/-- Some line of the input is not text. -/
def HasUnreadableLine (input : ByteArray) : Prop :=
  ∃ lines, FallsInto input.data.toList lines ∧ ∃ line ∈ lines, ∀ text, utf8 text ≠ line

theorem readable_run_iff {settings : Session.Settings} :
    (Session.run settings input).readable = true ↔ ¬ HasUnreadableLine input := by
  have lines_iff : HasUnreadableLine input ↔ ∃ line ∈ splitLines input.data.toList, ∀ text, utf8 text ≠ line := by
    simp only [HasUnreadableLine, fallsInto_iff_splitLines, exists_eq_left']
  have body : (Session.run settings input).readable =
      (Session.replies settings (splitLines input.data.toList)).readable := rfl
  rw [lines_iff, body, Session.readable_replies_iff]
  simp

/-- A session fails only by its variable or by its input. -/
theorem code_session (terminal : Bool) (options : Options) (input : ByteArray) :
    ((execute terminal options .session input).code = 0 ∨ (execute terminal options .session input).code = 1) ∧
      ((execute terminal options .session input).code = 1 ↔ (¬ IsSymbol options.var ∨ HasUnreadableLine input)) := by
  by_cases h : IsSymbol options.var
  · have readable_iff := @readable_run_iff input (sessionSettings terminal options)
    rw [(execute_session h).1, or_iff_right (not_not.2 h)]
    by_cases unreadable : HasUnreadableLine input
    · rw [if_neg (mt readable_iff.1 (not_not.2 unreadable))]
      exact ⟨.inr rfl, iff_of_true rfl unreadable⟩
    · rw [if_pos (readable_iff.2 unreadable)]
      exact ⟨.inl rfl, iff_of_false (by decide) unreadable⟩
  · rw [execute_of_not_isSymbol h]
    exact ⟨.inr rfl, iff_of_true rfl (.inl h)⟩

/-! ### What outcomes do not depend on -/

private theorem outcomeOf_log (coloured : Bool) (log other context : String) (evaluated : Except Error String) :
    (outcomeOf coloured log context evaluated).code = (outcomeOf coloured other context evaluated).code ∧
      (outcomeOf coloured log context evaluated).stdout = (outcomeOf coloured other context evaluated).stdout := by
  cases evaluated <;> exact ⟨rfl, rfl⟩

/-- However much of the log is shown, the code and the output are the same. -/
theorem execute_verbosity (terminal : Bool) (options : Options) (n : Nat) (command : Command) (input : ByteArray) :
    (execute terminal options command input).code =
        (execute terminal { options with verbosity := n } command input).code ∧
      (execute terminal options command input).stdout =
        (execute terminal { options with verbosity := n } command input).stdout := by
  by_cases h : IsSymbol options.var
  · have same_variable : IsSymbol { options with verbosity := n }.var := h
    cases command with
    | session =>
      rw [(execute_session h).1, (execute_session h).2, (execute_session same_variable).1,
        (execute_session same_variable).2]
      exact ⟨rfl, rfl⟩
    | derivative expression =>
      rw [execute_derivative h, execute_derivative same_variable]
      exact outcomeOf_log _ _ _ _ _
    | simplify expression =>
      rw [execute_simplify h, execute_simplify same_variable]
      exact outcomeOf_log _ _ _ _ _
  · have same_variable : ¬ IsSymbol { options with verbosity := n }.var := h
    rw [execute_of_not_isSymbol h, execute_of_not_isSymbol same_variable]
    exact ⟨rfl, rfl⟩

private theorem execute_simplify_var {terminal : Bool} {var expression : String} (h : IsSymbol options.var)
    (hvar : IsSymbol var) : execute terminal { options with var := var } (.simplify expression) input =
      execute terminal options (.simplify expression) input := by
  have other_variable : IsSymbol { options with var := var }.var := hvar
  rw [execute_simplify h, execute_simplify other_variable]

end

/-- The outcome of a command line in order, off a terminal.  Evaluations report their results, and nothing but results is
written to the standard output; a session fails only by its variable, before anything is written, or by a line that is
not text.  The log makes no difference, and the variable makes none to a simplification, as long as it is a symbol. -/
theorem outcome_of_run :
    (∀ args options expression input, parse args = some (.invoke options (.derivative expression)) →
      Reports (run false args input) (options.colour = .always) options.var
        (derivativeText options.var expression)) ∧
    (∀ args options expression input, parse args = some (.invoke options (.simplify expression)) →
      Reports (run false args input) (options.colour = .always) options.var (simplifiedText expression)) ∧
    (∀ args options input, parse args = some (.invoke options .session) →
      ((run false args input).code = 0 ∨ (run false args input).code = 1) ∧
        ((run false args input).code = 1 ↔ (¬ IsSymbol options.var ∨ HasUnreadableLine input)) ∧
          (¬ IsSymbol options.var → (run false args input).stdout = "")) ∧
    (∀ args others options n command input, parse args = some (.invoke options command) →
      parse others = some (.invoke { options with verbosity := n } command) →
        (run false args input).code = (run false others input).code ∧
          (run false args input).stdout = (run false others input).stdout) ∧
    ∀ args others options var expression input, parse args = some (.invoke options (.simplify expression)) →
      parse others = some (.invoke { options with var := var } (.simplify expression)) →
        IsSymbol options.var → IsSymbol var → run false args input = run false others input := by
  refine ⟨?_, ?_, ?_, ?_, ?_⟩
  · intro args options expression input h
    rw [run_of_parse h, ← enabled_false]
    exact reports_derivative false options expression input
  · intro args options expression input h
    rw [run_of_parse h, ← enabled_false]
    exact reports_simplify false options expression input
  · intro args options input h
    obtain ⟨zero_or_one, failed_iff⟩ := code_session false options input
    rw [run_of_parse h]
    refine ⟨zero_or_one, failed_iff, fun invalid => ?_⟩
    rw [execute_of_not_isSymbol invalid]
  · intro args others options n command input h hother
    rw [run_of_parse h, run_of_parse hother]
    exact execute_verbosity false options n command input
  · intro args others options var expression input h hother valid hvar
    rw [run_of_parse h, run_of_parse hother]
    exact (execute_simplify_var valid hvar).symm

/-- A derivative in colour, a polynomial in another variable, a variable that is none, a line that is not text, and a
simplification with the log or with another variable. -/
theorem outcome_of_run_always :
    ((run false ["--color=always", "d/dx", "(^ x 2)"] .empty).code = 0 ∧
      (run false ["--color=always", "d/dx", "(^ x 2)"] .empty).stdout = display true "( * 2 ( ^ x 1 ) )" ++ "\n") ∧
    ((run false ["ddx", "(^ y 2)"] .empty).code = 1 ∧ (run false ["ddx", "(^ y 2)"] .empty).stdout = "") ∧
    ((run false ["--var", "x2", "simplify", "1"] .empty).code = 1 ∧
      (run false ["--var", "x2", "simplify", "1"] .empty).stdout = "") ∧
    (run false ["repl"] ⟨#[255]⟩).code = 1 ∧
    (run false ["simplify", "1"] .empty).stdout = (run false ["simplify", "1", "-v"] .empty).stdout ∧
    run false ["simplify", "1"] .empty = run false ["simplify", "1", "--var", "y"] .empty := by
  obtain ⟨derivatives, simplifications, sessions, verbosities, any_symbol⟩ := outcome_of_run
  have symbol_x : IsSymbol "x" := isSymbol_iff_accepts.2 (by decide)
  have symbol_y : IsSymbol "y" := isSymbol_iff_accepts.2 (by decide)
  have no_symbol : ¬ IsSymbol "x2" := mt isSymbol_iff_accepts.1 (by decide)
  have in_colour := derivatives ["--color=always", "d/dx", "(^ x 2)"] { colour := .always } "(^ x 2)" .empty
    (by decide +kernel)
  have mismatched := derivatives ["ddx", "(^ y 2)"] {} "(^ y 2)" .empty (by decide +kernel)
  have refused := simplifications ["--var", "x2", "simplify", "1"] { var := "x2" } "1" .empty (by decide +kernel)
  have found : derivativeText "x" "(^ x 2)" = .ok "( * 2 ( ^ x 1 ) )" := by decide +kernel
  have not_found : derivativeText "x" "(^ y 2)" = .error (.variableMismatch "x" "y") := by decide +kernel
  have unreadable : HasUnreadableLine ⟨#[255]⟩ := by
    have not_text : ∀ text, utf8 text ≠ [255] := decodeLine?_eq_none_iff.1 (by decide +kernel)
    exact ⟨[[255]], .last (by decide) (by decide), [255], by simp, not_text⟩
  have plain : parse ["simplify", "1"] = some (.invoke {} (.simplify "1")) := by decide +kernel
  refine ⟨(in_colour.success _).2 ⟨symbol_x, found⟩, ?_, ?_, ?_, ?_, ?_⟩
  · obtain ⟨code, stdout, -⟩ := mismatched.failure _ symbol_x not_found
    exact ⟨code, stdout⟩
  · obtain ⟨code, stdout, -⟩ := refused.invalid no_symbol
    exact ⟨code, stdout⟩
  · exact (sessions ["repl"] {} ⟨#[255]⟩ (by decide +kernel)).2.1.2 (.inr unreadable)
  · exact (verbosities _ ["simplify", "1", "-v"] {} 1 _ .empty plain (by decide +kernel)).2
  · exact any_symbol _ ["simplify", "1", "--var", "y"] {} "y" "1" .empty plain (by decide +kernel) symbol_x symbol_y

end CommandLine
end PolyDeriv
