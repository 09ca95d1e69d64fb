import Reckon.Calculation
import Reckon.Program.Arguments
import Reckon.Program.Checkout
import Reckon.Settings.Level

/-!
# A run of the program

`start` takes a run as far as it gets without input: to its finish, or to where an expression has to
be asked for.  `run` puts the first line of the input there, and so is a whole run as a function,
from the arguments, the input, the files around the program and the settings to the exit status and
what is written on the two channels.

The answer goes to standard output.  Standard error gets the report when there is no answer and,
where details are told, the steps of the evaluation before it.
-/

set_option autoImplicit false

namespace Reckon
namespace Program

/-- Everything a run depends on, the input apart. -/
structure Invocation where
  /-- The arguments of the command line. -/
  arguments : List Text
  /-- The files beside the program, by their names. -/
  present : List Text
  /-- Settings and environment. -/
  surroundings : Settings.Surroundings
  /-- The lines that explain the program. -/
  explanation : List Text
  /-- The lines on arguments that are refused. -/
  refusal : List Text

/-- What a run leaves behind. -/
structure Finish where
  /-- The exit status. -/
  status : Nat
  /-- The lines on standard output. -/
  output : List Text
  /-- The lines on standard error. -/
  errors : List Text

/-- Why a run breaks off. -/
inductive Break where
  /-- The settings cannot be read. -/
  | settings (e : Settings.Fault)
  /-- A fault comes up in a calculation that the program is not prepared for. -/
  | foreign (report : Report)
  /-- An expression was asked for, and there is no input. -/
  | endOfInput

/-- How far a run gets without input. -/
inductive Stage where
  /-- It is finished. -/
  | finished (finish : Finish)
  /-- An expression has to be asked for by a line, and with it the run is finished. -/
  | asking (prompt : Text) (finish : Text → Except Break Finish)

/-- The name under which the steps of an evaluation are told. -/
def engineLogger : Text := "ExprEval.ExprEngine".toList

/-- The name under which the program itself tells what it does. -/
def programLogger : Text := "expreval.main".toList

/-- A detail told under a name. -/
def detailLine (logger message : Text) : Text :=
  "DEBUG | ".toList ++ logger ++ " | ".toList ++ message

/-- The line that asks for an expression. -/
def promptLine : Text := "Enter the problem: ".toList

/-- The first line of a text, which has to have something in it. -/
def firstLine? (s : Text) : Option Text :=
  if s.isEmpty then none else some (s.takeWhile (· ≠ '\n'))

/-- The finish when files are missing. -/
def finishMissing (names : List Text) : Finish :=
  ⟨1, "Error: The following files are missing or in the wrong location:".toList ::
    names.map fun name ↦ '-' :: ' ' :: name, []⟩

/-- The finish of a calculation. -/
def finishCalculation (details : Bool) (expression : Text) (calculation : Calculation) :
    Except Break Finish :=
  let steps := (calculation.journal.filterMap Event.message?).map (detailLine engineLogger)
  match calculation.result with
  | .ok answer => .ok ⟨0, [answer], if details then steps else []⟩
  | .error report =>
    match report.kind with
    | .foreign => .error (.foreign report)
    | _ =>
      let rejection := detailLine programLogger
        ("Expression [".toList ++ expression ++ "] rejected with code ".toList ++ report.code)
      .ok ⟨1, [], (if details then steps ++ [rejection] else []) ++ [report.describe]⟩

/-- Evaluates an expression for the user, or asks for one. -/
def startEvaluation (around : Settings.Surroundings) (expression : Option Text)
    (scale : Option Int) : Except Break Stage :=
  match around.openLogger programLogger with
  | (.error e, _) => .error (.settings e)
  | (.ok _, around) =>
    let finish (expression : Text) : Except Break Finish :=
      finishCalculation around.tellsDetails expression
        (calculate around.store (.string expression) scale)
    match expression with
    | some expression => (finish expression).map .finished
    | none => .ok (.asking promptLine finish)

/-- A run of the program, up to its finish or to where it needs input. -/
def start (invocation : Invocation) : Except Break Stage :=
  match missing invocation.present with
  | [] =>
    match request invocation.arguments with
    | .evaluate expression scale => startEvaluation invocation.surroundings expression scale
    | .help => .ok (.finished ⟨0, invocation.explanation, []⟩)
    | .invalid => .ok (.finished ⟨2, [], invocation.refusal⟩)
  | names => .ok (.finished (finishMissing names))

/-- A whole run of the program on an input. -/
def run (invocation : Invocation) (input : Text) : Except Break Finish :=
  match start invocation with
  | .error e => .error e
  | .ok (.finished finish) => .ok finish
  | .ok (.asking prompt finish) =>
    match firstLine? input with
    | none => .error .endOfInput
    | some expression =>
      (finish expression).map fun finish ↦ { finish with output := prompt :: finish.output }

/-- Lines as they are written, each ended by a line feed. -/
def linesText (lines : List Text) : Text := lines.flatMap fun line ↦ line ++ ['\n']

end Program
end Reckon
