import Reckon.Program.Run

/-!
# The command line

Reads what a run depends on, the environment, the settings file and the files beside the program,
and writes what the run leaves behind.  Everything that is decided is decided in
`Reckon.Program.Run`.
-/

set_option autoImplicit false

open Reckon Reckon.Program

/-- The line that shows what arguments there are. -/
def usageLine : Text := "usage: reckon [-h] [--scale SCALE] [expression]".toList

/-- The lines that explain the program. -/
def explanation : List Text := [usageLine, [], "Evaluate an arithmetic expression.".toList]

/-- The content of a file, if it can be read. -/
def readFile? (path : String) : IO (Option ByteArray) := do
  try
    return some (← IO.FS.readBinFile path)
  catch _ =>
    return none

/-- The settings: the file that the environment names, or else the one beside the program. -/
def readStore (directory : String) : IO Settings.Store := do
  let name := Text.trim ((← IO.getEnv "EXPREVAL_CONFIG").getD "").toList
  if name.isEmpty then
    match ← readFile? (directory ++ "/config.json") with
    | some content => return ⟨content, .project, .usual⟩
    | none => return .fresh
  else
    match ← readFile? (String.ofList name) with
    | some content => return ⟨.empty, .file content, .usual⟩
    | none => return .fresh

/-- Those of some files that are in a directory. -/
def filesIn (directory : String) (names : List Text) : IO (List Text) :=
  names.filterM fun name ↦ do
    return (← readFile? (directory ++ "/" ++ String.ofList name)).isSome

/-- Writes what a run leaves behind. -/
def emit (finish : Finish) : IO UInt32 := do
  (← IO.getStderr).putStr (String.ofList (linesText finish.errors))
  (← IO.getStdout).putStr (String.ofList (linesText finish.output))
  return finish.status.toUInt32

/-- What there is to say about a run that breaks off. -/
def whyBroken : Break → Text
  | .settings e => (Report.ofSettings e).message
  | .foreign report => report.message
  | .endOfInput => "no expression was given".toList

/-- Says why a run breaks off. -/
def breakOff (message : Text) : IO UInt32 := do
  (← IO.getStderr).putStr (String.ofList (linesText [message]))
  return 1

/-- Runs the program. -/
def main (arguments : List String) : IO UInt32 := do
  let directory := toString (← IO.appDir)
  let level := (← IO.getEnv "EXPREVAL_LOG_LEVEL").map String.toList
  let invocation : Invocation :=
    { arguments := arguments.map String.toList
      present := ← filesIn directory (markerFile :: requiredFiles)
      surroundings := ⟨← readStore directory, level, none⟩
      explanation := explanation
      refusal := [usageLine] }
  match start invocation with
  | .error e => breakOff (whyBroken e)
  | .ok (.finished finish) => emit finish
  | .ok (.asking prompt finish) =>
    (← IO.getStdout).putStr (String.ofList (linesText [prompt]))
    (← IO.getStdout).flush
    match firstLine? (← (← IO.getStdin).getLine).toList with
    | none => breakOff (whyBroken .endOfInput)
    | some expression =>
      match finish expression with
      | .ok finish => emit finish
      | .error e => breakOff (whyBroken e)
