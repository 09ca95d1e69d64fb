import Reckon.Json.Spelling
import Reckon.Settings.Load
import Reckon.Text.Uppercase

/-!
# Log levels

How much is told on the side hangs on a log level.  An environment variable names it, if it is set
to more than white space, and the settings do otherwise; case is of no account.  The first logger
that is asked for fixes the threshold for good, whatever the level may be called later.  A name that
is unknown stands for warnings.  Two names belong to the layout of messages, though, and to ask for
a logger at one of them is a fault; the threshold of warnings is then the one that is fixed.
-/

set_option autoImplicit false

namespace Reckon
namespace Settings

/-- The threshold of warnings, which is also that of every name that is unknown. -/
def warningLevel : Nat := 30

/-- The threshold of the most detailed messages. -/
def debugLevel : Nat := 10

/-- The names of levels and their thresholds. -/
def levels : List (Text × Nat) :=
  [("NOTSET".toList, 0), ("DEBUG".toList, debugLevel), ("INFO".toList, 20),
    ("WARN".toList, warningLevel), ("WARNING".toList, warningLevel), ("ERROR".toList, 40),
    ("CRITICAL".toList, 50), ("FATAL".toList, 50)]

/-- The names that belong to the layout of messages, and the faults of taking them for levels. -/
def layoutNames : List (Text × Fault) :=
  [("BASIC_FORMAT".toList, .levelIsLayout), ("_STYLES".toList, .levelIsStyles)]

/-- The threshold of a level. -/
def thresholdOf (level : Text) : Except Fault Nat :=
  match layoutNames.lookup level with
  | some e => .error e
  | none => .ok ((levels.lookup level).getD warningLevel)

/-- The name of the logger for which none was given. -/
def defaultLogger : Text := "expreval".toList

/-- Everything around a calculation that bears on it. -/
structure Surroundings where
  /-- The settings. -/
  store : Store
  /-- The environment variable for the log level, if it is set. -/
  levelVariable : Option Text
  /-- The threshold below which nothing is told, once a logger has fixed it. -/
  fixedThreshold : Option Nat

namespace Surroundings

/-- The name of the level in force. -/
def level (around : Surroundings) : Except Fault Text :=
  match Text.trim (around.levelVariable.getD []) with
  | [] => (load around.store levelKey).map fun value ↦ Text.upper value.shown
  | name => .ok (Text.upper name)

/-- The threshold below which nothing is told. -/
def threshold (around : Surroundings) : Nat := around.fixedThreshold.getD warningLevel

/-- Whether the most detailed messages are told. -/
def tellsDetails (around : Surroundings) : Bool := around.threshold ≤ debugLevel

/-- Fixes the threshold at that of a level, unless it is fixed already. -/
def fix (around : Surroundings) (level : Text) : Except Fault Unit × Surroundings :=
  match around.fixedThreshold with
  | some _ => (.ok (), around)
  | none =>
    match thresholdOf level with
    | .ok n => (.ok (), { around with fixedThreshold := some n })
    | .error e => (.error e, { around with fixedThreshold := some warningLevel })

/-- The name that a logger goes by. -/
def loggerName : Option Text → Text
  | none | some [] => defaultLogger
  | some name => name

/-- Asks for a logger: the name it goes by, and the surroundings with the threshold fixed.  The
level has to be known even when the threshold is fixed already. -/
def openLogger (around : Surroundings) (name : Option Text) :
    Except Fault Text × Surroundings :=
  match around.level with
  | .error e => (.error e, around)
  | .ok level =>
    let (fixed, around) := around.fix level
    (fixed.map fun _ ↦ loggerName name, around)

end Surroundings
end Settings
end Reckon
