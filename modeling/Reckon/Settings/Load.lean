import Reckon.Json.Reader
import Reckon.Settings.Store

/-!
# Reading settings

There are built-in settings, and those of the file are laid over them.  A file that is missing, that
cannot be opened, that breaks the rules of JSON or that holds anything but an object contributes
nothing; it is all of the file or none of it.  Three things are not passed over: a file that is no
text at all, a whole number in it that is too long to be read, and containers inside more others
than the host reads.
-/

set_option autoImplicit false

namespace Reckon
namespace Settings

/-- The key of the scale. -/
def scaleKey : List Point := Point.ofText "decimal_places".toList

/-- The key of the log level. -/
def levelKey : List Point := Point.ofText "log_level".toList

/-- The key that stands for all settings together. -/
def allKey : List Point := Point.ofText "all".toList

/-- The built-in settings. -/
def builtIn : Members := [(scaleKey, .integer 2), (levelKey, .string "WARNING".toList)]

/-- What the content of a settings file contributes. -/
def membersOf (host : Host) (content : ByteArray) : Except Fault Members :=
  match textOf? content with
  | none => .error (.notUtf8 (host.explain content))
  | some s =>
    match Json.read host.readable s with
    | .ok (.object members) => .ok members
    | .ok _ => .ok []
    | .error .malformed => .ok []
    | .error (.overlong digits) => .error (.overlong digits)
    | .error (.tooDeep container) => .error (.tooDeep container)

/-- All settings: the built-in ones, with those of the file laid over them. -/
def all (store : Store) : Except Fault Members :=
  match store.content? with
  | none => .ok builtIn
  | some content => (membersOf store.host content).map builtIn.overlay

/-- The value of a setting, null for one that is nowhere set; one key stands for all of them. -/
def load (store : Store) (key : List Point) : Except Fault Json :=
  (all store).map fun settings ↦
    if key = allKey then .object settings else (Members.get? settings key).getD .null

/-- The scale that is set. -/
def scale (store : Store) : Except Fault Int :=
  match load store scaleKey with
  | .ok (.integer z) => .ok z
  | .ok value => .error (.badScale value)
  | .error e => .error e

end Settings
end Reckon
