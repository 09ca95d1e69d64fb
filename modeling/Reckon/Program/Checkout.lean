import Reckon.Text.Basic

/-!
# Source checkouts

The program may run from a source checkout, which is told by its project description, or installed.
In a checkout all of its own files have to be where they belong; `missing` names those that are not.
Installed, nothing is asked for.
-/

set_option autoImplicit false

namespace Reckon
namespace Program

/-- The file that tells a checkout. -/
def markerFile : Text := "pyproject.toml".toList

/-- The files that a checkout has to have. -/
def requiredFiles : List Text :=
  ["ExprEval/ExprEngine.py".toList, "ExprEval/Grammar.py".toList, "ExprEval/error.py".toList,
    "ExprEval/config_manager.py".toList, "config.json".toList]

/-- The part of a file's name behind its directories. -/
def baseName (s : Text) : Text := (s.reverse.takeWhile (· ≠ '/')).reverse

/-- Whether the files that are present make a checkout. -/
def isCheckout (present : List Text) : Bool := present.contains markerFile

/-- The base names of the files that a checkout lacks. -/
def missing (present : List Text) : List Text :=
  if isCheckout present then
    (requiredFiles.filter fun name ↦ !present.contains name).map baseName
  else []

end Program
end Reckon
