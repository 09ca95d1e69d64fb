import Reckon.Numeral

/-!
# What can go wrong with an expression

Every way in which evaluation can fail, as a cause.  The wording is `Fault.message`, here and
nowhere else.  Two of the causes are no verdict on the expression: a number that is too long to be
written out, and something that is no text at all.
-/

set_option autoImplicit false

namespace Reckon

/-- Why an expression has no value. -/
inductive Fault where
  /-- Two numbers without a valid operator between them, and the flat expression they stand in. -/
  | badBlock (block expression : Text)
  /-- The divisor of a division is zero. -/
  | divisionByZero
  /-- The divisor of a remainder is zero. -/
  | remainderByZero
  /-- No operator is written like this. -/
  | unknownOperator (symbol : Text)
  /-- What the expression was reduced to is no number. -/
  | notNumeral (result : Text)
  /-- A rounded number has more digits than may be written out. -/
  | overlong
  /-- What was to be evaluated is no text, but a value of another kind. -/
  | notText (kind : Text)
deriving DecidableEq, Repr

namespace Fault

/-- What is said about a number of too many digits, with what else is known about it. -/
def overlongText (detail : Text) : Text :=
  "Exceeds the limit (".toList ++ Numeral.digits Numeral.maxDigits ++
    " digits) for integer string conversion".toList ++ detail ++
    "; use sys.set_int_max_str_digits() to increase the limit".toList

/-- What is said about a fault. -/
def message : Fault → Text
  | .badBlock block expression =>
    "Block [".toList ++ block ++ "] in expression [".toList ++ expression ++ "] invalid".toList
  | .divisionByZero => "Division by zero".toList
  | .remainderByZero => "Remainder by zero".toList
  | .unknownOperator symbol => "Unknown operator: ".toList ++ symbol
  | .notNumeral result =>
    "Result [".toList ++ result ++ "] cannot be converted to number".toList
  | .overlong => overlongText []
  | .notText kind => "expected string or bytes-like object, got '".toList ++ kind ++ "'".toList

/-- Whether a fault is a verdict on the expression, and not on what it takes to evaluate it. -/
def isVerdict : Fault → Bool
  | .overlong | .notText _ => false
  | _ => true

end Fault
end Reckon
