import Reckon.Decimal.Basic
import Reckon.Expression.Fault

/-!
# Operators

The five operators of an expression, and what each does to two numbers.  `Operator.all` lists them
in the order in which they are worked off, which is also their precedence: every division before any
multiplication, all sums before any difference, and remainders last of all.

Sums, differences, products and remainders are exact.  A quotient is rounded to four places more
than the answer will have.
-/

set_option autoImplicit false

namespace Reckon

/-- An operation on two numbers. -/
inductive Operator where
  | divide
  | times
  | plus
  | minus
  | remainder
deriving DecidableEq, Repr

namespace Operator

/-- The operators in the order in which they are worked off. -/
def all : List Operator := [.divide, .times, .plus, .minus, .remainder]

/-- The character that writes an operator. -/
def symbol : Operator → Char
  | .divide => '/'
  | .times => '*'
  | .plus => '+'
  | .minus => '-'
  | .remainder => '%'

/-- The operator that a text writes: it has to be that one character and nothing more. -/
def ofText? (s : Text) : Option Operator := all.find? fun op ↦ s = [op.symbol]

/-- The place of an operator in the order of work, counted from zero. -/
def rank (op : Operator) : Nat := all.idxOf op

/-- The places that a quotient keeps beyond those of the answer. -/
def guardPlaces : Int := 4

/-- The quotient of two decimals at a scale: the nearest decimal with `guardPlaces` more places. -/
def quotient (scale : Int) (a b : Decimal) : Except Fault Decimal :=
  if b.isZero then .error .divisionByZero
  else match Decimal.round? (a.toRat / b.toRat) (scale + guardPlaces) with
    | some d => .ok d
    | none => .error .overlong

/-- What an operator makes of two decimals at a scale. -/
def apply (op : Operator) (scale : Int) (a b : Decimal) : Except Fault Decimal :=
  match op with
  | .plus => .ok (a.add b)
  | .minus => .ok (a.sub b)
  | .times => .ok (a.mul b)
  | .divide => quotient scale a b
  | .remainder => if b.isZero then .error .remainderByZero else .ok (a.rem b)

/-- The operation that a text names, which has to be one of the operators, done to two decimals. -/
def applyNamed (scale : Int) (symbol : Text) (a b : Decimal) : Except Fault Decimal :=
  match ofText? symbol with
  | some op => op.apply scale a b
  | none => .error (.unknownOperator symbol)

/-! ## The written rule -/

/-- The rule of a literal, as a regular expression with one group. -/
def literalRule : String := "(-?[0-9]+\\.[0-9]+|-?[0-9]+)"

/-- The symbol of an operator inside a regular expression. -/
def symbolRule : Operator → String
  | .divide => "\\/"
  | .times => "\\*"
  | .plus => "\\+"
  | .minus => "\\-"
  | .remainder => "%"

/-- The rule of an operation as a regular expression: two literals, and the symbol between them
with any blanks around it. -/
def rule (op : Operator) : String :=
  literalRule ++ "\\s*" ++ op.symbolRule ++ "\\s*" ++ literalRule

end Operator
end Reckon
