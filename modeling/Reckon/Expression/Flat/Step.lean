import Reckon.Decimal.Plain
import Reckon.Expression.Journal
import Reckon.Expression.Pair

/-!
# The steps that reduce a flat expression

A flat expression is one without parentheses, apart from a pair around the whole of it.  `check`
rejects it when two of its numbers have no valid operator between them.  `step` does one operation:
the leftmost pair of literals with the operator between them is replaced by the result in plain
notation, and the text is then freed of the spaces and of one pair of parentheses around it
(`unwrap`).  Without such a pair of literals only the freeing is done.
-/

set_option autoImplicit false

namespace Reckon
namespace Flat

/-! ## Checking -/

/-- What must not stand between two numbers, in the order in which it is looked for. -/
def badSeparators : List Separator := [.blanks, .foreign, .spacedPercent]

/-- The first bad block of a text: two numbers and what must not stand between them. -/
def badBlock? (s : Text) : Option Text :=
  badSeparators.findSome? fun sep ↦ ((Pair.pattern sep).search s).map fun o ↦ o.found.text

/-- Rejects a text that has a bad block. -/
def check (s : Text) : Except Fault Unit :=
  match badBlock? s with
  | some block => .error (.badBlock block s)
  | none => .ok ()

/-! ## Freeing a text -/

/-- A text without its last character, if that is a closing parenthesis. -/
def dropClosing? (s : Text) : Option Text :=
  if s.getLast? = some ')' then some s.dropLast else none

/-- A text freed of the spaces around it, and then of one parenthesis at either end, if there is
one at both. -/
def unwrap (s : Text) : Text :=
  match Text.trim s with
  | '(' :: t => (dropClosing? t).getD ('(' :: t)
  | t => t

/-! ## One operation -/

/-- The pairs that an operator makes. -/
def operation (op : Operator) : Pattern Pair := Pair.pattern (.operator op)

/-- Replaces the leftmost pair of an operator by the result. -/
def collapse (scale : Int) (op : Operator) (s : Text) : Traced Text :=
  match (operation op).search s with
  | none => pure s
  | some o => do
    let result ← Traced.ofExcept (op.apply scale o.found.left.value o.found.right.value)
    Traced.record (.collapsed o.found.text result.plain)
    pure (o.before ++ (result.plain ++ o.after))

/-- One operation, if there is one to do, and the freeing that follows it in any case. -/
def step (scale : Int) (op : Operator) (s : Text) : Traced Text := do
  let t ← collapse scale op s
  Traced.record (.unwrapped t)
  pure (unwrap t)

/-- One operation named by its symbol, which has to be one of an operator. -/
def stepNamed (scale : Int) (symbol s : Text) : Traced Text :=
  match Operator.ofText? symbol with
  | some op => step scale op s
  | none => Traced.ofExcept (.error (.unknownOperator symbol))

end Flat
end Reckon
