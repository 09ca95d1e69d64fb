import Reckon.Expression.Nested.Resolve

/-!
# The value of an expression

`evaluate` reduces an expression and rounds the number that is left.  The answer also says whether
rounding changed that number, so that an answer which is only approximate can be told from an exact
one.  A reduced text that is not exactly one literal is no number, and a fault.
-/

set_option autoImplicit false

namespace Reckon

/-- The value of an expression at a scale. -/
structure Answer where
  /-- The rounded value. -/
  value : Decimal
  /-- Whether rounding changed it. -/
  rounded : Bool
deriving DecidableEq, Repr

/-- The scale of an answer for which none was asked for. -/
def defaultScale : Int := 2

/-- The answer that a reduced text stands for. -/
def conclude (scale : Int) (s : Text) : Except Fault Answer :=
  match Literal.ofText? s with
  | none => .error (.notNumeral s)
  | some l =>
    match Decimal.round? l.value.toRat scale with
    | none => .error .overlong
    | some value => .ok ⟨value, decide (value.toRat ≠ l.value.toRat)⟩

/-- Adds to the journal that the evaluation of `s` failed, if that is a verdict on `s`. -/
def Traced.noteFailure {α : Type} (s : Text) (x : Traced α) : Traced α :=
  match x.outcome with
  | .ok _ => x
  | .error e =>
    if e.isVerdict then { x with journal := x.journal ++ [.failed s e.message] } else x

/-- Evaluates an expression: reduces it and rounds what is left. -/
def evaluate (scale : Int) (s : Text) : Traced Answer :=
  Traced.noteFailure s do
    let t ← Nested.reduce scale s
    Traced.ofExcept (conclude scale t)

end Reckon
