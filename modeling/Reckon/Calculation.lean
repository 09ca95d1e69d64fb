import Reckon.Expression.Evaluate
import Reckon.Report
import Reckon.Settings.Load

/-!
# Calculations

`calculate` is what the program is for: it evaluates an expression and renders the value, with an
equals sign where it is exact and an approximation sign where it was rounded.  Whatever goes wrong
becomes a report about the expression, that of the settings included, which are asked for the scale
when none is given; only a foreign fault of theirs is passed on without the expression.
-/

set_option autoImplicit false

namespace Reckon

/-! ## Evaluators -/

/-- Something to be evaluated, and the scale for it.  It should be a text, and is found out when it
is evaluated if it is not. -/
structure Evaluator where
  /-- What is to be evaluated. -/
  expression : Json
  /-- The places of the answer. -/
  scale : Int

/-- Evaluates the expression of an evaluator.  What is no whole character in it is replaced. -/
def Evaluator.evaluate (evaluator : Evaluator) : Traced Answer :=
  match evaluator.expression with
  | .string s => Reckon.evaluate evaluator.scale s
  | .broken points => Reckon.evaluate evaluator.scale (Point.replaced points)
  | value => Traced.ofExcept (.error (.notText value.typeName))

/-! ## Rendering -/

/-- An answer as it is shown: an equals sign, or an approximation sign if it was rounded, and the
value in plain notation. -/
def Answer.render (answer : Answer) : Text :=
  (if answer.rounded then '≈' else '=') :: ' ' :: answer.value.plain

/-! ## Calculating -/

/-- What came of a calculation. -/
structure Calculation where
  /-- The steps of the evaluation. -/
  journal : List Event
  /-- The rendered answer, or the report on why there is none. -/
  result : Except Report Text

/-- The calculation that comes to a report about its expression. -/
def Calculation.rejected (journal : List Event) (expression : Json) (report : Report) :
    Calculation :=
  ⟨journal, .error (report.about expression)⟩

/-- Evaluates an expression at a scale and renders the answer. -/
def calculateAt (scale : Int) (expression : Json) : Calculation :=
  let x := (Evaluator.mk expression scale).evaluate
  match x.outcome with
  | .ok answer => ⟨x.journal, .ok answer.render⟩
  | .error e => .rejected x.journal expression (.ofFault e)

/-- Evaluates an expression and renders the answer; without a scale, at the one that is set. -/
def calculate (store : Settings.Store) (expression : Json) (scale : Option Int) : Calculation :=
  match scale with
  | some scale => calculateAt scale expression
  | none =>
    match Settings.scale store with
    | .ok scale => calculateAt scale expression
    | .error (.tooDeep container) => ⟨[], .error (.ofSettings (.tooDeep container))⟩
    | .error e => .rejected [] expression (.ofSettings e)

end Reckon
