import Reckon.Decimal.Scientific
import Reckon.Main
import Reckon.Proofs.Outcome
import Reckon.Proofs.Parentheses.Forest
import Reckon.Proofs.Parentheses.Recursion
import Reckon.Proofs.Parentheses.Pass
import Reckon.Proofs.Fuel
import Reckon.Proofs.Parentheses.Replacement
import Reckon.Proofs.Row.Joint
import Reckon.Proofs.Row.Basic
import Reckon.Proofs.Step
import Reckon.Proofs.Row.Reduce
import Reckon.Proofs.Margin
import Reckon.Proofs.Spaces
import Reckon.Proofs.Decimal.Nearest
import Reckon.Proofs.Decimal.Rounding
import Reckon.Proofs.Decimal.Exact
import Reckon.Proofs.Row.Compact
import Reckon.Proofs.Row.Minus
import Reckon.Proofs.Blanks
import Reckon.Proofs.Row.Excess
import Reckon.Proofs.Reckoning
import Reckon.Proofs.Row.Neutral
import Reckon.Proofs.Formula.Syntax
import Reckon.Proofs.Formula.Evaluate
import Reckon.Proofs.Course
import Reckon.Proofs.Journal
import Reckon.Proofs.Parentheses.Depth
import Reckon.Proofs.Cost
import Reckon.Proofs.Parentheses.Balance
import Reckon.Proofs.Parentheses.Outer
import Reckon.Proofs.Parentheses.Partners
import Reckon.Proofs.Stray
import Reckon.Proofs.Decimal.Reading
import Reckon.Proofs.Faults
import Reckon.Proofs.Pair
import Reckon.Proofs.Separation
import Reckon.Proofs.Scale
import Reckon.Proofs.Operation
import Reckon.Proofs.Quotient
import Reckon.Proofs.TwiceRounded
import Reckon.Proofs.Differences
import Reckon.Proofs.Rendering
import Reckon.Proofs.Operand.Missing
import Reckon.Proofs.Operand.Whole
import Reckon.Proofs.Operand.Draft
import Reckon.Proofs.Rereading
import Reckon.Proofs.Binary64.Nearest
import Reckon.Proofs.Binary64.Shortest
import Reckon.Proofs.Json.Grammar
import Reckon.Proofs.Json.Members
import Reckon.Proofs.Json.Strings
import Reckon.Proofs.Json.Number
import Reckon.Proofs.Json.Lexeme
import Reckon.Proofs.Json.Layout
import Reckon.Proofs.Json.Reading
import Reckon.Proofs.Json.Nesting
import Reckon.Proofs.Json.Bindings
import Reckon.Proofs.Json.Writing
import Reckon.Proofs.Json.Floats
import Reckon.Proofs.Settings.Keeping
import Reckon.Proofs.Program.Arguments
import Reckon.Proofs.Program.Run
import Reckon.Proofs.Settings.Overriding
