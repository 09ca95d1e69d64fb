import Reckon.Expression.Nested.Pass

/-!
# Working off all parentheses

`resolve` repeats the pass over the innermost groups until it changes nothing, and `reduce` then
treats what is left as a flat expression.  Parentheses without a partner stay where they are.
-/

set_option autoImplicit false

namespace Reckon
namespace Nested

/-- Repeats the pass until it changes nothing, the first one having the number `number`. -/
def resolveFrom (scale : Int) (number : Nat) (s : Text) : Traced Text :=
  match _hpass : pass scale s with
  | ⟨journal, .error e⟩ => ⟨journal, .error e⟩
  | ⟨journal, .ok t⟩ =>
    if _hne : t = s then ⟨journal, .ok s⟩
    else
      let rest := resolveFrom scale (number + 1) t
      ⟨journal ++ .passed number s t :: rest.journal, rest.outcome⟩
termination_by s.count '('
decreasing_by exact count_pass_lt (congrArg Traced.outcome _hpass) _hne

/-- Replaces groups by what they reduce to, until there are none. -/
def resolve (scale : Int) (s : Text) : Traced Text := resolveFrom scale 1 s

/-- Reduces an expression with groups in it. -/
def reduce (scale : Int) (s : Text) : Traced Text := do
  Flat.reduce scale (← resolve scale s)

end Nested
end Reckon
