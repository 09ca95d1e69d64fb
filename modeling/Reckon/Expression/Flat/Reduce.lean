import Reckon.Expression.Flat.Weight

/-!
# Reducing a flat expression

`reduce` checks a flat expression and then works off the operators in the order of `Operator.all`:
`exhaust` repeats the step of one operator until it changes nothing.  That it ever does is
`step_lt`, so there is no bound on the number of steps to be given.
-/

set_option autoImplicit false

namespace Reckon
namespace Flat

/-- Repeats the step of an operator until it changes nothing. -/
def exhaust (scale : Int) (op : Operator) (s : Text) : Traced Text :=
  match _hstep : step scale op s with
  | ⟨journal, .error e⟩ => ⟨journal, .error e⟩
  | ⟨journal, .ok t⟩ =>
    if _hne : t = s then ⟨journal, .ok s⟩
    else
      let rest := exhaust scale op t
      ⟨journal ++ rest.journal, rest.outcome⟩
termination_by (weight s, s.length)
decreasing_by exact step_lt (congrArg Traced.outcome _hstep) _hne

/-- Works off one operator after the other. -/
def exhaustAll (scale : Int) : List Operator → Text → Traced Text
  | [], s => pure s
  | op :: ops, s => do exhaustAll scale ops (← exhaust scale op s)

/-- Reduces a flat expression, once it is found to have no bad block. -/
def reduce (scale : Int) (s : Text) : Traced Text := do
  Traced.ofExcept (check s)
  exhaustAll scale Operator.all s

end Flat
end Reckon
