import Reckon.Proofs.Row.Joint

/-!
# Rows of operands

A `Row` is what an expression without groups consists of: operands with operators between them.
What the operands are is left open, since the same row is once written with literals and once valued
with rational numbers, and so is what it means to apply an operator, which may fail.

`workOff` replaces the pairs of one operator by their results, from the left, and `value` works off
one operator after the other until a single operand is left.  That going through the row once is the
same as replacing the leftmost pair over and over is `workOff_eq`.
-/

set_option autoImplicit false

namespace Reckon

/-- Operands with operators between them. -/
structure Row (α : Type) where
  /-- The operand at the left end. -/
  first : α
  /-- The other operands, each with the operator before it. -/
  rest : List (Joint × α)

namespace Row

variable {α β : Type} {m : Type → Type} [Monad m]

/-- The row with each operand replaced by another. -/
def map (f : α → β) (r : Row α) : Row β := ⟨f r.first, r.rest.map fun (j, y) ↦ (j, f y)⟩

/-- The operators of a row, from the left. -/
def operators (rest : List (Joint × α)) : List Operator := rest.map fun p ↦ p.1.operator

/-- Puts an operand in front of a row. -/
def cons (x : α) (j : Joint) (r : Row α) : Row α := ⟨x, (j, r.first) :: r.rest⟩

/-- Replaces the pairs of an operator by their results, always the leftmost one that is left. -/
def workOff (apply : α → α → m α) (op : Operator) : α → List (Joint × α) → m (Row α)
  | x, [] => pure ⟨x, []⟩
  | x, (j, y) :: rest =>
    if j.operator = op then do workOff apply op (← apply x y) rest
    else (cons x j) <$> workOff apply op y rest

/-- Works off one operator after the other. -/
def workOffAll (apply : Operator → α → α → m α) : List Operator → Row α → m (Row α)
  | [], r => pure r
  | op :: ops, r => do workOffAll apply ops (← workOff (apply op) op r.first r.rest)

/-- The one operand that a row comes to when all operators are worked off. -/
def value (apply : Operator → α → α → m α) (r : Row α) : m α :=
  first <$> workOffAll apply Operator.all r

/-- Replaces the leftmost pair of an operator by its result, if there is one. -/
def collapse? (apply : α → α → m α) (op : Operator) : α → List (Joint × α) → Option (m (Row α))
  | _, [] => none
  | x, (j, y) :: rest =>
    if j.operator = op then some ((⟨·, rest⟩) <$> apply x y)
    else (collapse? apply op y rest).map fun r ↦ (cons x j) <$> r

/-- Working off an operator is replacing its leftmost pair until there is none. -/
theorem workOff_eq [LawfulMonad m] (apply : α → α → m α) (op : Operator) (x : α)
    (rest : List (Joint × α)) :
    workOff apply op x rest =
      match collapse? apply op x rest with
      | none => pure ⟨x, rest⟩
      | some r => r >>= fun r ↦ workOff apply op r.first r.rest := by
  induction rest generalizing x with
  | nil => rfl
  | cons pair rest ih =>
    obtain ⟨j, y⟩ := pair
    rw [workOff, collapse?]
    split
    · simp
    · next hne =>
      rw [ih]
      cases collapse? apply op y rest with
      | none => simp [cons]
      | some r => simp [cons, workOff, hne]

/-- Where an operator does not stand there is nothing to work off. -/
theorem workOff_of_not_mem [LawfulMonad m] {apply : α → α → m α} {op : Operator} {x : α}
    {rest : List (Joint × α)} (h : op ∉ operators rest) :
    workOff apply op x rest = pure ⟨x, rest⟩ := by
  induction rest generalizing x with
  | nil => rfl
  | cons pair rest ih =>
    obtain ⟨j, y⟩ := pair
    obtain ⟨hj, hrest⟩ := not_or.1 (mt List.mem_cons.2 h)
    rw [workOff, if_neg (Ne.symm hj), ih hrest, map_pure]
    rfl

theorem workOffAll_of_not_mem [LawfulMonad m] {apply : Operator → α → α → m α} {op : Operator}
    {ops : List Operator} {r : Row α} (h : op ∉ operators r.rest) :
    workOffAll apply (op :: ops) r = workOffAll apply ops r := by
  rw [workOffAll, workOff_of_not_mem h, pure_bind]

end Row
end Reckon
