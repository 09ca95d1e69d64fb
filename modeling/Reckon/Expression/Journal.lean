import Reckon.Expression.Fault

/-!
# The journal of an evaluation

Evaluation tells what it does.  A `Traced` computation has an outcome, a value or a fault, and a
journal of the steps that led to it; a fault ends the computation but not the journal, which keeps
what was done before.  Not every step is worth telling a reader: `Event.message?` says which are,
and how.
-/

set_option autoImplicit false

namespace Reckon

/-- A step of an evaluation. -/
inductive Event where
  /-- Two literals and their operator were replaced by the result. -/
  | collapsed (pair result : Text)
  /-- A text was freed of the spaces and of the parentheses around it. -/
  | unwrapped (text : Text)
  /-- An innermost group was replaced by what it was reduced to. -/
  | grouped (group result : Text)
  /-- A pass over all innermost groups changed the text; passes are counted from one. -/
  | passed (number : Nat) (before after : Text)
  /-- The evaluation of an expression came to a fault. -/
  | failed (expression message : Text)
deriving DecidableEq, Repr

/-- How a step is told, for the steps that are. -/
def Event.message? : Event → Option Text
  | .collapsed pair result => some (pair ++ " -> ".toList ++ result)
  | .unwrapped _ => none
  | .grouped _ _ => none
  | .passed number before after =>
    some ("Brace pass ".toList ++ Numeral.digits number ++ ": [".toList ++ before ++
      "] -> [".toList ++ after ++ "]".toList)
  | .failed expression message =>
    some ("Evaluation of [".toList ++ expression ++ "] failed: ".toList ++ message)

/-- A computation that keeps a journal. -/
structure Traced (α : Type) where
  /-- The steps that were done, the first one first. -/
  journal : List Event
  /-- What came out of them. -/
  outcome : Except Fault α

namespace Traced

variable {α β : Type}

/-- The computation that does nothing and has this outcome. -/
def ofExcept (x : Except Fault α) : Traced α := ⟨[], x⟩

/-- The computation that only writes one step into the journal. -/
def record (e : Event) : Traced Unit := ⟨[e], .ok ()⟩

/-- Two computations after one another; a fault in the first one is the outcome of both. -/
def andThen (x : Traced α) (f : α → Traced β) : Traced β :=
  match x.outcome with
  | .ok a => ⟨x.journal ++ (f a).journal, (f a).outcome⟩
  | .error e => ⟨x.journal, .error e⟩

instance : Monad Traced where
  pure a := ⟨[], .ok a⟩
  bind := andThen

/-- The messages of a journal. -/
def messages (x : Traced α) : List Text := x.journal.filterMap Event.message?

/-! ## Outcomes -/

@[simp] theorem outcome_pure (a : α) : (pure a : Traced α).outcome = .ok a := rfl

@[simp] theorem journal_pure (a : α) : (pure a : Traced α).journal = [] := rfl

@[simp] theorem outcome_ofExcept (x : Except Fault α) : (ofExcept x).outcome = x := rfl

@[simp] theorem journal_ofExcept (x : Except Fault α) : (ofExcept x).journal = [] := rfl

@[simp] theorem outcome_record (e : Event) : (record e).outcome = .ok () := rfl

@[simp] theorem journal_record (e : Event) : (record e).journal = [e] := rfl

/-- The outcome of two computations does not hang on the journal of the first. -/
@[simp] theorem outcome_bind (x : Traced α) (f : α → Traced β) :
    (x >>= f).outcome = x.outcome.bind fun a ↦ (f a).outcome := by
  rcases x with ⟨j, _ | _⟩ <;> rfl

theorem journal_bind_of_ok {x : Traced α} {f : α → Traced β} {a : α} (h : x.outcome = .ok a) :
    (x >>= f).journal = x.journal ++ (f a).journal := by
  rcases x with ⟨j, y⟩
  cases h
  rfl

theorem journal_bind_of_error {x : Traced α} {f : α → Traced β} {e : Fault}
    (h : x.outcome = .error e) : (x >>= f).journal = x.journal := by
  rcases x with ⟨j, y⟩
  cases h
  rfl

end Traced
end Reckon
