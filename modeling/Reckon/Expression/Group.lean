import Reckon.Expression.Pattern

/-!
# Innermost groups

An innermost group is an opening parenthesis, any text without parentheses, and a closing
parenthesis.  Groups are what an expression is worked off from: each of them is a flat expression
between two parentheses.
-/

set_option autoImplicit false

namespace Reckon
namespace Group

/-- Whether a character is a parenthesis. -/
def isParen (c : Char) : Bool := c = '(' || c = ')'

/-- The text before the next parenthesis. -/
def inside (s : Text) : Text := s.takeWhile fun c ↦ !isParen c

/-- The text from the next parenthesis on. -/
def beyond (s : Text) : Text := s.dropWhile fun c ↦ !isParen c

/-- An innermost group at the head of a text, with its parentheses, and what follows it. -/
def scan? : Text → Option (Text × Text)
  | '(' :: s =>
    match beyond s with
    | ')' :: rest => some ('(' :: (inside s ++ [')']), rest)
    | _ => none
  | _ => none

/-- How a group was recognised. -/
theorem scan?_eq_some_iff {s group rest : Text} :
    scan? s = some (group, rest) ↔
      ∃ t, s = '(' :: t ∧ beyond t = ')' :: rest ∧ group = '(' :: (inside t ++ [')']) := by
  unfold scan?
  constructor
  · intro h
    split at h
    · next t =>
      split at h
      · next r hr => cases h; exact ⟨t, rfl, hr, rfl⟩
      · cases h
    · cases h
  · rintro ⟨t, rfl, hr, rfl⟩
    simp [hr]

/-- The pattern of an innermost group. -/
def pattern : Pattern Text where
  scan? := scan?
  text := id
  text_append := by
    intro s group rest h
    obtain ⟨t, rfl, hr, rfl⟩ := scan?_eq_some_iff.1 h
    have ht : inside t ++ beyond t = t := List.takeWhile_append_dropWhile
    rw [hr] at ht
    simpa using ht
  text_ne_nil := by
    intro s group rest h
    obtain ⟨t, -, -, rfl⟩ := scan?_eq_some_iff.1 h
    simp

end Group
end Reckon
