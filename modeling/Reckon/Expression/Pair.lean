import Reckon.Expression.Literal
import Reckon.Expression.Operator

/-!
# Two literals and what stands between them

Both the checks on an expression and the operations in it look for the same thing, two literals with
something between them; only what may stand there differs.  `Separator` names the possibilities:
one of the operators with any blanks around it, or one of the three things that must not be there.

A literal in front of a separator is taken as long as it gets, and so is the one behind.  Since no
separator begins with a digit or a point, nothing shorter could be followed by one.
-/

set_option autoImplicit false

namespace Reckon

/-- What may stand between two literals. -/
inductive Separator where
  /-- Blanks and nothing else, at least one. -/
  | blanks
  /-- One character that has no place in arithmetic, a blank being one too, among any blanks. -/
  | foreign
  /-- A percent sign with a blank on at least one of its sides. -/
  | spacedPercent
  /-- An operator among any blanks. -/
  | operator (op : Operator)
deriving DecidableEq, Repr

namespace Separator

/-- Whether a character has no place in arithmetic.  Digits, the point and the five operators have
one; letters, parentheses and blanks have none. -/
def isForeign (c : Char) : Bool :=
  !(c.isDigit || c = '.' || c = '+' || c = '-' || c = '*' || c = '/' || c = '%')

/-- The blanks at the head of a text, and what follows them. -/
def spanBlanks (s : Text) : Text × Text :=
  (s.takeWhile Text.isBlank, s.dropWhile Text.isBlank)

/-- A single character of a class at the head of a text, with the blanks before and behind it. -/
def scanMark? (p : Char → Bool) (s : Text) : Option ((Text × Char × Text) × Text) :=
  match spanBlanks s with
  | (left, c :: s) =>
    if p c then some ((left, c, (spanBlanks s).1), (spanBlanks s).2) else none
  | _ => none

/-- Blanks at the head of a text, at least one. -/
def scanBlanks? (s : Text) : Option (Text × Text) :=
  if (spanBlanks s).1.isEmpty then none else some (spanBlanks s)

/-- The separator at the head of a text, and what follows it. -/
def scan? (sep : Separator) (s : Text) : Option (Text × Text) :=
  match sep with
  | .blanks => scanBlanks? s
  | .foreign =>
    match scanMark? isForeign s with
    | some ((left, c, right), rest) => some (left ++ c :: right, rest)
    | none => scanBlanks? s
  | .spacedPercent =>
    match scanMark? (· = '%') s with
    | some ((left, c, right), rest) =>
      if left.isEmpty && right.isEmpty then none else some (left ++ c :: right, rest)
    | none => none
  | .operator op =>
    match scanMark? (· = op.symbol) s with
    | some ((left, c, right), rest) => some (left ++ c :: right, rest)
    | none => none

theorem append_of_spanBlanks (s : Text) : (spanBlanks s).1 ++ (spanBlanks s).2 = s :=
  List.takeWhile_append_dropWhile

theorem append_of_scanMark? {p : Char → Bool} {s rest left right : Text} {c : Char}
    (h : scanMark? p s = some ((left, c, right), rest)) : left ++ c :: right ++ rest = s := by
  unfold scanMark? at h
  split at h
  · next l d t hs =>
    split at h
    · cases h
      have := append_of_spanBlanks s
      rw [hs] at this
      simpa [append_of_spanBlanks t] using this
    · cases h
  · cases h

theorem append_of_scanBlanks? {s gap rest : Text} (h : scanBlanks? s = some (gap, rest)) :
    gap ++ rest = s := by
  unfold scanBlanks? at h
  split at h
  · cases h
  · cases h
    exact append_of_spanBlanks s

/-- A separator and what follows it make up the text that was looked at. -/
theorem append_of_scan? {sep : Separator} {s gap rest : Text}
    (h : sep.scan? s = some (gap, rest)) : gap ++ rest = s := by
  unfold scan? at h
  split at h
  · exact append_of_scanBlanks? h
  · split at h
    · next hm => cases h; exact append_of_scanMark? hm
    · exact append_of_scanBlanks? h
  · split at h
    · next hm =>
      split at h
      · cases h
      · cases h; exact append_of_scanMark? hm
    · cases h
  · split at h
    · next hm => cases h; exact append_of_scanMark? hm
    · cases h

end Separator

/-! ## Pairs -/

/-- Two literals and the text between them. -/
structure Pair where
  /-- The literal in front. -/
  left : Literal
  /-- What stands between the literals. -/
  gap : Text
  /-- The literal behind. -/
  right : Literal
deriving DecidableEq, Repr

namespace Pair

/-- A pair as it is written. -/
def text (p : Pair) : Text := p.left.text ++ (p.gap ++ p.right.text)

/-- Two literals with the given separator between them, at the head of a text. -/
def scan? (sep : Separator) (s : Text) : Option (Pair × Text) :=
  match Literal.scan? s with
  | none => none
  | some (left, s) =>
    match sep.scan? s with
    | none => none
    | some (gap, s) =>
      match Literal.scan? s with
      | none => none
      | some (right, rest) => some (⟨left, gap, right⟩, rest)

/-- How a pair was recognised, step by step. -/
theorem scan?_eq_some_iff {sep : Separator} {s rest : Text} {p : Pair} :
    scan? sep s = some (p, rest) ↔
      ∃ s₁ s₂, Literal.scan? s = some (p.left, s₁) ∧ sep.scan? s₁ = some (p.gap, s₂) ∧
        Literal.scan? s₂ = some (p.right, rest) := by
  unfold scan?
  constructor
  · intro h
    split at h
    · cases h
    · next left s₁ h₁ =>
      split at h
      · cases h
      · next gap s₂ h₂ =>
        split at h
        · cases h
        · next right r h₃ =>
          cases h
          exact ⟨s₁, s₂, h₁, h₂, h₃⟩
  · rintro ⟨s₁, s₂, h₁, h₂, h₃⟩
    simp [h₁, h₂, h₃]

/-- The pattern of two literals with the given separator between them. -/
def pattern (sep : Separator) : Pattern Pair where
  scan? := scan? sep
  text := text
  text_append := by
    intro s p rest h
    obtain ⟨s₁, s₂, h₁, h₂, h₃⟩ := scan?_eq_some_iff.1 h
    rw [text, List.append_assoc, List.append_assoc, Literal.text_append_of_scan? h₃,
      Separator.append_of_scan? h₂, Literal.text_append_of_scan? h₁]
  text_ne_nil := by
    intro s p rest h
    obtain ⟨s₁, s₂, h₁, -⟩ := scan?_eq_some_iff.1 h
    simp [text, Literal.text_ne_nil_of_scan? h₁]

/-- Neither a digit nor a minus sign stands before the pair that is found first, unless it has a
minus sign itself. -/
theorem getLast?_before_of_search {sep : Separator} {s : Text} {o : Occurrence Pair}
    (h : (pattern sep).search s = some o) (hl : o.found.left.negative = false) :
    ∀ c ∈ o.before.getLast?, c.isDigit = false ∧ c ≠ '-' := by
  intro c hc
  obtain ⟨x, hx⟩ := List.getLast?_eq_some_iff.1 hc
  obtain ⟨s₁, s₂, hleft, hgap, hright⟩ := scan?_eq_some_iff.1 ((pattern sep).scan?_of_search h)
  have hshortest : ∀ l : Literal, Literal.scan? (c :: (o.found.text ++ o.after)) ≠ some (l, s₁) := by
    intro l hlonger
    have hsome : scan? sep (c :: (o.found.text ++ o.after)) =
        some (⟨l, o.found.gap, o.found.right⟩, o.after) :=
      scan?_eq_some_iff.2 ⟨s₁, s₂, hlonger, hgap, hright⟩
    have hnone : scan? sep (c :: (o.found.text ++ o.after)) = none :=
      (pattern sep).scan?_eq_none_of_search h hx (by simp)
    rw [hnone] at hsome
    cases hsome
  constructor
  · refine Bool.eq_false_iff.2 fun hdigit ↦ ?_
    exact hshortest _ (Literal.scan?_digit_cons hdigit hl hleft)
  · rintro rfl
    exact hshortest _ (Literal.scan?_minus_cons hl hleft)

end Pair
end Reckon
