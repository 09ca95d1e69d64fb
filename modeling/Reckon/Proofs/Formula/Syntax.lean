import Reckon.Proofs.Parentheses.Pass
import Reckon.Proofs.Reckoning
import Reckon.Proofs.Row.Reduce

/-!
# Formulas

A `Formula` is an expression as a reader understands it: terms with operators between them, of which
a `Term` is a literal or a formula in parentheses, with the spaces that it is written with.  Its
value is said without its text.  The groups are valued first, and then the operators are worked off
in the order of `Operator.all`, always the leftmost pair of numbers that is left (`Formula.value`).

The parentheses of a formula all have partners, so its text is read as a forest that has a group for
each term in parentheses (`Formula.ofText_text`).
-/

set_option autoImplicit false

namespace Reckon

open Nested

/-- Spaces and nothing else. -/
abbrev Spaces := {s : Text // ∀ c ∈ s, Text.isSpace c = true}

mutual

/-- A literal, or a formula in parentheses. -/
inductive Term where
  /-- A literal. -/
  | literal (x : Operand)
  /-- A formula in parentheses, with spaces before and behind it. -/
  | group (lead : Spaces) (inner : Formula) (trail : Spaces)

/-- Terms with operators between them. -/
inductive Formula where
  /-- A single term. -/
  | one (t : Term)
  /-- A term, and more of them behind an operator. -/
  | cons (t : Term) (j : Joint) (rest : Formula)

end

mutual

/-- A term as it is written. -/
def Term.text : Term → Text
  | .literal x => x.1.text
  | .group lead inner trail => '(' :: (lead.1 ++ (inner.text ++ trail.1) ++ [')'])

/-- A formula as it is written. -/
def Formula.text : Formula → Text
  | .one t => t.text
  | .cons t j rest => t.text ++ (j.text ++ rest.text)

end

/-! ## The value of a formula -/

mutual

/-- The number that a term stands for. -/
def Term.value (scale : Int) : Term → Reckoning Rat
  | .literal x => pure x.toRat
  | .group _ inner _ => inner.row scale >>= Row.value (Operator.reckon scale)

/-- The numbers that the terms of a formula stand for, with the operators between them. -/
def Formula.row (scale : Int) : Formula → Reckoning (Row Rat)
  | .one t => (fun x ↦ ⟨x, []⟩) <$> t.value scale
  | .cons t j rest => .both (fun x r ↦ Row.cons x j r) (t.value scale) (rest.row scale)

end

/-- The number that a formula stands for. -/
def Formula.value (scale : Int) (f : Formula) : Reckoning Rat :=
  f.row scale >>= Row.value (Operator.reckon scale)

/-- The answer that the number is given as. -/
def Formula.answer (scale : Int) (f : Formula) : Reckoning Answer :=
  f.value scale >>= fun x ↦ ⟨[nearestEven (x * (10 : Rat) ^ scale)], some (.ofRat scale x)⟩

/-! ## The groups of a formula -/

mutual

/-- The forest of a term. -/
def Term.forest : Term → Forest
  | .literal x => .ofChars x.1.text
  | .group lead inner trail => .group (.ofChars lead.1 ++ (inner.forest ++ .ofChars trail.1)) .nil

/-- The forest of a formula. -/
def Formula.forest : Formula → Forest
  | .one t => t.forest
  | .cons t j rest => t.forest ++ (.ofChars j.text ++ rest.forest)

end

mutual

theorem Term.text_forest : ∀ t : Term, t.forest.text = t.text
  | .literal x => by rw [Term.forest, Term.text, Forest.text_ofChars]
  | .group lead inner trail => by
    simp [Term.forest, Term.text, Forest.text, Formula.text_forest inner]

theorem Formula.text_forest : ∀ f : Formula, f.forest.text = f.text
  | .one t => by rw [Formula.forest, Formula.text, Term.text_forest t]
  | .cons t j rest => by
    simp [Formula.forest, Formula.text, Term.text_forest t, Formula.text_forest rest]

end

theorem isPaired_surround {g : Forest} (hg : g.IsPaired) (lead trail : Spaces) :
    (.ofChars lead.1 ++ (g ++ .ofChars trail.1) : Forest).IsPaired := by
  refine Forest.lacks_append.2 ⟨Forest.isPaired_ofChars (Row.isBare_of_isSpace lead.2), ?_⟩
  exact Forest.lacks_append.2 ⟨hg, Forest.isPaired_ofChars (Row.isBare_of_isSpace trail.2)⟩

mutual

theorem Term.isPaired_forest : ∀ t : Term, t.forest.IsPaired
  | .literal x => by
    rw [Term.forest]
    exact Forest.isPaired_ofChars (isBare_text x.2)
  | .group lead inner trail => by
    rw [Term.forest]
    exact (isPaired_surround (Formula.isPaired_forest inner) lead trail).group

theorem Formula.isPaired_forest : ∀ f : Formula, f.forest.IsPaired
  | .one t => by
    rw [Formula.forest]
    exact Term.isPaired_forest t
  | .cons t j rest => by
    rw [Formula.forest]
    refine Forest.lacks_append.2 ⟨Term.isPaired_forest t, ?_⟩
    exact Forest.lacks_append.2
      ⟨Forest.isPaired_ofChars (Row.isBare_joint j), Formula.isPaired_forest rest⟩

end

/-- The text of a formula is read as its forest. -/
theorem Formula.ofText_text (f : Formula) (lead trail : Spaces) :
    Forest.ofText (lead.1 ++ (f.text ++ trail.1)) =
      .ofChars lead.1 ++ (f.forest ++ .ofChars trail.1) := by
  rw [← Forest.ofText_text (isPaired_surround f.isPaired_forest lead trail)]
  simp [f.text_forest]

end Reckon
