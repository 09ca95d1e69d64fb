import Reckon.Proofs.Row.Basic
import Reckon.Proofs.Row.Joint
import Reckon.Proofs.Step

/-!
# The text of a row

A row of literals is written by writing its operands one after another, each behind the mark of its
operator; for the time being it is left open what that mark is.  `Reads` says what it takes that
nothing else is found in such a text than what was written: a literal is never continued by what
follows it, and a mark leads to the next literal just when it is to be found.

Then an operation on the text is an operation on the row (`Reads.collapse_text`), and where nothing
is to be found the text is silent (`Reads.silent_text`).  Operators with blanks around them are
marks of that kind (`reads_operator`, `reads_bad`).
-/

set_option autoImplicit false

namespace Reckon

/-- A literal made of digits. -/
abbrev Operand := {l : Literal // l.IsProper}

/-- What an operator makes of two literals, as a literal again. -/
def Operand.apply (scale : Int) (op : Operator) (x y : Operand) : Except Fault Operand :=
  (op.apply scale x.1.value y.1.value).map fun d ↦ ⟨d.toLiteral, d.isProper_toLiteral⟩

/-- The literal `0.0`. -/
def Operand.zero : Operand := ⟨⟨false, ['0'], ['0']⟩, by simp, by simp, by simp⟩

/-- The literal `1.0`. -/
def Operand.one : Operand := ⟨⟨false, ['1'], ['0']⟩, by simp, by simp, by simp⟩

namespace Row

variable {scale : Int} {op : Operator} {mark : Joint → Text}

/-- The operands of a row behind the first one, each behind the mark of its operator. -/
def tailBy (mark : Joint → Text) : List (Joint × Operand) → Text
  | [] => []
  | (j, y) :: rest => mark j ++ (y.1.text ++ tailBy mark rest)

/-- A row of literals with a mark for each operator. -/
def textBy (mark : Joint → Text) (r : Row Operand) : Text := r.first.1.text ++ tailBy mark r.rest

/-- A row of literals as it is written. -/
def text (r : Row Operand) : Text := r.textBy Joint.text

theorem textBy_cons (x : Operand) (j : Joint) (r : Row Operand) :
    (cons x j r).textBy mark = x.1.text ++ (mark j ++ r.textBy mark) := rfl

/-! ## Reading the text -/

/-- In the operands of a row behind the first one, and in what follows the row, a literal and a
separator in front of it are found where they are to be found, and nowhere else. -/
inductive Reads (sep : Separator) (found : Joint → Bool) (mark : Joint → Text) (s : Text) :
    List (Joint × Operand) → Prop where
  | nil (closes : Literal.Closes s) (followed : sep.followed? s = none) : Reads sep found mark s []
  | cons {j : Joint} {y : Operand} {rest : List (Joint × Operand)}
      (closes : Literal.Closes (mark j ++ (y.1.text ++ (tailBy mark rest ++ s))))
      (followed : sep.followed? (mark j ++ (y.1.text ++ (tailBy mark rest ++ s))) =
        if found j then some (mark j, y.1, tailBy mark rest ++ s) else none)
      (silent : found j = false →
        (Pair.pattern sep).Silent (mark j) (y.1.text ++ (tailBy mark rest ++ s)))
      (reads : Reads sep found mark s rest) : Reads sep found mark s ((j, y) :: rest)

theorem Reads.closes_tail {sep : Separator} {found : Joint → Bool} {s : Text}
    {rest : List (Joint × Operand)} (h : Reads sep found mark s rest) :
    Literal.Closes (tailBy mark rest ++ s) := by
  cases h with
  | nil closes => exact closes
  | cons closes => simpa [tailBy] using closes

theorem Reads.followed?_tail {sep : Separator} {found : Joint → Bool} {s : Text}
    {rest : List (Joint × Operand)} (h : Reads sep found mark s rest)
    (hnone : ∀ p ∈ rest, found p.1 = false) : sep.followed? (tailBy mark rest ++ s) = none := by
  cases h with
  | nil _ followed => exact followed
  | cons _ followed => simpa [tailBy, hnone _ List.mem_cons_self] using followed

/-- Where nothing is to be found, there is nothing. -/
theorem Reads.silent_text {sep : Separator} {s : Text} {rest : List (Joint × Operand)}
    (h : Reads sep (fun _ ↦ false) mark s rest) (x : Operand) :
    (Pair.pattern sep).Silent (textBy mark ⟨x, rest⟩) s := by
  induction h generalizing x with
  | nil closes followed =>
    rw [textBy, tailBy, List.append_nil]
    exact Pair.silent_text x.2 closes followed
  | @cons j y rest closes followed silent reads ih =>
    have htail : tailBy mark ((j, y) :: rest) = mark j ++ textBy mark ⟨y, rest⟩ := rfl
    have hy : textBy mark ⟨y, rest⟩ ++ s = y.1.text ++ (tailBy mark rest ++ s) := by simp [textBy]
    rw [textBy, htail]
    refine (Pattern.silent_append _).2 ⟨?_, (Pattern.silent_append _).2 ⟨?_, ih y⟩⟩
    · rw [List.append_assoc, hy]
      exact Pair.silent_text x.2 closes followed
    · rw [hy]
      exact silent rfl

/-- An operation on a row and what follows it works on the row, if there is anything to work on, and
on what follows otherwise. -/
theorem Reads.collapse_text {s : Text} {rest : List (Joint × Operand)}
    (h : Reads (.operator op) (fun j ↦ j.operator = op) mark s rest) (x : Operand) :
    (Flat.collapse scale op (textBy mark ⟨x, rest⟩ ++ s)).outcome =
      match collapse? (Operand.apply scale op) op x rest with
      | some m => m.map fun r ↦ r.textBy mark ++ s
      | none => (Flat.collapse scale op s).outcome.map (textBy mark ⟨x, rest⟩ ++ ·) := by
  induction h generalizing x with
  | nil closes followed =>
    rw [collapse?, textBy, tailBy, List.append_nil]
    exact Flat.collapse_append (Pair.silent_text x.2 closes followed)
  | @cons j y rest closes followed silent reads ih =>
    have hy : y.1.text ++ (tailBy mark rest ++ s) = textBy mark ⟨y, rest⟩ ++ s := by simp [textBy]
    have htext : textBy mark ⟨x, (j, y) :: rest⟩ ++ s =
        x.1.text ++ (mark j ++ (y.1.text ++ (tailBy mark rest ++ s))) := by
      simp [textBy, tailBy]
    rw [htext, collapse?]
    by_cases hop : j.operator = op
    · rw [if_pos (decide_eq_true hop)] at followed
      rw [if_pos hop, Flat.collapse_text x.2 closes followed]
      dsimp only
      rw [Operand.apply]
      cases op.apply scale x.1.value y.1.value with
      | error e => rfl
      | ok d => simp [Except.map, textBy, Decimal.plain, Functor.map]
    · rw [if_neg (by simpa using hop)] at followed
      rw [if_neg hop, Flat.collapse_append (Pair.silent_text x.2 closes followed),
        Flat.collapse_append (silent (decide_eq_false hop)), hy, ih y]
      cases collapse? (Operand.apply scale op) op y rest with
      | none => cases (Flat.collapse scale op s).outcome <;> simp [Except.map, textBy, tailBy]
      | some m =>
        cases m with
        | error e => rfl
        | ok r => simp [Except.map, Functor.map, textBy_cons]

/-! ## Operators with blanks around them -/

theorem reads_of_followed? {sep : Separator} {found : Joint → Bool} {s : Text}
    (hfollowed : ∀ (j : Joint) {l : Literal} {t : Text}, l.IsProper → Literal.Closes t →
      sep.followed? (j.text ++ (l.text ++ t)) = if found j then some (j.text, l, t) else none)
    (hs : Literal.Closes s) (hnone : sep.followed? s = none) (rest : List (Joint × Operand)) :
    Reads sep found Joint.text s rest := by
  induction rest with
  | nil => exact .nil hs hnone
  | cons p rest ih =>
    exact .cons (p.1.closes_text _) (hfollowed p.1 p.2.2 ih.closes_tail)
      (fun _ ↦ p.1.silent_text _ sep) ih

theorem reads_operator (op : Operator) {s : Text} (hs : Literal.Closes s)
    (hnone : (Separator.operator op).followed? s = none) (rest : List (Joint × Operand)) :
    Reads (.operator op) (fun j ↦ j.operator = op) Joint.text s rest := by
  refine reads_of_followed? (fun j l t hl ht ↦ ?_) hs hnone rest
  rw [j.followed?_operator t hl ht op]
  by_cases hop : j.operator = op <;> simp [hop]

theorem reads_bad {sep : Separator} (hsep : sep ∈ Flat.badSeparators) {s : Text}
    (hs : Literal.Closes s) (hnone : sep.followed? s = none) (rest : List (Joint × Operand)) :
    Reads sep (fun _ ↦ false) Joint.text s rest :=
  reads_of_followed? (fun j _ t hl _ ↦ j.followed?_bad t hl hsep) hs hnone rest

end Row
end Reckon
