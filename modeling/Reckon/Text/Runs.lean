import Reckon.Text.Basic

/-!
# Runs of digits

`digitRuns` counts the maximal runs of digits in a text, at the last digit of each.  Whether a digit
is the last of its run depends on what follows, so the count of one part of a text (`runsBefore`) is
told whether a digit comes next.  With that it adds up over the parts (`runsBefore_append`), and a
text that has no digits changes nothing around it.
-/

set_option autoImplicit false

namespace Reckon
namespace Text

/-- Whether a digit comes next: at the head of this text, or, when it is empty, behind it. -/
def digitNext (next : Bool) : Text → Bool
  | [] => next
  | c :: _ => c.isDigit

/-- The runs of digits that end inside a text, which a digit follows or not. -/
def runsBefore (next : Bool) : Text → Nat
  | [] => 0
  | c :: s => (if c.isDigit && !digitNext next s then 1 else 0) + runsBefore next s

/-- The maximal runs of digits in a text. -/
def digitRuns (s : Text) : Nat := runsBefore false s

theorem digitNext_append (next : Bool) (s t : Text) :
    digitNext next (s ++ t) = digitNext (digitNext next t) s := by
  cases s <;> rfl

/-- The runs of two texts after one another. -/
theorem runsBefore_append (next : Bool) (s t : Text) :
    runsBefore next (s ++ t) = runsBefore (digitNext next t) s + runsBefore next t := by
  induction s with
  | nil => simp [runsBefore]
  | cons c s ih => simp only [List.cons_append, runsBefore, ih, digitNext_append]; omega

/-- Characters other than digits make no runs. -/
theorem runsBefore_eq_zero {next : Bool} {s : Text} (h : ∀ c ∈ s, c.isDigit = false) :
    runsBefore next s = 0 := by
  induction s with
  | nil => rfl
  | cons c s ih =>
    have hs := ih fun d hd ↦ h d (List.mem_cons_of_mem _ hd)
    simp [runsBefore, h c List.mem_cons_self, hs]

/-- One or more digits make one run, which ends in them unless another digit follows. -/
theorem runsBefore_digits {next : Bool} {s : Text} (hs : s ≠ []) (h : ∀ c ∈ s, c.isDigit = true) :
    runsBefore next s = if next then 0 else 1 := by
  induction s with
  | nil => exact absurd rfl hs
  | cons c s ih =>
    have hc := h c List.mem_cons_self
    cases s with
    | nil => cases next <;> simp [runsBefore, digitNext, hc]
    | cons d s =>
      have hd := h d (List.mem_cons_of_mem _ List.mem_cons_self)
      rw [runsBefore, ih (by simp) fun e he ↦ h e (List.mem_cons_of_mem _ he)]
      simp [digitNext, hd]

/-- A digit that follows can only take a run away. -/
theorem runsBefore_le (next : Bool) (s : Text) : runsBefore next s ≤ runsBefore false s := by
  induction s with
  | nil => exact Nat.le_refl _
  | cons c s ih =>
    have : (if c.isDigit && !digitNext next s then 1 else 0) ≤
        if c.isDigit && !digitNext false s then 1 else 0 := by
      cases s with
      | nil => cases next <;> cases c.isDigit <;> decide
      | cons d s => exact Nat.le_refl _
    simp only [runsBefore]
    omega

/-- What follows is of no account to a text whose last character is no digit. -/
theorem runsBefore_of_getLast? {next : Bool} {s : Text}
    (h : ∀ c, s.getLast? = some c → c.isDigit = false) :
    runsBefore next s = runsBefore false s := by
  induction s with
  | nil => rfl
  | cons c s ih =>
    cases s with
    | nil => simp [runsBefore, h c (by simp)]
    | cons d s =>
      rw [runsBefore, ih fun e he ↦ h e (by simpa using he)]
      rfl

/-- Characters other than digits at both ends of a text are of no account. -/
theorem digitRuns_of_append {s t u : Text} (hs : ∀ c ∈ s, c.isDigit = false)
    (hu : ∀ c ∈ u, c.isDigit = false) : digitRuns (s ++ (t ++ u)) = digitRuns t := by
  have hnext : digitNext false u = false := by
    cases u with
    | nil => rfl
    | cons c u => exact hu c List.mem_cons_self
  simp only [digitRuns, runsBefore_append, hnext, runsBefore_eq_zero hs, runsBefore_eq_zero hu]
  omega

end Text
end Reckon
