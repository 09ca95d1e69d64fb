import Reckon.Proofs.Fuel
import Reckon.Proofs.Margin

/-!
# Spaces around an expression

The passes over the groups of a text know nothing of what stands around it, as long as there are no
parentheses in that: each of them leaves a margin where it is (`outcome_pass_margin`), and so do all
of them together (`outcome_resolve_margin`), whether or not the parentheses in the text itself have
partners.  Only when what they leave is reduced are the spaces of the margin taken away, by the very
first step.

So spaces around an expression are of no account to what it comes to (`evaluate_spaces`).  They show
in one place, which is the text that is rejected for a bad block when there is one outside all
groups: it is the expression with the spaces.
-/

set_option autoImplicit false

namespace Reckon
namespace Nested

variable {scale : Int} {a b : Text}

/-! ## Passes -/

namespace Forest

theorem pass_ofChars (scale : Int) (s : Text) : (ofChars s).pass scale = .ok (ofChars s) := by
  induction s with
  | nil => rfl
  | cons c s ih =>
    rw [ofChars, pass, ih]
    rfl

variable (ha : IsBare a) (hb : IsBare b)

include ha hb

theorem Splits.margin {f : Forest} (hf : f.Splits) : (ofChars a ++ (f ++ ofChars b)).Splits := by
  obtain ⟨g, h, rfl, hg, hh⟩ := hf
  have hmargin : ∀ {s : Text}, IsBare s → (ofChars s).IsPaired := isPaired_ofChars
  refine ⟨ofChars a ++ g, h ++ ofChars b, by simp only [append_assoc], ?_, ?_⟩
  · exact lacks_append.2 ⟨(hmargin ha).lacks (by rintro c rfl; rfl), hg⟩
  · exact lacks_append.2 ⟨hh, (hmargin hb).lacks (by rintro c rfl; rfl)⟩

end Forest

section Margin

variable (ha : IsBare a) (hb : IsBare b)

include ha hb

/-- A pass leaves what stands around a text as it is. -/
theorem outcome_pass_margin (s : Text) :
    (pass scale (a ++ (s ++ b))).outcome = (pass scale s).outcome.map fun t ↦ a ++ (t ++ b) := by
  have hsplits := Forest.ofText_splits s
  have hpass : (pass scale (Forest.ofText s).text).outcome = _ :=
    Forest.outcome_pass_text hsplits
  have hmargin : (pass scale (Forest.ofChars a ++ (Forest.ofText s ++ Forest.ofChars b)).text).outcome
      = _ := Forest.outcome_pass_text (hsplits.margin ha hb)
  simp only [Forest.text_append, Forest.text_ofChars, Forest.text_ofText, Forest.pass_append,
    Forest.pass_ofChars] at hpass hmargin
  rw [hmargin, hpass]
  cases (Forest.ofText s).pass scale <;> simp [Except.map, Except.bind]

theorem outcome_resolveFrom_margin (number : Nat) (s : Text) :
    (resolveFrom scale number (a ++ (s ++ b))).outcome =
      (resolveFrom scale number s).outcome.map fun t ↦ a ++ (t ++ b) := by
  rw [outcome_resolveFrom, outcome_pass_margin ha hb, outcome_resolveFrom scale s]
  cases h : (pass scale s).outcome with
  | error e => rfl
  | ok t =>
    dsimp only [Except.map, Except.bind]
    by_cases hts : t = s
    · simp [hts]
    · rw [if_neg hts, if_neg (by simpa using hts)]
      exact outcome_resolveFrom_margin (number + 1) t
termination_by s.count '('
decreasing_by exact count_pass_lt h hts

/-- All passes together leave it as it is. -/
theorem outcome_resolve_margin (s : Text) :
    (resolve scale (a ++ (s ++ b))).outcome =
      (resolve scale s).outcome.map fun t ↦ a ++ (t ++ b) :=
  outcome_resolveFrom_margin ha hb 1 s

end Margin
end Nested

/-! ## Evaluations -/

/-- **Spaces around an expression are of no account.**  With any spaces before and behind it, those
of Unicode included, an expression has the same value and the same mark of rounding, or its
evaluation ends with the same fault.  Only if that is a bad block outside all groups is there a
difference: the block is the same, but the text that it is found in has the spaces around it. -/
theorem evaluate_spaces {a b : Text} (ha : ∀ c ∈ a, Text.isSpace c = true)
    (hb : ∀ c ∈ b, Text.isSpace c = true) (scale : Int) (s : Text) :
    (evaluate scale (a ++ (s ++ b))).outcome = (evaluate scale s).outcome ∨
      ∃ block fragment, (evaluate scale s).outcome = .error (.badBlock block fragment) ∧
        (evaluate scale (a ++ (s ++ b))).outcome =
          .error (.badBlock block (a ++ (fragment ++ b))) := by
  have hresolve : (Nested.resolve scale (a ++ (s ++ b))).outcome = _ :=
    Nested.outcome_resolve_margin (Row.isBare_of_isSpace ha) (Row.isBare_of_isSpace hb) s
  simp only [outcome_evaluate, Nested.outcome_reduce]
  rw [hresolve]
  cases (Nested.resolve scale s).outcome with
  | error e => exact .inl rfl
  | ok t =>
    dsimp only [Except.map, Except.bind]
    rw [Flat.outcome_reduce_spaces ha hb]
    cases hblock : Flat.badBlock? t with
    | none => exact .inl rfl
    | some block =>
      have hreduce : (Flat.reduce scale t).outcome = .error (.badBlock block t) := by
        rw [Flat.outcome_reduce, Flat.check, hblock]
        rfl
      rw [hreduce]
      exact .inr ⟨block, t, rfl, rfl⟩

/-- A no-break space and a line feed around `( 1 / 3 )` change nothing. -/
theorem evaluate_spaces_no_break :
    (∀ c ∈ "\u00a0".toList, Text.isSpace c = true) ∧ (∀ c ∈ "\n".toList, Text.isSpace c = true) ∧
      (evaluate 2 ("\u00a0".toList ++ ("( 1 / 3 )".toList ++ "\n".toList))).outcome =
        .ok ⟨⟨false, 33, -2⟩, true⟩ := by
  have ha : ∀ c ∈ "\u00a0".toList, Text.isSpace c = true := List.forall_mem_singleton.2 rfl
  have hb : ∀ c ∈ "\n".toList, Text.isSpace c = true := List.forall_mem_singleton.2 rfl
  have hvalue : (evaluate 2 "( 1 / 3 )".toList).outcome = .ok ⟨⟨false, 33, -2⟩, true⟩ :=
    outcome_evaluate_of_within 9 (by decide +kernel)
  refine ⟨ha, hb, ?_⟩
  rcases evaluate_spaces ha hb 2 "( 1 / 3 )".toList with h | ⟨block, fragment, h, -⟩
  · exact h.trans hvalue
  · rw [hvalue] at h
    cases h

end Reckon
