import Reckon.Proofs.Journal
import Reckon.Proofs.Parentheses.Balance

/-!
# The parentheses that are taken away are partners

A text is freed of a parenthesis at its beginning and one at its end if it has both, and it is not
asked whether the one closes the other: `(1) + (2)` would be freed to `1) + (2`.  In an evaluation
that does not come up.  What is reduced is either a group, and then these two parentheses are all
there are, or what the passes leave, and there none opens that is closed later.

`PairsAround` is what the two have in common.  Operations keep it, and so does freeing a text, so it
is true of every text that is freed in the course of a reduction.
-/

set_option autoImplicit false

namespace Reckon

open Nested

/-- Only around the whole of a text may a parenthesis open that another one closes. -/
def PairsAround (s : Text) : Prop := IsEnclosed s ∨ ¬ ['(', ')'].Sublist (Flat.parens s)

namespace PairsAround

variable {scale : Int} {op : Operator} {s t : Text}

theorem of_isBare (h : IsBare s) : PairsAround s := by
  refine .inr fun hsub ↦ ?_
  rw [Flat.parens_eq_nil_iff.2 h, List.sublist_nil] at hsub
  cases hsub

theorem unwrap (h : PairsAround s) : PairsAround (Flat.unwrap s) := by
  rcases h with h | h
  · exact of_isBare (isBare_unwrap_of_isEnclosed (.inr h))
  · exact .inr (Flat.parens_unwrap h ▸ h)

theorem collapse (h : PairsAround s) (ht : (Flat.collapse scale op s).outcome = .ok t) :
    PairsAround t := by
  cases ho : (Flat.operation op).search s with
  | none =>
    rw [Flat.outcome_collapse_of_none ho] at ht
    cases ht
    exact h
  | some o =>
    rw [Flat.outcome_collapse_of_search ho] at ht
    obtain ⟨d, -, rfl⟩ := Outcome.map_eq_ok_iff.1 ht
    exact h.imp (isEnclosed_replace d ho) fun h ↦ Flat.parens_replace d ho ▸ h

theorem step (h : PairsAround s) (ht : (Flat.step scale op s).outcome = .ok t) :
    PairsAround t := by
  rw [Flat.outcome_step] at ht
  obtain ⟨u, hu, rfl⟩ := Outcome.map_eq_ok_iff.1 ht
  exact (h.collapse hu).unwrap

/-- If such a text has a parenthesis at either end, spaces apart, it has no others. -/
theorem isEnclosed_trim (h : PairsAround s) (hopen : (Text.trim s).head? = some '(')
    (hclose : (Text.trim s).getLast? = some ')') : IsEnclosed (Text.trim s) := by
  rcases h with ⟨u, hu, rfl⟩ | h
  · rw [trim_enclosed]
    exact ⟨u, hu, rfl⟩
  · refine absurd ?_ h
    cases htrim : Text.trim s with
    | nil =>
      rw [htrim] at hopen
      cases hopen
    | cons c u =>
      rw [htrim] at hopen hclose
      cases hopen
      -- the text has a second character, since its first one opens a parenthesis
      have hne : u ≠ [] := by
        rintro rfl
        cases hclose
      rw [List.getLast?_cons_of_ne_nil hne] at hclose
      have hlast : [')'].Sublist u := List.singleton_sublist.2 (List.mem_of_getLast? hclose)
      have hsub : ['(', ')'].Sublist s := by
        refine (hlast.cons_cons '(').trans ?_
        rw [← htrim]
        exact Text.trim_sublist s
      exact hsub.filter Group.isParen

end PairsAround

/-- What is reduced in an evaluation, a group or what the passes leave, is of that kind. -/
theorem pairsAround_of_reduced {scale : Int} {s t : Text}
    (h : IsEnclosed t ∨ (resolve scale s).outcome = .ok t) : PairsAround t :=
  h.imp id not_sublist_of_outcome_resolve

/-- A text that an evaluation frees has no pair of parentheses but one around it. -/
theorem pairsAround_of_unwrapped {scale : Int} {s t : Text}
    (h : .unwrapped t ∈ (evaluate scale s).journal) : PairsAround t := by
  obtain ⟨u, hu, he⟩ := exists_reduce_of_isStep_mem_journal rfl h
  obtain ⟨-, op, v, hvisit, he⟩ := Flat.mem_journal_reduce_iff.1 he
  have hv : PairsAround v :=
    hvisit.induction (fun op s t hs ht ↦ hs.step ht) (pairsAround_of_reduced hu)
  exact hv.collapse (Flat.unwrapped_mem_journal_step_iff.1 he)

/-- **The parentheses that an evaluation takes away around a text are partners.**  Whenever a text
is freed that begins and ends with a parenthesis, spaces apart, there is no other parenthesis in it:
these two are a group, and what is left of the text is what stands in that group. -/
theorem unwrapped_isGroup {scale : Int} {s t : Text}
    (h : .unwrapped t ∈ (evaluate scale s).journal) (hopen : (Text.trim t).head? = some '(')
    (hclose : (Text.trim t).getLast? = some ')') :
    IsBare (Flat.unwrap t) ∧ Text.trim t = '(' :: (Flat.unwrap t ++ [')']) ∧
      Forest.ofText (Text.trim t) = .group (.ofChars (Flat.unwrap t)) .nil := by
  obtain ⟨u, hu, htrim⟩ := (pairsAround_of_unwrapped h).isEnclosed_trim hopen hclose
  have hunwrap : Flat.unwrap t = u := by
    simp [Flat.unwrap, htrim, Flat.dropClosing?]
  have htext : (Forest.group (.ofChars u) .nil).text = Text.trim t := by
    simp [Forest.text, htrim]
  rw [hunwrap, ← htext, Forest.ofText_text (Forest.isPaired_ofChars hu).group, htext]
  exact ⟨hu, htrim, rfl⟩

/-- In `(1 / 2) * 3` the parentheses go when the quotient in them is known. -/
theorem unwrapped_isGroup_quotient :
    .unwrapped "(0.500000)".toList ∈ (evaluate 2 "(1 / 2) * 3".toList).journal ∧
      (Text.trim "(0.500000)".toList).head? = some '(' ∧
      (Text.trim "(0.500000)".toList).getLast? = some ')' ∧
      Forest.ofText (Text.trim "(0.500000)".toList) = .group (.ofChars "0.500000".toList) .nil := by
  have hscan : Group.scan? "(1 / 2) * 3".toList = some ("(1 / 2)".toList, " * 3".toList) := by
    decide
  have hblock : Flat.badBlock? "(1 / 2)".toList = none := by decide
  have hcheck : Flat.check "(1 / 2)".toList = .ok () := by rw [Flat.check, hblock]
  have hstep : .unwrapped "(0.500000)".toList ∈
      (Flat.step 2 .divide "(1 / 2)".toList).journal := by decide +kernel
  have hreduce : .unwrapped "(0.500000)".toList ∈ (Flat.reduce 2 "(1 / 2)".toList).journal :=
    Flat.mem_journal_reduce_iff.2 ⟨hcheck, _, _, .here, hstep⟩
  have hmem : .unwrapped "(0.500000)".toList ∈ (evaluate 2 "(1 / 2) * 3".toList).journal :=
    mem_journal_evaluate_of_pass (mem_journal_pass_of_scan? hscan (.inl hreduce))
  have hunwrap : Flat.unwrap "(0.500000)".toList = "0.500000".toList := by decide
  have hgroup := (unwrapped_isGroup hmem (by decide) (by decide)).2.2
  rw [hunwrap] at hgroup
  exact ⟨hmem, by decide, by decide, hgroup⟩

example : Flat.unwrap "(1) + (2)".toList = "1) + (2".toList := by decide

end Reckon
