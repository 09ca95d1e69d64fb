import Reckon.Proofs.Fuel
import Reckon.Proofs.Journal

/-!
# As many passes as the parentheses are deep

`nestingDepth` is the number of pairs of parentheses that lie inside one another, at the deepest
place of a text.  A pass takes the leaves of a forest away and brings no parentheses, so it makes
the forest less deep by exactly one (`Forest.depth_of_pass`).  Hence a pass over a text that has an
innermost group never gives the same text back (`eq_of_pass_iff`): to compare the texts, as the loop
over the passes does, is to ask whether there was a group (`search_isSome_iff`).

So on a text of depth `n` whose groups have no faults the loop does `n` passes that change
something, each of them one level, and one that finds nothing to do
(`resolve_takes_nestingDepth_passes`).
-/

set_option autoImplicit false

namespace Reckon

/-- The number of a pass that changed the text. -/
def Event.passNumber? : Event → Option Nat
  | .passed number _ _ => some number
  | .collapsed _ _ | .unwrapped _ | .grouped _ _ | .failed _ _ => none

namespace Nested

variable {scale : Int}

namespace Forest

/-! ## How deep a forest is -/

/-- The number of groups inside one another, at the deepest place of a forest. -/
def depth : Forest → Nat
  | nil => 0
  | char _ rest => rest.depth
  | group inner rest => max (inner.depth + 1) rest.depth

theorem depth_append (f g : Forest) : (f ++ g).depth = max f.depth g.depth := by
  induction f with
  | nil => simp [depth]
  | char c rest ih => simpa [depth] using ih
  | group inner rest _ ih => simp only [group_append, depth, ih]; omega

@[simp] theorem depth_ofChars (s : Text) : (ofChars s).depth = 0 := by
  induction s with
  | nil => rfl
  | cons c s ih => exact ih

theorem isFlat_iff_depth {f : Forest} : f.isFlat = true ↔ f.depth = 0 := by
  induction f with
  | nil => simp [isFlat, depth]
  | char c rest ih => simpa [isFlat, depth] using ih
  | group inner rest _ _ => simp [isFlat, depth]

/-- There is a group among the pieces of every forest that has some depth. -/
theorem exists_group_mem_pieces_iff {f : Forest} :
    (∃ group, Sum.inr group ∈ f.pieces) ↔ f.depth ≠ 0 := by
  induction f with
  | nil => simp [pieces, depth]
  | char c rest ih => simpa [pieces, depth] using ih
  | group inner rest ih _ =>
    refine iff_of_true ?_ (by simp only [depth]; omega)
    cases hflat : inner.isFlat with
    | true => exact ⟨_, by simp only [pieces, hflat, if_true]; exact List.mem_cons_self⟩
    | false =>
      have hinner : inner.depth ≠ 0 := fun h0 ↦ by
        rw [isFlat_iff_depth.2 h0] at hflat
        cases hflat
      obtain ⟨leaf, hleaf⟩ := ih.2 hinner
      exact ⟨leaf, by simp [pieces, hflat, hleaf]⟩

/-! ## A pass over a forest -/

/-- A pass makes a forest less deep by one, unless there is no group in it. -/
theorem depth_of_pass {f g : Forest} (h : f.pass scale = .ok g) : g.depth = f.depth - 1 := by
  induction f generalizing g with
  | nil => cases h; rfl
  | char c rest ih =>
    obtain ⟨rest', hrest, rfl⟩ := Outcome.map_eq_ok_iff.1 h
    rw [depth, depth, ih hrest]
  | group inner rest ihinner ihrest =>
    obtain ⟨g, r, hg, hr, rfl⟩ := pass_group_eq_ok_iff.1 h
    have hrest := ihrest hr
    have hgroup : g.depth = inner.depth := by
      split at hg
      · next hflat =>
        obtain ⟨t, -, rfl⟩ := Outcome.map_eq_ok_iff.1 hg
        rw [depth_ofChars, isFlat_iff_depth.1 hflat]
      · next hflat =>
        obtain ⟨inner', hinner, rfl⟩ := Outcome.map_eq_ok_iff.1 hg
        have := ihinner hinner
        have hdeep : inner.depth ≠ 0 := fun h0 ↦ hflat (isFlat_iff_depth.2 h0)
        simp only [depth]
        omega
    rw [depth_append, hgroup, hrest, depth]
    omega

theorem pass_of_isFlat {f : Forest} (h : f.isFlat = true) : f.pass scale = .ok f := by
  induction f with
  | nil => rfl
  | char c rest ih => rw [pass, ih h]; rfl
  | group inner rest _ _ => cases h

end Forest

/-! ## A pass over a text -/

/-- The number of pairs of parentheses inside one another, at the deepest place of a text. -/
def nestingDepth (s : Text) : Nat := (Forest.ofText s).depth

variable {s t : Text}

/-- The forest of what a pass makes of a text. -/
theorem pass_ofText (h : (pass scale s).outcome = .ok t) :
    (Forest.ofText s).pass scale = .ok (Forest.ofText t) := by
  have hs := Forest.ofText_splits s
  have hpass : (pass scale (Forest.ofText s).text).outcome =
      ((Forest.ofText s).pass scale).map Forest.text := Forest.outcome_pass_text hs
  rw [Forest.text_ofText, h] at hpass
  obtain ⟨g, hg, rfl⟩ := Outcome.map_eq_ok_iff.1 hpass.symm
  rw [hg, Forest.ofText_text_of_splits (Forest.splits_of_pass hs hg)]

/-- A pass makes a text less deep by one, unless there is no pair of parentheses in it. -/
theorem nestingDepth_of_pass (h : (pass scale s).outcome = .ok t) :
    nestingDepth t = nestingDepth s - 1 :=
  Forest.depth_of_pass (pass_ofText h)

/-- A pass changes a text exactly if there are pairs of parentheses in it. -/
theorem eq_of_pass_iff (h : (pass scale s).outcome = .ok t) : t = s ↔ nestingDepth s = 0 := by
  constructor
  · rintro rfl
    have := nestingDepth_of_pass h
    omega
  · intro h0
    have hsame : (Forest.ofText s).pass scale = .ok (Forest.ofText s) :=
      Forest.pass_of_isFlat (Forest.isFlat_iff_depth.2 h0)
    rw [pass_ofText h] at hsame
    rw [← Forest.text_ofText t, Except.ok.inj hsame, Forest.text_ofText]

/-- A text has an innermost group exactly if there are pairs of parentheses in it. -/
theorem search_isSome_iff : (Group.pattern.search s).isSome = true ↔ nestingDepth s ≠ 0 := by
  have hpieces := Forest.pieces_text (Forest.ofText_splits s)
  rw [Forest.text_ofText] at hpieces
  rw [nestingDepth, ← Forest.exists_group_mem_pieces_iff, ← hpieces, Option.isSome_iff_ne_none,
    Ne, Pattern.search_eq_none_iff]
  simp

/-! ## All passes -/

/-- The outcome of so many passes over a text. -/
def passTimes (scale : Int) : Nat → Text → Except Fault Text
  | 0, s => .ok s
  | n + 1, s => (pass scale s).outcome.bind (passTimes scale n)

theorem passNumbers_pass (scale : Int) (s : Text) :
    (pass scale s).journal.filterMap Event.passNumber? = [] := by
  refine List.filterMap_eq_nil_iff.2 fun e he ↦ ?_
  obtain ⟨group, -, he | ⟨result, rfl, -⟩⟩ := mem_journal_pass he
  · have hstep := Flat.isStep_of_mem_journal_reduce he
    cases e <;> first | rfl | cases hstep
  · rfl

/-- The loop does as many passes as the text is deep. -/
theorem passTimes_of_resolveFrom {number : Nat} {s t : Text}
    (h : (resolveFrom scale number s).outcome = .ok t) :
    (resolveFrom scale number s).journal.filterMap Event.passNumber? =
        List.range' number (nestingDepth s) ∧
      passTimes scale (nestingDepth s) s = .ok t ∧ (pass scale t).outcome = .ok t := by
  have hpass := h
  rw [outcome_resolveFrom] at hpass
  obtain ⟨u, hu, hpass⟩ := Outcome.bind_eq_ok_iff.1 hpass
  by_cases hus : u = s
  · subst hus
    rw [if_pos rfl] at hpass
    cases hpass
    rw [resolveFrom_of_same number hu, passNumbers_pass, (eq_of_pass_iff hu).1 rfl]
    exact ⟨rfl, rfl, hu⟩
  · rw [if_neg hus] at hpass
    obtain ⟨hnumbers, htimes, hlast⟩ := passTimes_of_resolveFrom hpass
    have hdepth : nestingDepth s = nestingDepth u + 1 := by
      have := nestingDepth_of_pass hu
      have := mt (eq_of_pass_iff hu).2 hus
      omega
    refine ⟨?_, ?_, hlast⟩
    · rw [journal_resolveFrom_of_ne number hu hus, List.filterMap_append, passNumbers_pass, hdepth,
        List.range'_succ, ← hnumbers]
      rfl
    · rw [hdepth, passTimes, hu]
      exact htimes
termination_by s.count '('
decreasing_by exact count_pass_lt hu hus

/-- Each pass that is written down was done on what those before it had left, and changed it. -/
theorem passTimes_of_passed_mem {number first : Nat} {s before after : Text}
    (h : .passed number before after ∈ (resolveFrom scale first s).journal) :
    ∃ k, number = first + k ∧ passTimes scale k s = .ok before ∧
      (pass scale before).outcome = .ok after ∧ after ≠ before := by
  rcases mem_journal_resolveFrom.1 h with h | ⟨t, ht, hne, h | h⟩
  · obtain ⟨group, -, h | ⟨result, heq, -⟩⟩ := mem_journal_pass h
    · cases Flat.isStep_of_mem_journal_reduce h
    · cases heq
  · cases h
    exact ⟨0, rfl, rfl, ht, hne⟩
  · obtain ⟨k, hk, htimes, hpass⟩ := passTimes_of_passed_mem h
    refine ⟨k + 1, by omega, ?_, hpass⟩
    rw [passTimes, ht]
    exact htimes
termination_by s.count '('
decreasing_by exact count_pass_lt ht hne

/-- **A text of depth `n` is resolved by `n` passes that change it.**  They are numbered from one to
`n`; each was done on what those before it had left, and made it less deep by exactly one; and after
the last of them a pass changes nothing more.  On no text does a pass that finds an innermost group
leave the text as it is, nor does one that finds none change it. -/
theorem resolve_takes_nestingDepth_passes (h : (resolve scale s).outcome = .ok t) :
    (resolve scale s).journal.filterMap Event.passNumber? = List.range' 1 (nestingDepth s) ∧
      (∀ number before after, .passed number before after ∈ (resolve scale s).journal →
        passTimes scale (number - 1) s = .ok before ∧ (pass scale before).outcome = .ok after ∧
          after ≠ before ∧ nestingDepth before = nestingDepth after + 1) ∧
      passTimes scale (nestingDepth s) s = .ok t ∧ (pass scale t).outcome = .ok t ∧
      ∀ u v, (pass scale u).outcome = .ok v →
        ((Group.pattern.search u).isSome = true ↔ v ≠ u) := by
  obtain ⟨hnumbers, htimes, hlast⟩ := passTimes_of_resolveFrom h
  refine ⟨hnumbers, ?_, htimes, hlast, ?_⟩
  · intro number before after hmem
    obtain ⟨k, rfl, hk, hpass, hne⟩ := passTimes_of_passed_mem hmem
    have := nestingDepth_of_pass hpass
    have := mt (eq_of_pass_iff hpass).2 hne
    exact ⟨by rw [Nat.add_sub_cancel_left]; exact hk, hpass, hne, by omega⟩
  · intro u v hpass
    rw [search_isSome_iff, Ne, Ne, eq_of_pass_iff hpass]

/-- Two levels take two passes; the parenthesis without a partner stays. -/
theorem resolve_takes_two_passes :
    (resolve 2 ")((1) + (2))".toList).outcome = .ok ")3".toList ∧
      (resolve 2 ")((1) + (2))".toList).journal.filterMap Event.passNumber? = [1, 2] := by
  have h : (resolve 2 ")((1) + (2))".toList).outcome = .ok ")3".toList :=
    outcome_resolve_eq_ok_iff.2 (Forest.flatten_of_within 9 (by decide +kernel))
  refine ⟨h, (resolve_takes_nestingDepth_passes h).1.trans ?_⟩
  decide +kernel

end Nested
end Reckon
