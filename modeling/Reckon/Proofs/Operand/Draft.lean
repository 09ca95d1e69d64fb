import Reckon.Proofs.Formula.Syntax
import Reckon.Proofs.Fuel
import Reckon.Proofs.Journal
import Reckon.Proofs.Operand.Missing

/-!
# Groups with operands missing

A `Draft` is what stands in a group that somebody has not finished: operands with operators between
them, of which any operand may be missing, the one at the left end as well as those behind the
operators.  `3 +`, a lone `+` and nothing at all are drafts.

Where no operand is missing a draft is a row, and the group is reduced to the number that the row
comes to.  Where one is missing the group lacks an operand (`Draft.lacksOperand_of_edges`), and what
it is reduced to is no number.  So the text that is put in the place of a group is a number exactly
if the group is complete (`group_result_iff`).

Nothing looks at that text before it is put there.  What is left of a group with an operand missing
then takes its operand from outside: `(3 +)4` has the value 7.
-/

set_option autoImplicit false

namespace Reckon

open Flat

/-- Blanks and nothing else. -/
abbrev Blanks := {s : Text // ∀ c ∈ s, Text.isBlank c = true}

/-- An operator, with an operand behind it or without one. -/
inductive Slot where
  /-- An operator and the operand behind it. -/
  | filled (j : Joint) (x : Operand)
  /-- An operator among blanks, without an operand behind it. -/
  | missing (op : Operator) (left right : Blanks)

namespace Slot

/-- A slot as it is written. -/
def text : Slot → Text
  | filled j x => j.text ++ x.1.text
  | missing op left right => left.1 ++ op.symbol :: right.1

/-- Whether the operand is there. -/
def isFilled : Slot → Bool
  | filled _ _ => true
  | missing _ _ _ => false

end Slot

/-- Operands with operators between them, of which some operands may be missing. -/
structure Draft where
  /-- The operand at the left end, if it is there. -/
  first : Option Operand
  /-- The operators, each with its operand, if it is there. -/
  rest : List Slot

namespace Draft

/-- A draft as it is written. -/
def text (d : Draft) : Text :=
  (match d.first with
    | some x => x.1.text
    | none => []) ++ d.rest.flatMap Slot.text

/-- No operand is missing. -/
def IsComplete (d : Draft) : Prop :=
  d.first.isSome = true ∧ ∀ slot ∈ d.rest, slot.isFilled = true

instance (d : Draft) : Decidable d.IsComplete :=
  inferInstanceAs (Decidable (_ ∧ ∀ slot ∈ d.rest, slot.isFilled = true))

/-! ## Complete drafts -/

theorem exists_tailBy {rest : List Slot} (h : ∀ slot ∈ rest, slot.isFilled = true) :
    ∃ ps, Row.tailBy Joint.text ps = rest.flatMap Slot.text := by
  induction rest with
  | nil => exact ⟨[], rfl⟩
  | cons slot rest ih =>
    obtain ⟨hslot, hrest⟩ := List.forall_mem_cons.1 h
    obtain ⟨ps, hps⟩ := ih hrest
    cases slot with
    | filled j x => exact ⟨(j, x) :: ps, by simp [Row.tailBy, Slot.text, hps]⟩
    | missing op left right => cases hslot

/-- A complete draft is a row. -/
theorem IsComplete.exists_row {d : Draft} (h : d.IsComplete) :
    ∃ r : Row Operand, r.text = d.text := by
  obtain ⟨first, rest⟩ := d
  obtain ⟨hfirst, hrest⟩ := h
  obtain ⟨ps, hps⟩ := exists_tailBy hrest
  cases first with
  | none => cases hfirst
  | some x => exact ⟨⟨x, ps⟩, congrArg (x.1.text ++ ·) hps⟩

/-! ## Incomplete drafts -/

theorem isEdge_of_blanks (b : Blanks) : ∀ c ∈ b.1, isEdge c = true :=
  fun c hc ↦ isEdge_of_isBlank (b.2 c hc)

/-- The symbol of an operator shuts what stands before a joint. -/
theorem shuts_joint (j : Joint) (s : Text) : Shuts (j.operator.symbol :: (j.right ++ s)) := by
  refine .cons j.operator _ fun hminus c hc ↦ ?_
  obtain ⟨d, right, hright⟩ := List.exists_cons_of_ne_nil (j.right_ne_nil hminus)
  have hd := j.isBlank_right d (by rw [hright]; exact List.mem_cons_self)
  rw [hright] at hc
  cases hc
  exact ⟨Separator.isDigit_of_isBlank hd, Text.ne_of_isBlank hd rfl⟩

/-- Behind an operator an operand is missing until one comes. -/
theorem endsOpen_missing (u : Text) (op : Operator) (left right : Blanks) :
    EndsOpen (u ++ (Slot.missing op left right).text) := by
  have hsymbol : ink [op.symbol] = [op.symbol] := by simp [ink, op.isEdge_symbol]
  have hink : ink (u ++ (left.1 ++ ([op.symbol] ++ right.1))) = ink u ++ [op.symbol] := by
    rw [ink_append, ink_append, ink_append, hsymbol, ink_eq_nil_iff.2 (isEdge_of_blanks left),
      ink_eq_nil_iff.2 (isEdge_of_blanks right), List.nil_append, List.append_nil]
  intro c hc
  rw [Slot.text, ← List.singleton_append, hink, List.getLast?_concat] at hc
  cases hc
  exact Separator.isDigit_symbol op

/-- An operand is missing behind `u` or in one of the slots.  The last place where one is missing is
followed by an operator with its operand, or by nothing. -/
theorem lacksOperand_slots {b : Text} (hb : ∀ c ∈ b, isEdge c = true) (rest : List Slot) (u : Text)
    (h : EndsOpen u ∨ ∃ slot ∈ rest, slot.isFilled = false) :
    LacksOperand (u ++ (rest.flatMap Slot.text ++ b)) := by
  induction rest generalizing u with
  | nil =>
    have hu : EndsOpen u := h.resolve_right (by simp)
    refine ⟨u ++ b, [], by simp, (endsOpen_congr ?_).2 hu, .nil⟩
    rw [ink_append, ink_eq_nil_iff.2 hb, List.append_nil]
  | cons slot rest ih =>
    have htext : u ++ ((slot :: rest).flatMap Slot.text ++ b) =
        (u ++ slot.text) ++ (rest.flatMap Slot.text ++ b) := by simp
    by_cases hrest : ∃ later ∈ rest, later.isFilled = false
    · rw [htext]
      exact ih _ (.inr hrest)
    · cases slot with
      | missing op left right =>
        rw [htext]
        exact ih _ (.inl (endsOpen_missing u op left right))
      | filled j x =>
        have hu : EndsOpen u := by
          refine h.resolve_right ?_
          rintro ⟨later, hmem, hlater⟩
          rcases List.mem_cons.1 hmem with rfl | hmem
          · cases hlater
          · exact hrest ⟨later, hmem, hlater⟩
        have hleft : ink j.left = [] :=
          ink_eq_nil_iff.2 fun c hc ↦ isEdge_of_isBlank (j.isBlank_left c hc)
        refine ⟨u ++ j.left, _, ?_, (endsOpen_congr ?_).2 hu,
          shuts_joint j (x.1.text ++ (rest.flatMap Slot.text ++ b))⟩
        · simp [Slot.text, Joint.text]
        · rw [ink_append, hleft, List.append_nil]

/-- An incomplete draft lacks an operand, whatever spaces and parentheses stand around it. -/
theorem lacksOperand_of_edges {a b : Text} (ha : ∀ c ∈ a, isEdge c = true)
    (hb : ∀ c ∈ b, isEdge c = true) {d : Draft} (h : ¬ d.IsComplete) :
    LacksOperand (a ++ (d.text ++ b)) := by
  obtain ⟨first, rest⟩ := d
  cases first with
  | none =>
    have hopen : EndsOpen a := by
      rw [EndsOpen, ink_eq_nil_iff.2 ha]
      simp
    exact lacksOperand_slots hb rest a (.inl hopen)
  | some x =>
    have hmissing : ∃ slot ∈ rest, slot.isFilled = false := by
      simpa [IsComplete] using h
    have hslots := lacksOperand_slots hb rest (a ++ x.1.text) (.inr hmissing)
    simpa [text] using hslots

end Draft

/-! ## Groups -/

/-- **The text in the place of a group is a number exactly if no operand is missing in the group.**
A group in which an operand is missing, whatever else is in it, is never replaced by a number; and a
group of operands and operators is replaced by one if and only if all of its operands are there.  A
group that cannot be reduced is not replaced at all. -/
theorem group_result_iff {scale : Int} {s group result : Text}
    (h : .grouped group result ∈ (evaluate scale s).journal) :
    (LacksOperand group → Literal.ofText? result = none) ∧
      ∀ (lead trail : Spaces) (d : Draft),
        group = '(' :: (lead.1 ++ (d.text ++ trail.1) ++ [')']) →
          ((∃ l, Literal.ofText? result = some l) ↔ d.IsComplete) := by
  obtain ⟨-, hresult⟩ := outcome_of_grouped_mem_journal h
  have hlacks : LacksOperand group → Literal.ofText? result = none :=
    fun hgroup ↦ hgroup.ofText?_reduce hresult
  refine ⟨hlacks, ?_⟩
  rintro lead trail d rfl
  constructor
  · rintro ⟨l, hl⟩
    refine Decidable.byContradiction fun hd ↦ ?_
    have hgroup := Draft.lacksOperand_of_edges (Row.isEdge_open lead.2).isEdge
      (Row.isEdge_close trail.2).isEdge hd
    rw [← Row.enclosed_text] at hgroup
    rw [hlacks hgroup] at hl
    cases hl
  · intro hd
    obtain ⟨r, hr⟩ := hd.exists_row
    rw [← hr, Row.outcome_reduce_enclosed scale lead.2 trail.2 r] at hresult
    obtain ⟨x, -, rfl⟩ := Outcome.map_eq_ok_iff.1 hresult
    exact ⟨x.1, Literal.ofText?_text x.2⟩

/-- The group of `(3 +)4` is replaced by what stands in it. -/
theorem grouped_mem_open_sum :
    .grouped "(3 +)".toList "3 +".toList ∈ (evaluate 2 "(3 +)4".toList).journal := by
  have hscan : Group.scan? "(3 +)4".toList = some ("(3 +)".toList, "4".toList) := by decide
  have hresult : (Flat.reduce 2 "(3 +)".toList).outcome = .ok "3 +".toList :=
    Flat.outcome_reduce_of_within (by decide +kernel : Flat.reduceWithin 9 2 _ = some "3 +".toList)
  exact mem_journal_evaluate_of_pass
    (Nested.mem_journal_pass_of_scan? hscan (.inr ⟨_, rfl, hresult⟩))

/-- An operator at the end of a group stays in its place. -/
theorem group_result_iff_open_sum :
    .grouped "(3 +)".toList "3 +".toList ∈ (evaluate 2 "(3 +)4".toList).journal ∧
      ¬ ∃ l, Literal.ofText? "3 +".toList = some l := by
  let three : Operand := ⟨⟨false, ['3'], []⟩, by simp, by simp, by simp⟩
  let d : Draft := ⟨some three, [.missing .plus ⟨[' '], by simp [Text.isBlank]⟩ ⟨[], by simp⟩]⟩
  have hd : ¬ d.IsComplete := fun h ↦ absurd (h.2 _ List.mem_cons_self) (by decide)
  have hiff := (group_result_iff grouped_mem_open_sum).2 ⟨[], by simp⟩ ⟨[], by simp⟩ d rfl
  exact ⟨grouped_mem_open_sum, mt hiff.1 hd⟩

/-- An operator at the end of a group takes the number behind the group as its operand: `(3 +)4` is
not rejected, but has the value 7. -/
theorem evaluate_open_sum :
    (evaluate 2 "(3 +)4".toList).outcome = .ok ⟨⟨false, 700, -2⟩, false⟩ ∧
      .grouped "(3 +)".toList "3 +".toList ∈ (evaluate 2 "(3 +)4".toList).journal ∧
        Literal.ofText? "3 +".toList = none := by
  refine ⟨outcome_evaluate_of_within 9 ?_, grouped_mem_open_sum, ?_⟩
  · decide +kernel
  · decide

end Reckon
