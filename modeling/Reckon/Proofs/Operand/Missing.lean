import Reckon.Proofs.Row.Joint
import Reckon.Proofs.Step

/-!
# What is missing stays missing

An operand is missing in a text where the text comes to an end, or an operator comes that is no
sign, and the last thing before it, spaces and parentheses apart, is not a digit
(`LacksOperand`).  An operation puts a literal in the place of two literals and what is between
them.  It has to take both from the same side of such a place, since nothing that is between two
literals follows anything but a digit and blanks, and the literal it leaves begins and ends like
those that it takes.  Freeing a text takes away what was of no account.

So no step, and no reduction, ever finds the operand (`LacksOperand.reduce`), and as a literal lacks
none, the text is not reduced to one (`LacksOperand.ofText?_reduce`).

A minus sign directly before a digit or before another minus sign is not counted as the operator
that ends a text here: it is, or a result may make it, the sign of what follows, as in `2*--5*-3`,
which is reduced to `-30`.
-/

set_option autoImplicit false

namespace Reckon

open Flat

/-! ## Two ways to cut a text -/

/-- Where a text is cut in two ways, the second cut is inside the first part or behind it. -/
theorem append_cases {a b u v : Text} (h : a ++ b = u ++ v) :
    (∃ c, c ≠ [] ∧ a = u ++ c ∧ v = c ++ b) ∨ ∃ c, u = a ++ c ∧ b = c ++ v := by
  rcases List.append_eq_append_iff.1 h with ⟨c, hu, hb⟩ | ⟨c, ha, hv⟩
  · exact .inr ⟨c, hu, hb⟩
  · by_cases hc : c = []
    · subst hc
      exact .inr ⟨[], by simp [ha], by simp [hv]⟩
    · exact .inl ⟨c, hc, ha, hv⟩

/-! ## Characters of literals and of operators -/

namespace Literal.IsProper

variable {l : Literal} (hl : l.IsProper)

include hl

/-- Only the first character of a literal can be a sign. -/
theorem mem_tail {c d : Char} {s : Text} (h : l.text = d :: s) (hc : c ∈ s) :
    c.isDigit = true ∨ c = '.' := by
  cases hn : l.negative with
  | true =>
    rw [text, hn] at h
    cases h
    exact hl.mem_unsigned hc
  | false =>
    rw [text, hn] at h
    exact hl.mem_unsigned (h ▸ List.mem_cons_of_mem _ hc)

/-- A literal begins with a digit, or with a minus sign and a digit. -/
theorem cons_cases {c : Char} {s : Text} (h : l.text = c :: s) :
    c.isDigit = true ∨ c = '-' ∧ ∃ d t, s = d :: t ∧ d.isDigit = true := by
  obtain ⟨d, t, htext, hd⟩ := hl.exists_cons
  rw [h] at htext
  cases hn : l.negative with
  | true =>
    rw [hn] at htext
    cases htext
    exact .inr ⟨rfl, d, t, rfl, hd⟩
  | false =>
    rw [hn] at htext
    cases htext
    exact .inl hd

end Literal.IsProper

namespace Operator

theorem isEdge_symbol (op : Operator) : isEdge op.symbol = false := by cases op <;> rfl

end Operator

theorem isEdge_of_isBlank {c : Char} (h : Text.isBlank c = true) : isEdge c = true := by
  rw [isEdge, Text.isSpace_of_isBlank h, Bool.true_or]

/-! ## Texts that end without an operand -/

/-- The characters of a text that freeing it does not take away. -/
def ink (s : Text) : Text := s.filter fun c ↦ !isEdge c

theorem ink_append (s t : Text) : ink (s ++ t) = ink s ++ ink t := List.filter_append s t

theorem ink_eq_nil_iff {s : Text} : ink s = [] ↔ ∀ c ∈ s, isEdge c = true := by simp [ink]

theorem ink_text {l : Literal} (hl : l.IsProper) : ink l.text = l.text :=
  List.filter_eq_self.2 fun c hc ↦ by simp [isEdge_of_mem_text hl hc]

/-- The last thing in a text, spaces and parentheses apart, is not a digit. -/
def EndsOpen (s : Text) : Prop := ∀ c ∈ (ink s).getLast?, c.isDigit = false

theorem endsOpen_congr {s t : Text} (h : ink s = ink t) : EndsOpen s ↔ EndsOpen t := by
  rw [EndsOpen, h, EndsOpen]

/-- Behind a literal there has to be something that is not a digit. -/
theorem endsOpen_literal_iff {l : Literal} (hl : l.IsProper) {s t : Text} :
    EndsOpen (s ++ (l.text ++ t)) ↔ ink t ≠ [] ∧ EndsOpen t := by
  rw [EndsOpen, ink_append, ink_append, ink_text hl, List.getLast?_append, List.getLast?_append]
  by_cases ht : ink t = []
  · obtain ⟨u, c, hu, hdigit⟩ := hl.exists_concat
    rw [ht, hu, List.getLast?_concat]
    refine iff_of_false (fun h ↦ ?_) (fun h ↦ h.1 rfl)
    rw [h c rfl] at hdigit
    cases hdigit
  · rw [List.getLast?_eq_some_getLast ht, Option.some_or, Option.some_or,
      ← List.getLast?_eq_some_getLast ht, EndsOpen]
    simp [ht]

/-! ## Texts that begin without an operand -/

/-- A text that is at its end or begins with an operator that is not the sign of what follows it,
nor becomes one. -/
inductive Shuts : Text → Prop where
  | nil : Shuts []
  | cons (op : Operator) (s : Text)
      (h : op = .minus → ∀ c ∈ s.head?, c.isDigit = false ∧ c ≠ '-') : Shuts (op.symbol :: s)

namespace Shuts

theorem isEdge_head {c : Char} {s : Text} (h : Shuts (c :: s)) : isEdge c = false := by
  cases h with
  | cons op => exact op.isEdge_symbol

/-- Spaces and parentheses do not shut what stands before them. -/
theorem eq_nil_of_edges {s t : Text} (hs : ∀ c ∈ s, isEdge c = true) (h : Shuts (s ++ t)) :
    s = [] := by
  cases s with
  | nil => rfl
  | cons c s =>
    have hc := h.isEdge_head
    rw [hs c List.mem_cons_self] at hc
    cases hc

theorem of_append {s t : Text} (h : Shuts (s ++ t)) : Shuts s := by
  cases s with
  | nil => exact .nil
  | cons c s =>
    generalize hs : c :: s ++ t = u at h
    cases h with
    | nil => cases hs
    | cons op u hop =>
      cases hs
      refine .cons op s fun hminus d hd ↦ hop hminus d ?_
      cases s with
      | nil => cases hd
      | cons e s => exact hd

/-- A text whose first character belongs to a literal does not shut what stands before it. -/
theorem not_literal {l : Literal} (hl : l.IsProper) {x y t : Text} (h : l.text = x ++ y)
    (hy : y ≠ []) : ¬ Shuts (y ++ t) := by
  intro hshuts
  obtain ⟨c, y, rfl⟩ := List.exists_cons_of_ne_nil hy
  generalize hs : c :: y ++ t = u at hshuts
  cases hshuts with
  | nil => cases hs
  | cons op u hop =>
    cases hs
    cases x with
    | nil =>
      rcases hl.cons_cases h with hd | ⟨hminus, d, y, rfl, hd⟩
      · rw [Separator.isDigit_symbol] at hd
        cases hd
      · have := (hop (Operator.symbol_inj.1 hminus) d rfl).1
        rw [hd] at this
        cases this
    | cons e x =>
      rcases hl.mem_tail h (List.mem_append_right x List.mem_cons_self) with hd | hpoint
      · rw [Separator.isDigit_symbol] at hd
        cases hd
      · exact op.symbol_ne_point hpoint

/-- What a literal behind the beginning of a text is does not matter. -/
theorem replace {l l' : Literal} (hl : l.IsProper) {s t t' : Text} (hs : s ≠ [])
    (h : Shuts (s ++ (l.text ++ t))) : Shuts (s ++ (l'.text ++ t')) := by
  obtain ⟨c, s, rfl⟩ := List.exists_cons_of_ne_nil hs
  generalize hu : c :: s ++ (l.text ++ t) = u at h
  cases h with
  | nil => cases hu
  | cons op u hop =>
    cases hu
    refine .cons op _ fun hminus d hd ↦ ?_
    cases s with
    | cons e s => exact hop hminus d hd
    | nil =>
      -- the minus sign would stand directly before the literal
      have hne : l.text ≠ [] := by simp [Literal.text, hl.whole_ne_nil]
      obtain ⟨e, r, he⟩ := List.exists_cons_of_ne_nil hne
      have hhead := hop hminus e (by rw [he]; rfl)
      rcases hl.cons_cases he with hdigit | ⟨rfl, -⟩
      · rw [hhead.1] at hdigit
        cases hdigit
      · exact absurd rfl hhead.2

end Shuts

/-! ## Texts that lack an operand -/

/-- At some place in a text an operand is missing. -/
def LacksOperand (s : Text) : Prop := ∃ u v, s = u ++ v ∧ EndsOpen u ∧ Shuts v

/-- No operand is missing in a literal. -/
theorem not_lacksOperand_text {l : Literal} (hl : l.IsProper) : ¬ LacksOperand l.text := by
  rintro ⟨u, v, h, hu, hv⟩
  by_cases hnil : v = []
  · rw [hnil, List.append_nil] at h
    have hlast : EndsOpen ([] ++ (l.text ++ [])) := by
      rwa [List.nil_append, List.append_nil, h]
    exact ((endsOpen_literal_iff hl).1 hlast).1 rfl
  · refine Shuts.not_literal hl h hnil (t := []) ?_
    rwa [List.append_nil]

namespace LacksOperand

variable {scale : Int} {op : Operator} {s t : Text}

/-- An operation works on one side of the place where the operand is missing. -/
theorem replace {o : Occurrence Pair} (h : LacksOperand s) (ho : (operation op).search s = some o)
    (d : Decimal) : LacksOperand (o.before ++ (d.plain ++ o.after)) := by
  obtain ⟨u, v, hs, hu, hv⟩ := h
  obtain ⟨hl, hr, ⟨x, rest, hgap⟩, hfound⟩ := exists_of_search_operation ho
  obtain ⟨a, b, hab, hblank⟩ := Separator.exists_blanks_of_scan? hgap
  have hd := d.isProper_toLiteral
  have hedge : ∀ c, c ∈ a ∨ c ∈ b → isEdge c = true := fun c hc ↦ isEdge_of_isBlank (hblank c hc)
  rw [Pair.text, hab, hs] at hfound
  simp only [List.append_assoc, List.cons_append] at hfound
  -- the place is looked for part by part, and no part of the pair can have it inside
  rcases append_cases hfound with ⟨c, hc, hbefore, rfl⟩ | ⟨c, rfl, h₁⟩
  · exact ⟨u, c ++ (d.plain ++ o.after), by simp [hbefore], hu, hv.replace hl hc⟩
  rcases append_cases h₁ with ⟨c, hc, hleft, rfl⟩ | ⟨c, rfl, h₂⟩
  · exact absurd hv (Shuts.not_literal hl hleft hc)
  obtain ⟨hink, -⟩ := (endsOpen_literal_iff hl).1 hu
  rcases append_cases h₂ with ⟨c, hc, ha, rfl⟩ | ⟨c, rfl, h₃⟩
  · exact absurd (hv.eq_nil_of_edges fun e he ↦ hedge e (.inl (by simp [ha, he]))) hc
  cases c with
  | nil =>
    refine absurd (ink_eq_nil_iff.2 fun e he ↦ hedge e (.inl ?_)) hink
    rwa [List.append_nil] at he
  | cons e c =>
    obtain ⟨rfl, hbehind⟩ := List.cons.inj h₃
    rcases append_cases hbehind with ⟨c, hc, hb, rfl⟩ | ⟨c, rfl, h₄⟩
    · exact absurd (hv.eq_nil_of_edges fun e he ↦ hedge e (.inr (by simp [hb, he]))) hc
    rcases append_cases h₄ with ⟨c, hc, hright, rfl⟩ | ⟨c, rfl, hafter⟩
    · exact absurd hv (Shuts.not_literal hr hright hc)
    have hopen : EndsOpen ((o.before ++ o.found.left.text ++ a ++ op.symbol :: b) ++
        (o.found.right.text ++ c)) := by simpa using hu
    refine ⟨o.before ++ (d.plain ++ c), v, by simp [hafter], ?_, hv⟩
    exact (endsOpen_literal_iff hd).2 ((endsOpen_literal_iff hr).1 hopen)

/-- Freeing a text takes nothing away from between an operand and its neighbours. -/
theorem unwrap (h : LacksOperand s) : LacksOperand (Flat.unwrap s) := by
  obtain ⟨u, v, rfl, hu, hv⟩ := h
  obtain ⟨x, y, hs, hx, hy⟩ := exists_edges_of_unwrap (u ++ v)
  generalize Flat.unwrap (u ++ v) = m at hs ⊢
  rcases append_cases hs.symm with ⟨c, hc, hbefore, rfl⟩ | ⟨c, rfl, hrest⟩
  · exact absurd (hv.eq_nil_of_edges fun e he ↦ hx e (by simp [hbefore, he])) hc
  have hopen : EndsOpen c := by
    refine (endsOpen_congr ?_).1 hu
    rw [ink_append, ink_eq_nil_iff.2 hx, List.nil_append]
  rcases append_cases hrest with ⟨e, he, hunwrap, rfl⟩ | ⟨e, rfl, hbehind⟩
  · exact ⟨c, e, hunwrap, hopen, hv.of_append⟩
  · have hink : ink e = [] := ink_eq_nil_iff.2 fun f hf ↦ hy f (by simp [hbehind, hf])
    refine ⟨m, [], (List.append_nil _).symm, (endsOpen_congr ?_).1 hopen, .nil⟩
    rw [ink_append, hink, List.append_nil]

theorem step (h : LacksOperand s) (hstep : (Flat.step scale op s).outcome = .ok t) :
    LacksOperand t := by
  rcases eq_unwrap_of_step hstep with ⟨-, rfl⟩ | ⟨o, d, ho, -, rfl⟩
  · exact h.unwrap
  · exact (h.replace ho d).unwrap

/-- No reduction finds an operand that is missing. -/
theorem reduce (h : LacksOperand s) (hreduce : (Flat.reduce scale s).outcome = .ok t) :
    LacksOperand t :=
  reduce_induction (fun _ _ _ hs hstep ↦ hs.step hstep) hreduce h

/-- A text that lacks an operand is not reduced to a literal. -/
theorem ofText?_reduce (h : LacksOperand s) (hreduce : (Flat.reduce scale s).outcome = .ok t) :
    Literal.ofText? t = none := by
  refine Literal.ofText?_eq_none_iff.2 ?_
  rintro l hl rfl
  exact not_lacksOperand_text hl (h.reduce hreduce)

end LacksOperand
end Reckon
