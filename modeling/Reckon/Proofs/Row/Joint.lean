import Reckon.Proofs.Row.Scan

/-!
# Operators between literals

A `Joint` is an operator as it may be written between two literals so that it is surely read as one:
blanks may stand around it, but a minus sign has a blank behind it, since it would be the sign of
the next literal otherwise, and a percent sign has none around it, since it would be no operator
then.

Behind a literal, a joint and another literal are found as a pair of the operator, and as nothing
else (`followed?_operator`, `followed?_bad`); and nothing begins inside a joint (`silent_text`).
-/

set_option autoImplicit false

namespace Reckon

/-- An operator with the blanks that stand around it. -/
structure Joint where
  /-- The operator. -/
  operator : Operator
  /-- The blanks before it. -/
  left : Text
  /-- The blanks behind it. -/
  right : Text
  isBlank_left : ∀ c ∈ left, Text.isBlank c = true
  isBlank_right : ∀ c ∈ right, Text.isBlank c = true
  /-- A minus sign is kept apart from the literal behind it. -/
  right_ne_nil : operator = .minus → right ≠ []
  /-- A percent sign has no blanks around it. -/
  eq_nil : operator = .remainder → left = [] ∧ right = []

/-- An operator with a space on both sides. -/
def Joint.spaced (op : Operator) (h : op ≠ .remainder) : Joint where
  operator := op
  left := [' ']
  right := [' ']
  isBlank_left := by simp [Text.isBlank]
  isBlank_right := by simp [Text.isBlank]
  right_ne_nil _ := by simp
  eq_nil hop := absurd hop h

/-! ## Blanks -/

namespace Text

theorem ne_of_isBlank {c d : Char} (hc : isBlank c = true) (hd : isBlank d = false) : c ≠ d := by
  rintro rfl
  rw [hc] at hd
  cases hd

theorem isBlank_of_isDigit {c : Char} (h : c.isDigit = true) : isBlank c = false := by
  cases hb : isBlank c with
  | false => rfl
  | true =>
    rw [Separator.isDigit_of_isBlank hb] at h
    cases h

end Text

/-! ## Symbols -/

namespace Operator

theorem isBlank_symbol (op : Operator) : Text.isBlank op.symbol = false := by cases op <;> rfl

theorem isForeign_symbol (op : Operator) : Separator.isForeign op.symbol = false := by
  cases op <;> rfl

theorem symbol_ne_point (op : Operator) : op.symbol ≠ '.' := by cases op <;> decide

theorem symbol_inj {op op' : Operator} : op.symbol = op'.symbol ↔ op = op' := by
  cases op <;> cases op' <;> decide

end Operator

namespace Literal

/-- A literal does not begin with a blank. -/
theorem IsProper.isBlank_head {l : Literal} (h : l.IsProper) (s : Text) :
    ∀ c ∈ (l.text ++ s).head?, Text.isBlank c = false := by
  obtain ⟨d, t, hw⟩ := List.exists_cons_of_ne_nil h.whole_ne_nil
  intro c hc
  cases hn : l.negative with
  | true =>
    rw [text, hn] at hc
    cases hc
    rfl
  | false =>
    rw [text, hn, hw] at hc
    cases hc
    exact Text.isBlank_of_isDigit (h.isDigit_whole d (by rw [hw]; exact List.mem_cons_self))

end Literal

namespace Separator

theorem spanBlanks_append {b s : Text} (hb : ∀ c ∈ b, Text.isBlank c = true)
    (hs : ∀ c ∈ s.head?, Text.isBlank c = false) : spanBlanks (b ++ s) = (b, s) := by
  rw [spanBlanks, List.takeWhile_append_of_pos hb, List.dropWhile_append_of_pos hb]
  cases s with
  | nil => simp
  | cons c s => simp [hs c rfl]

/-- A character among blanks is scanned as a mark. -/
theorem scanMark?_append (p : Char → Bool) {a b s : Text} {c : Char}
    (ha : ∀ d ∈ a, Text.isBlank d = true) (hc : Text.isBlank c = false)
    (hb : ∀ d ∈ b, Text.isBlank d = true) (hs : ∀ d ∈ s.head?, Text.isBlank d = false) :
    scanMark? p (a ++ c :: (b ++ s)) = if p c then some ((a, c, b), s) else none := by
  have hleft : spanBlanks (a ++ c :: (b ++ s)) = (a, c :: (b ++ s)) :=
    spanBlanks_append ha fun d hd ↦ by cases hd; exact hc
  rw [scanMark?, hleft]
  dsimp only
  rw [spanBlanks_append hb hs]

end Separator

namespace Joint

open Separator

variable (j : Joint) (l : Literal) (s : Text)

/-- A joint as it is written. -/
def text : Text := j.left ++ j.operator.symbol :: j.right

theorem append_text : j.text ++ s = j.left ++ j.operator.symbol :: (j.right ++ s) := by
  simp [text]

theorem closes_text : Literal.Closes (j.text ++ s) := by
  rw [append_text]
  cases h : j.left with
  | nil => exact Literal.closes_cons (isDigit_symbol _) (Operator.symbol_ne_point _)
  | cons c left =>
    have hc := j.isBlank_left c (by rw [h]; exact List.mem_cons_self)
    exact Literal.closes_cons (isDigit_of_isBlank hc) (Text.ne_of_isBlank hc rfl)

theorem spanBlanks_text :
    spanBlanks (j.text ++ s) = (j.left, j.operator.symbol :: (j.right ++ s)) := by
  rw [append_text]
  refine spanBlanks_append j.isBlank_left fun c hc ↦ ?_
  cases hc
  exact Operator.isBlank_symbol _

/-! ## What is found in a joint -/

/-- No literal begins with the symbol of a joint. -/
theorem scan?_symbol_eq_none : Literal.scan? (j.operator.symbol :: (j.right ++ s)) = none := by
  by_cases hop : j.operator = .minus
  · rw [hop]
    refine Literal.scan?_minus_eq_none ?_
    obtain ⟨c, right, hright⟩ := List.exists_cons_of_ne_nil (j.right_ne_nil hop)
    intro d hd
    rw [hright] at hd
    cases hd
    exact isDigit_of_isBlank (j.isBlank_right c (by rw [hright]; exact List.mem_cons_self))
  · have hne : j.operator.symbol ≠ Operator.minus.symbol := fun h ↦ hop (Operator.symbol_inj.1 h)
    exact Literal.scan?_cons_eq_none (isDigit_symbol _) hne _

theorem scan?_blank_eq_none {c : Char} (hc : Text.isBlank c = true) :
    Literal.scan? (c :: s) = none :=
  Literal.scan?_cons_eq_none (isDigit_of_isBlank hc) (Text.ne_of_isBlank hc rfl) s

/-- Nothing is found at any place inside a joint. -/
theorem silent_text (sep : Separator) : (Pair.pattern sep).Silent j.text s := by
  have hblanks : ∀ b t, (∀ c ∈ b, Text.isBlank c = true) → (Pair.pattern sep).Silent b t := by
    intro b t hb
    refine (Pair.pattern sep).silent_of_forall t fun c hc u ↦ ?_
    exact Pair.scan?_eq_none sep (scan?_blank_eq_none u (hb c hc))
  refine ((Pair.pattern sep).silent_append).2 ⟨hblanks _ _ j.isBlank_left, ?_, ?_⟩
  · exact Pair.scan?_eq_none sep (j.scan?_symbol_eq_none s)
  · exact hblanks _ _ j.isBlank_right

/-- Blanks alone do not lead from one literal to the next. -/
theorem followed?_blanks : Separator.blanks.followed? (j.text ++ s) = none := by
  rw [followed?, Separator.scan?, scanBlanks?, spanBlanks_text]
  dsimp only
  split
  · rfl
  · dsimp only [Option.bind_some]
    rw [j.scan?_symbol_eq_none]
    rfl

/-! ## A joint and a literal -/

variable {l} (hl : l.IsProper)

include hl

theorem scanMark?_text (p : Char → Bool) :
    scanMark? p (j.text ++ (l.text ++ s)) =
      if p j.operator.symbol then some ((j.left, j.operator.symbol, j.right), l.text ++ s)
      else none := by
  rw [append_text]
  exact scanMark?_append p j.isBlank_left (Operator.isBlank_symbol _) j.isBlank_right
    (hl.isBlank_head s)

/-- A joint and a literal are found as what follows the first literal of a pair. -/
theorem followed?_operator (hs : Literal.Closes s) (op : Operator) :
    (Separator.operator op).followed? (j.text ++ (l.text ++ s)) =
      if j.operator = op then some (j.text, l, s) else none := by
  rw [followed?, Separator.scan?, scanMark?_text j s hl]
  by_cases hop : j.operator = op
  · rw [if_pos (by simp [hop]), if_pos hop]
    dsimp only [Option.bind_some]
    rw [Literal.scan?_text_append hl hs]
    rfl
  · have hne : ¬ j.operator.symbol = op.symbol := fun h ↦ hop (Operator.symbol_inj.1 h)
    rw [if_neg (by simpa using hne), if_neg hop]
    rfl

/-- A joint is none of the things that must not stand between two literals. -/
theorem followed?_bad {sep : Separator} (hsep : sep ∈ Flat.badSeparators) :
    sep.followed? (j.text ++ (l.text ++ s)) = none := by
  have hblanks := j.followed?_blanks (l.text ++ s)
  simp only [Flat.badSeparators, List.mem_cons, List.not_mem_nil, or_false] at hsep
  rcases hsep with rfl | rfl | rfl
  · exact hblanks
  · rw [followed?, Separator.scan?, scanMark?_text j s hl, Operator.isForeign_symbol]
    exact hblanks
  · rw [followed?, Separator.scan?, scanMark?_text j s hl]
    by_cases hop : j.operator = .remainder
    · obtain ⟨hleft, hright⟩ := j.eq_nil hop
      rw [hop, hleft, hright]
      rfl
    · have hne : j.operator.symbol ≠ '%' := fun h ↦
        hop (Operator.symbol_inj.1 (show _ = Operator.remainder.symbol from h))
      rw [if_neg (by simpa using hne)]
      rfl

end Joint
end Reckon
