import Reckon.Proofs.Row.Reduce

/-!
# Rows written without blanks

Without blanks a minus sign stands directly in front of a literal, and there it is read as the sign
of the literal.  So the text of a row without blanks, of which all literals are unsigned, is also
the text of another row: the one that has the literals behind the minus signs turned negative
(`signed`) and no mark for the operator in front of them (`compact_eq`).

In that row an operation other than a difference finds just what was written, as long as the
literals behind minus signs stay negative (`reads_mark`); so only then it does what it does with
blanks.  Where there are only differences it is the other way round: each sign between two literals
is the operator, and the literals may have signs of their own (`reads_symbolText`).
-/

set_option autoImplicit false

namespace Reckon

/-- The literal with the other sign. -/
def Operand.neg (x : Operand) : Operand :=
  ⟨{ x.1 with negative := !x.1.negative },
    ⟨x.2.whole_ne_nil, x.2.isDigit_whole, x.2.isDigit_places⟩⟩

/-! ## Marks without blanks -/

namespace Joint

/-- An operator other than a minus sign, without blanks. -/
def tight (op : Operator) (h : op ≠ .minus) : Joint where
  operator := op
  left := []
  right := []
  isBlank_left := by simp
  isBlank_right := by simp
  right_ne_nil hop := absurd hop h
  eq_nil _ := ⟨rfl, rfl⟩

/-- The symbol of an operator. -/
def symbolText (j : Joint) : Text := [j.operator.symbol]

/-- The symbol of an operator, except that a minus sign is left to the literal behind it. -/
def mark (j : Joint) : Text := if j.operator = .minus then [] else [j.operator.symbol]

theorem symbolText_of_eq {j : Joint} (h : j.operator = .minus) : j.symbolText = ['-'] := by
  rw [symbolText, h]
  rfl

theorem mark_of_ne {j : Joint} (h : j.operator ≠ .minus) : j.mark = (tight j.operator h).text := by
  rw [mark, if_neg h]
  rfl

theorem mark_of_eq {j : Joint} (h : j.operator = .minus) : j.mark = [] := by rw [mark, if_pos h]

end Joint

namespace Literal

theorem text_of_negative {l : Literal} (h : l.negative = true) :
    l.text = '-' :: (l.whole ++ placesText l.places) := by
  rw [text, h]
  rfl

end Literal

theorem Operand.text_neg {x : Operand} (h : x.1.negative = false) :
    x.neg.1.text = '-' :: x.1.text := by
  rw [Literal.text_of_negative (by simp [neg, h]), Literal.text, h]
  rfl

namespace Separator

/-- A minus sign leads to the next literal only as an operator. -/
theorem followed?_minus {sep : Separator} (h : sep ∈ Flat.badSeparators ∨
    ∃ op, op ≠ .minus ∧ sep = .operator op) (s : Text) : sep.followed? ('-' :: s) = none := by
  have hblanks : spanBlanks ('-' :: s) = ([], '-' :: s) := rfl
  have hscan : sep.scan? ('-' :: s) = none := by
    rcases h with h | ⟨op, hop, rfl⟩
    · simp only [Flat.badSeparators, List.mem_cons, List.not_mem_nil, or_false] at h
      rcases h with rfl | rfl | rfl <;> rfl
    · have hne : ¬ '-' = op.symbol := fun h ↦ hop (Operator.symbol_inj.1 h.symm)
      rw [scan?, scanMark?, hblanks]
      simp [hne]
  rw [followed?, hscan]
  rfl

/-- Without blanks, the symbol of an operator leads to the literal behind it. -/
theorem followed?_symbol (op : Operator) {l : Literal} (hl : l.IsProper) {s : Text}
    (hs : Literal.Closes s) :
    (Separator.operator op).followed? ([op.symbol] ++ (l.text ++ s)) =
      some ([op.symbol], l, s) := by
  have hnil : ∀ d ∈ ([] : Text), Text.isBlank d = true := by simp
  have hmark : scanMark? (· = op.symbol) (op.symbol :: (l.text ++ s)) =
      some (([], op.symbol, []), l.text ++ s) := by
    simpa using scanMark?_append (· = op.symbol) hnil (Operator.isBlank_symbol op) hnil
      (hl.isBlank_head s)
  have hscan : (Separator.operator op).scan? (op.symbol :: (l.text ++ s)) =
      some ([op.symbol], l.text ++ s) := by
    rw [scan?, hmark]
    rfl
  rw [List.singleton_append, followed?, hscan]
  dsimp only [Option.bind_some]
  rw [Literal.scan?_text_append hl hs]
  rfl

end Separator

/-- No pair begins with a minus sign in front of a literal that nothing follows: either the sign is
that of the literal, or another sign stands behind it. -/
theorem Pair.scan?_minus_text {sep : Separator} (y : Operand) {s : Text} (hs : Literal.Closes s)
    (hnone : sep.followed? s = none) : (pattern sep).scan? ('-' :: (y.1.text ++ s)) = none := by
  cases hneg : y.1.negative with
  | false =>
    have hscan := Literal.scan?_text_append y.neg.2 hs
    rw [Operand.text_neg hneg, List.cons_append] at hscan
    exact scan?_eq_none_of_followed? sep hscan hnone
  | true =>
    refine scan?_eq_none sep (Literal.scan?_minus_eq_none fun c hc ↦ ?_)
    rw [Literal.text_of_negative hneg] at hc
    cases hc
    rfl

namespace Row

variable {scale : Int} {op : Operator}

/-- A row of literals as it is written without blanks. -/
def compact (r : Row Operand) : Text := r.textBy Joint.symbolText

/-- The literals behind minus signs turned negative. -/
def signedTail (rest : List (Joint × Operand)) : List (Joint × Operand) :=
  rest.map fun (j, y) ↦ (j, if j.operator = .minus then y.neg else y)

/-- The row with the literals behind minus signs turned negative. -/
def signed (r : Row Operand) : Row Operand := ⟨r.first, signedTail r.rest⟩

/-- All literals are unsigned. -/
def IsUnsigned (rest : List (Joint × Operand)) : Prop := ∀ p ∈ rest, p.2.1.negative = false

/-- The literals behind minus signs are negative, and the others unsigned. -/
def IsSigned (rest : List (Joint × Operand)) : Prop :=
  ∀ p ∈ rest, p.2.1.negative = decide (p.1.operator = .minus)

theorem isSigned_signedTail {rest : List (Joint × Operand)} (h : IsUnsigned rest) :
    IsSigned (signedTail rest) := by
  intro p hp
  obtain ⟨⟨j, y⟩, hq, rfl⟩ := List.mem_map.1 hp
  have hy : y.1.negative = false := h _ hq
  by_cases hj : j.operator = .minus <;> simp [hj, Operand.neg, hy]

theorem tailBy_symbolText {rest : List (Joint × Operand)} (h : IsUnsigned rest) :
    tailBy Joint.symbolText rest = tailBy Joint.mark (signedTail rest) := by
  induction rest with
  | nil => rfl
  | cons p rest ih =>
    obtain ⟨j, y⟩ := p
    obtain ⟨hy, hrest⟩ := List.forall_mem_cons.1 h
    have htail : signedTail ((j, y) :: rest) =
        (j, if j.operator = .minus then y.neg else y) :: signedTail rest := rfl
    rw [htail, tailBy, tailBy, ih hrest, Joint.symbolText]
    by_cases hj : j.operator = .minus
    · rw [Joint.mark_of_eq hj, if_pos hj, Operand.text_neg hy, hj]
      rfl
    · rw [Joint.mark, if_neg hj, if_neg hj]

/-- Without blanks, a row is written as the one with the literals behind minus signs negative. -/
theorem compact_eq {r : Row Operand} (h : IsUnsigned r.rest) :
    r.compact = r.signed.textBy Joint.mark := by
  rw [compact, textBy, tailBy_symbolText h]
  rfl

/-! ## Reading -/

/-- What is to be found behind a mark is found if that holds of an operator without blanks, and if
nothing is to be found at a minus sign. -/
theorem reads_mark_of {sep : Separator} {found : Joint → Bool}
    (hminus : ∀ j : Joint, j.operator = .minus → found j = false)
    (hsep : ∀ s, sep.followed? ('-' :: s) = none)
    (hfollowed : ∀ (j : Joint) (h : j.operator ≠ .minus) {l : Literal} {t : Text}, l.IsProper →
      Literal.Closes t → sep.followed? ((Joint.tight j.operator h).text ++ (l.text ++ t)) =
        if found j then some ((Joint.tight j.operator h).text, l, t) else none)
    {rest : List (Joint × Operand)} (h : IsSigned rest) : Reads sep found Joint.mark [] rest := by
  induction rest with
  | nil => exact .nil Literal.closes_nil (sep.followed?_eq_none_of_forall (by simp))
  | cons p rest ih =>
    obtain ⟨j, y⟩ := p
    obtain ⟨hy, hrest⟩ := List.forall_mem_cons.1 h
    have hreads := ih hrest
    by_cases hj : j.operator = .minus
    · have hmark := Joint.mark_of_eq hj
      have htext := Literal.text_of_negative (hy.trans (decide_eq_true hj))
      refine .cons ?_ ?_ (fun _ ↦ ?_) hreads
      · rw [hmark, htext]
        exact Literal.closes_cons rfl (by decide)
      · rw [hmark, htext, hminus j hj]
        exact hsep _
      · rw [hmark]
        trivial
    · have hmark := Joint.mark_of_ne hj
      refine .cons ?_ ?_ (fun _ ↦ ?_) hreads
      · rw [hmark]
        exact Joint.closes_text _ _
      · rw [hmark]
        exact hfollowed j hj y.2 hreads.closes_tail
      · rw [hmark]
        exact Joint.silent_text _ _ sep

/-- Where literals behind minus signs are negative, an operation other than a difference finds just
what was written. -/
theorem reads_mark (hop : op ≠ .minus) {rest : List (Joint × Operand)} (h : IsSigned rest) :
    Reads (.operator op) (fun j ↦ j.operator = op) Joint.mark [] rest := by
  refine reads_mark_of (fun j hj ↦ ?_) (Separator.followed?_minus (.inr ⟨op, hop, rfl⟩))
    (fun j hj l t hl ht ↦ ?_) h
  · exact decide_eq_false fun h ↦ hop (h.symm.trans hj)
  · rw [Joint.followed?_operator _ t hl ht op]
    by_cases h : j.operator = op <;> simp [Joint.tight, h]

theorem reads_mark_bad {sep : Separator} (hsep : sep ∈ Flat.badSeparators)
    {rest : List (Joint × Operand)} (h : IsSigned rest) :
    Reads sep (fun _ ↦ false) Joint.mark [] rest :=
  reads_mark_of (fun _ _ ↦ rfl) (Separator.followed?_minus (.inl hsep))
    (fun _ _ _ t hl _ ↦ Joint.followed?_bad _ t hl hsep) h

/-- Where there are only differences, what is to be found at each minus sign is found, or nothing at
all, if that is so in front of a single literal. -/
theorem reads_symbolText_of {sep : Separator} {found : Joint → Bool} {b : Bool}
    (hfound : ∀ j : Joint, j.operator = .minus → found j = b)
    (hfollowed : ∀ {l : Literal} {t : Text}, l.IsProper → Literal.Closes t →
      sep.followed? ('-' :: (l.text ++ t)) = if b then some (['-'], l, t) else none)
    {rest : List (Joint × Operand)} (h : ∀ p ∈ rest, p.1.operator = .minus) :
    Reads sep found Joint.symbolText [] rest := by
  induction rest with
  | nil => exact .nil Literal.closes_nil (sep.followed?_eq_none_of_forall (by simp))
  | cons p rest ih =>
    obtain ⟨j, y⟩ := p
    obtain ⟨hj, hrest⟩ := List.forall_mem_cons.1 h
    have hreads := ih hrest
    have hmark := Joint.symbolText_of_eq hj
    refine .cons ?_ ?_ (fun hnone ↦ ?_) hreads
    · rw [hmark]
      exact Literal.closes_cons rfl (by decide)
    · rw [hmark, hfound j hj]
      exact hfollowed y.2 hreads.closes_tail
    · -- from the minus sign on, the literal may be read with the sign as its own
      have htail := hreads.followed?_tail fun q hq ↦
        (hfound q.1 (hrest q hq)).trans ((hfound j hj).symm.trans hnone)
      rw [hmark]
      exact ⟨Pair.scan?_minus_text y hreads.closes_tail htail, trivial⟩

/-- Where there are only differences, an operation finds just what was written, whatever signs the
literals have. -/
theorem reads_symbolText (op : Operator) {rest : List (Joint × Operand)}
    (h : ∀ p ∈ rest, p.1.operator = .minus) :
    Reads (.operator op) (fun j ↦ j.operator = op) Joint.symbolText [] rest := by
  by_cases hop : op = .minus
  · rw [hop]
    exact reads_symbolText_of (fun j hj ↦ decide_eq_true hj)
      (fun hl ht ↦ Separator.followed?_symbol .minus hl ht) h
  · exact reads_symbolText_of (fun j hj ↦ decide_eq_false fun heq ↦ hop (heq.symm.trans hj))
      (fun _ _ ↦ Separator.followed?_minus (.inr ⟨op, hop, rfl⟩) _) h

theorem reads_symbolText_bad {sep : Separator} (hsep : sep ∈ Flat.badSeparators)
    {rest : List (Joint × Operand)} (h : ∀ p ∈ rest, p.1.operator = .minus) :
    Reads sep (fun _ ↦ false) Joint.symbolText [] rest :=
  reads_symbolText_of (fun _ _ ↦ rfl) (fun _ _ ↦ Separator.followed?_minus (.inl hsep) _) h

end Row
end Reckon
