import Mathlib.Data.List.TakeWhile
import Reckon.Proofs.Row.Reduce

/-!
# What stands around an expression

Spaces and parentheses at the ends of a text belong to no literal and to nothing that stands between
two literals.  So whatever is looked for in a text is found in the same place when there is such a
margin around it (`Pair.search_margin`): the check rejects the same block (`badBlock?_margin`), and
an operation is done inside the margin (`outcome_collapse_margin`).

The first step frees the text of a margin of spaces, and of one of parentheses; what it leaves is
worked off as it would be without them (`outcome_reduce_spaces`, `outcome_exhaust_enclosed`).
Inside parentheses spaces may come to light at the ends of the text, but then the next step takes
those away, or the first one of the next operator does.
-/

set_option autoImplicit false

namespace Reckon

open Row (IsEdge)

/-! ## Reading literals and separators -/

/-- A run of characters at the head of a text ends in it, or at its end if what follows does not go
on with the run. -/
theorem Text.span_append {p : Char → Bool} {s b : Text}
    (h : (∃ c ∈ s, p c = false) ∨ ∀ c ∈ b.head?, p c = false) :
    (s ++ b).takeWhile p = s.takeWhile p ∧ (s ++ b).dropWhile p = s.dropWhile p ++ b := by
  induction s with
  | nil =>
    have hb : ∀ c ∈ b.head?, p c = false := h.resolve_left (by simp)
    cases b with
    | nil => simp
    | cons c b => simp [hb c rfl]
  | cons c s ih =>
    cases hc : p c with
    | false => simp [hc]
    | true =>
      have hs := ih (h.imp_left fun ⟨d, hd, hpd⟩ ↦ by
        rcases List.mem_cons.1 hd with rfl | hd
        · rw [hc] at hpd
          cases hpd
        · exact ⟨d, hd, hpd⟩)
      simp [hc, hs]

namespace Literal

theorem scanPlaces_append {s b : Text} (hb : Closes b) :
    scanPlaces (s ++ b) = ((scanPlaces s).1, (scanPlaces s).2 ++ b) := by
  cases s with
  | nil => exact @scanPlaces_placesText [] b (by simp) hb
  | cons c s =>
    by_cases hc : c = '.'
    · obtain ⟨htake, hdrop⟩ := Text.span_append (s := s) (.inr hb.isDigit_head)
      rw [hc, List.cons_append, scanPlaces, scanPlaces, htake, hdrop]
      split <;> rfl
    · simp [scanPlaces, hc]

theorem scanUnsigned?_append_of_closes (negative : Bool) {s b : Text} (hb : Closes b) :
    scanUnsigned? negative (s ++ b) =
      (scanUnsigned? negative s).map fun (l, rest) ↦ (l, rest ++ b) := by
  obtain ⟨htake, hdrop⟩ := Text.span_append (s := s) (.inr hb.isDigit_head)
  simp only [scanUnsigned?, htake, hdrop, scanPlaces_append hb]
  split <;> rfl

/-- A literal is read in the same way when a margin follows the text. -/
theorem scan?_margin (s : Text) {b : Text} (hb : IsEdge b) :
    scan? (s ++ b) = (scan? s).map fun (l, rest) ↦ (l, rest ++ b) := by
  cases s with
  | nil => exact scan?_eq_none_of_forall fun _ ↦ hb.isDigit
  | cons c s =>
    by_cases hc : c = '-'
    · rw [hc]
      exact scanUnsigned?_append_of_closes true hb.closes
    · rw [List.cons_append, scan?_cons_of_ne hc, scan?_cons_of_ne hc, ← List.cons_append]
      exact scanUnsigned?_append_of_closes false hb.closes

end Literal

namespace Separator

variable {s : Text} (hs : ∃ c ∈ s, c.isDigit = true) (b : Text)

include hs

/-- Blanks before a digit end before it, whatever follows. -/
theorem spanBlanks_append_of_digit :
    spanBlanks (s ++ b) = ((spanBlanks s).1, (spanBlanks s).2 ++ b) := by
  obtain ⟨c, hc, hdigit⟩ := hs
  obtain ⟨htake, hdrop⟩ :=
    Text.span_append (b := b) (.inl ⟨c, hc, Text.isBlank_of_isDigit hdigit⟩)
  rw [spanBlanks, spanBlanks, htake, hdrop]

theorem exists_digit_spanBlanks : ∃ c ∈ (spanBlanks s).2, c.isDigit = true := by
  obtain ⟨c, hc, hdigit⟩ := hs
  rw [← append_of_spanBlanks s] at hc
  refine ⟨c, (List.mem_append.1 hc).resolve_left fun hleft ↦ ?_, hdigit⟩
  have hblank : Text.isBlank c = true := List.all_eq_true.1 List.all_takeWhile c hleft
  rw [Text.isBlank_of_isDigit hdigit] at hblank
  cases hblank

theorem scanBlanks?_append_of_digit :
    scanBlanks? (s ++ b) = (scanBlanks? s).map fun (gap, rest) ↦ (gap, rest ++ b) := by
  rw [scanBlanks?, scanBlanks?, spanBlanks_append_of_digit hs]
  split <;> rfl

theorem scanMark?_append_of_digit {p : Char → Bool} (hp : ∀ c, c.isDigit = true → p c = false) :
    scanMark? p (s ++ b) = (scanMark? p s).map fun (mark, rest) ↦ (mark, rest ++ b) := by
  obtain ⟨d, hd, hdigit⟩ := exists_digit_spanBlanks hs
  rw [scanMark?, scanMark?, spanBlanks_append_of_digit hs]
  cases hspan : spanBlanks s with
  | mk left t =>
    rw [hspan] at hd
    cases t with
    | nil => cases hd
    | cons c t =>
      dsimp only [List.cons_append]
      cases hc : p c with
      | false => rfl
      | true =>
        -- the mark is no digit, so the digit comes behind it
        have ht : ∃ c ∈ t, c.isDigit = true := by
          rcases List.mem_cons.1 hd with rfl | hd
          · rw [hp d hdigit] at hc
            cases hc
          · exact ⟨d, hd, hdigit⟩
        rw [spanBlanks_append_of_digit ht]
        rfl

/-- A separator before a digit ends before it, whatever follows. -/
theorem scan?_append_of_digit (sep : Separator) :
    sep.scan? (s ++ b) = (sep.scan? s).map fun (gap, rest) ↦ (gap, rest ++ b) := by
  have hforeign : ∀ c : Char, c.isDigit = true → isForeign c = false := by
    intro c hc
    simp [isForeign, hc]
  have hother : ∀ (d c : Char), d.isDigit = false → c.isDigit = true → decide (c = d) = false := by
    rintro d c hd hc
    refine decide_eq_false ?_
    rintro rfl
    rw [hd] at hc
    cases hc
  cases sep with
  | blanks => exact scanBlanks?_append_of_digit hs b
  | foreign =>
    rw [scan?, scan?, scanMark?_append_of_digit hs b hforeign, scanBlanks?_append_of_digit hs b]
    cases scanMark? isForeign s <;> rfl
  | spacedPercent =>
    rw [scan?, scan?, scanMark?_append_of_digit hs b fun c ↦ hother '%' c rfl]
    cases scanMark? (fun c ↦ decide (c = '%')) s with
    | none => rfl
    | some r =>
      dsimp only [Option.map_some]
      split <;> rfl
  | operator op =>
    rw [scan?, scan?, scanMark?_append_of_digit hs b fun c ↦ hother _ c (isDigit_symbol op)]
    cases scanMark? (fun c ↦ decide (c = op.symbol)) s <;> rfl

end Separator

/-- A separator and a literal behind it are read in the same way when a margin follows the text. -/
theorem Separator.followed?_margin (sep : Separator) (s : Text) {b : Text} (hb : IsEdge b) :
    sep.followed? (s ++ b) =
      (sep.followed? s).map fun (gap, l, rest) ↦ (gap, l, rest ++ b) := by
  by_cases hs : ∃ c ∈ s, c.isDigit = true
  · rw [followed?, followed?, scan?_append_of_digit hs]
    cases sep.scan? s with
    | none => rfl
    | some r =>
      obtain ⟨gap, t⟩ := r
      dsimp only [Option.map_some, Option.bind_some]
      rw [Literal.scan?_margin t hb]
      cases Literal.scan? t <;> rfl
  · -- there is no second literal, with the margin or without it
    have hdigit : ∀ c ∈ s, c.isDigit = false := fun c hc ↦
      Bool.eq_false_iff.2 fun hd ↦ hs ⟨c, hc, hd⟩
    have hall : ∀ c ∈ s ++ b, c.isDigit = false := fun c hc ↦
      (List.mem_append.1 hc).elim (hdigit c) hb.isDigit
    rw [followed?_eq_none_of_forall sep hdigit, followed?_eq_none_of_forall sep hall]
    rfl

/-! ## Finding pairs -/

/-- What a text that follows has no part in is found in the same place when it follows. -/
theorem Pattern.search_append_right {α : Type} (p : Pattern α) {b : Text} (hb : p.search b = none)
    (hscan : ∀ s, p.scan? (s ++ b) = (p.scan? s).map fun (a, rest) ↦ (a, rest ++ b)) (s : Text) :
    p.search (s ++ b) = (p.search s).map fun o ↦ { o with after := o.after ++ b } := by
  induction s with
  | nil => exact hb
  | cons c s ih =>
    have hcons := hscan (c :: s)
    rw [List.cons_append] at hcons ⊢
    rw [search, search, hcons]
    cases p.scan? (c :: s) with
    | none => simp [ih, Function.comp_def]
    | some r => rfl

namespace Pair

theorem scan?_margin (sep : Separator) (s : Text) {b : Text} (hb : IsEdge b) :
    (pattern sep).scan? (s ++ b) =
      ((pattern sep).scan? s).map fun (pair, rest) ↦ (pair, rest ++ b) := by
  have hliteral := Literal.scan?_margin s hb
  cases h : Literal.scan? s with
  | none =>
    rw [h] at hliteral
    rw [scan?_eq_none sep h, scan?_eq_none sep hliteral]
    rfl
  | some r =>
    obtain ⟨l, t⟩ := r
    rw [h] at hliteral
    show scan? sep (s ++ b) = (scan? sep s).map _
    rw [scan?_of_scan? sep h, scan?_of_scan? sep hliteral, sep.followed?_margin t hb]
    cases sep.followed? t <;> rfl

/-- A pair is found inside a margin where it is found without it. -/
theorem search_margin (sep : Separator) {a b : Text} (ha : IsEdge a) (hb : IsEdge b) (s : Text) :
    (pattern sep).search (a ++ (s ++ b)) = ((pattern sep).search s).map fun o ↦
      ⟨a ++ o.before, o.found, o.after ++ b⟩ := by
  have hnone : (pattern sep).search b = none := (pattern sep).search_eq_none (hb.silent sep [])
  rw [(pattern sep).search_append (ha.silent sep _),
    (pattern sep).search_append_right hnone (fun t ↦ scan?_margin sep t hb), Option.map_map]
  rfl

end Pair

/-! ## Reducing inside a margin -/

namespace Flat

variable {scale : Int} {op : Operator} {a b s t : Text}

section Edges

variable (ha : IsEdge a) (hb : IsEdge b)

include ha hb

theorem badBlock?_margin : badBlock? (a ++ (s ++ b)) = badBlock? s := by
  refine congrArg badSeparators.findSome? (funext fun sep ↦ ?_)
  rw [Pair.search_margin sep ha hb, Option.map_map]
  rfl

theorem outcome_collapse_margin :
    (collapse scale op (a ++ (s ++ b))).outcome =
      (collapse scale op s).outcome.map fun t ↦ a ++ (t ++ b) := by
  have hsearch : (operation op).search (a ++ (s ++ b)) = _ := Pair.search_margin _ ha hb s
  cases ho : (operation op).search s with
  | none =>
    rw [operation] at ho
    rw [ho] at hsearch
    rw [outcome_collapse_of_none hsearch, outcome_collapse_of_none ho]
    rfl
  | some o =>
    rw [operation] at ho
    rw [ho] at hsearch
    rw [outcome_collapse_of_search hsearch, outcome_collapse_of_search ho]
    cases op.apply scale o.found.left.value o.found.right.value <;> simp [Except.map]

end Edges

/-- Texts on which a step comes to the same are worked off to the same. -/
theorem outcome_exhaust_congr (h : (step scale op s).outcome = (step scale op t).outcome) :
    (exhaust scale op s).outcome = (exhaust scale op t).outcome := by
  cases ht : (step scale op t).outcome with
  | error e => rw [outcome_exhaust_of_error ht, outcome_exhaust_of_error (h.trans ht)]
  | ok u => rw [outcome_exhaust_of_step ht, outcome_exhaust_of_step (h.trans ht)]

/-- A text in a margin is reduced as it is without, if the first operator is worked off in the same
way; the fault that it has a bad block names the text with its margin. -/
theorem outcome_reduce_margin (ha : IsEdge a) (hb : IsEdge b)
    (h : ∀ op, (exhaust scale op (a ++ (s ++ b))).outcome = (exhaust scale op s).outcome) :
    (reduce scale (a ++ (s ++ b))).outcome =
      match badBlock? s with
      | some block => .error (.badBlock block (a ++ (s ++ b)))
      | none => (reduce scale s).outcome := by
  rw [outcome_reduce, check, badBlock?_margin ha hb]
  cases hblock : badBlock? s with
  | some block => rfl
  | none =>
    rw [outcome_reduce, check, hblock]
    dsimp only [Except.bind]
    rw [Operator.all, outcome_exhaustAll_cons, outcome_exhaustAll_cons, h]

/-! ## Spaces -/

section Spaces

variable (ha : ∀ c ∈ a, Text.isSpace c = true) (hb : ∀ c ∈ b, Text.isSpace c = true)

include ha hb

theorem trim_margin : Text.trim (a ++ (s ++ b)) = Text.trim s := by
  have hend : ∀ t, Text.trimEnd (t ++ b) = Text.trimEnd t := by
    intro t
    rw [Text.trimEnd, List.reverse_append,
      List.dropWhile_append_of_pos fun c hc ↦ hb c (List.mem_reverse.1 hc), Text.trimEnd]
  rw [Text.trim, List.dropWhile_append_of_pos ha, List.dropWhile_append, Text.trim]
  split
  · next hempty => rw [List.isEmpty_iff.1 hempty, List.dropWhile_eq_nil_iff.2 hb]
  · exact hend _

/-- Spaces around a text are taken away with those inside. -/
theorem unwrap_margin : unwrap (a ++ (s ++ b)) = unwrap s := by
  rw [unwrap, unwrap, trim_margin ha hb]

theorem outcome_step_spaces :
    (step scale op (a ++ (s ++ b))).outcome = (step scale op s).outcome := by
  rw [outcome_step, outcome_step,
    outcome_collapse_margin (fun c hc ↦ .inl (ha c hc)) (fun c hc ↦ .inl (hb c hc))]
  cases (collapse scale op s).outcome with
  | error e => rfl
  | ok t => exact congrArg Except.ok (unwrap_margin ha hb)

/-- A flat expression with spaces around it is reduced as it is without. -/
theorem outcome_reduce_spaces :
    (reduce scale (a ++ (s ++ b))).outcome =
      match badBlock? s with
      | some block => .error (.badBlock block (a ++ (s ++ b)))
      | none => (reduce scale s).outcome :=
  outcome_reduce_margin (fun c hc ↦ .inl (ha c hc)) (fun c hc ↦ .inl (hb c hc)) fun _ ↦
    outcome_exhaust_congr (outcome_step_spaces ha hb)

end Spaces

/-! ## Parentheses -/

theorem isBare_of_collapse (hs : Nested.IsBare s) (h : (collapse scale op s).outcome = .ok t) :
    Nested.IsBare t := by
  cases ho : (operation op).search s with
  | none =>
    rw [outcome_collapse_of_none ho] at h
    cases h
    exact hs
  | some o =>
    rw [outcome_collapse_of_search ho] at h
    obtain ⟨d, -, rfl⟩ := Outcome.map_eq_ok_iff.1 h
    exact Nested.isBare_replace d ho hs

/-- To free a text that has no parentheses takes nothing but spaces away from it. -/
theorem outcome_exhaust_unwrap (hs : Nested.IsBare s) :
    (exhaust scale op (unwrap s)).outcome = (exhaust scale op s).outcome := by
  obtain ⟨x, y, hxy, h | h⟩ := exists_spaces_unwrap s
  · have hspaces : (step scale op (x ++ (unwrap s ++ y))).outcome =
        (step scale op (unwrap s)).outcome :=
      outcome_step_spaces (fun c hc ↦ hxy c (.inl hc)) fun c hc ↦ hxy c (.inr hc)
    rw [← h] at hspaces
    exact outcome_exhaust_congr hspaces.symm
  · have hparen := hs '(' (by rw [h]; simp)
    cases hparen

/-- An operator is worked off between parentheses as it is without them. -/
theorem outcome_exhaust_enclosed (hs : Nested.IsBare s) :
    (exhaust scale op ('(' :: (s ++ [')']))).outcome = (exhaust scale op s).outcome := by
  have hcollapse : (collapse scale op ('(' :: (s ++ [')']))).outcome =
      (collapse scale op s).outcome.map fun t ↦ '(' :: (t ++ [')']) :=
    outcome_collapse_margin (Row.isEdge_open (a := []) (by simp))
      (Row.isEdge_close (b := []) (by simp))
  have henclosed : (step scale op ('(' :: (s ++ [')']))).outcome = _ := outcome_step _
  have hstep : (step scale op s).outcome = _ := outcome_step s
  cases ht : (collapse scale op s).outcome with
  | error e =>
    rw [hcollapse, ht] at henclosed
    rw [ht] at hstep
    exact outcome_exhaust_congr (henclosed.trans hstep.symm)
  | ok t =>
    rw [hcollapse, ht] at henclosed
    rw [ht] at hstep
    -- the parentheses are gone, but what was inside them has not been freed of spaces
    have hinner : (step scale op ('(' :: (s ++ [')']))).outcome = .ok t :=
      henclosed.trans (congrArg Except.ok (Nested.unwrap_enclosed t))
    rw [outcome_exhaust_of_step hinner, outcome_exhaust_of_step hstep,
      outcome_exhaust_unwrap (isBare_of_collapse hs ht)]

/-- A flat expression in parentheses is reduced to what it is reduced to without. -/
theorem outcome_reduce_enclosed_eq_ok_iff (hs : Nested.IsBare s) :
    (reduce scale ('(' :: (s ++ [')']))).outcome = .ok t ↔ (reduce scale s).outcome = .ok t := by
  have hmargin : (reduce scale ('(' :: (s ++ [')']))).outcome = _ :=
    outcome_reduce_margin (Row.isEdge_open (a := []) (by simp))
      (Row.isEdge_close (b := []) (by simp)) fun op ↦ outcome_exhaust_enclosed hs
  rw [hmargin]
  cases hblock : badBlock? s with
  | none => rfl
  | some block =>
    have hcheck : (reduce scale s).outcome = .error (.badBlock block s) := by
      rw [outcome_reduce, check, hblock]
      rfl
    simp [hcheck]

end Flat
end Reckon
