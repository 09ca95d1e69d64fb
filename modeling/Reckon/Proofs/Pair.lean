import Reckon.Proofs.Row.Joint
import Reckon.Proofs.Step

/-!
# Pairs of literals as they stand in a text

A pair is looked for by taking the longest literal, then a separator, and then the longest literal
again, and nothing shorter is ever tried.  Here it is said what a pair is without saying how it is
looked for: two literals of any length with a gap of the right kind between them (`Pair.IsOf`).

It makes no difference.  No gap begins with what a literal could go on with
(`Separator.Fills.closes`), so wherever some pair begins, one is found, with the same literal in
front and the same gap (`Pair.exists_scan?`).  A search therefore finds something just if a pair
begins somewhere in the text, and no pair at all begins to the left of the one that it finds
(`Pair.exists_search`, `Pair.not_begins_of_search`).  So what is found cannot be prolonged to the
left: the characters before it and the literal in front do not make up a longer literal
(`Pair.text_ne_of_search`).
-/

set_option autoImplicit false

namespace Reckon

/-! ## Searching anywhere in a text -/

namespace Pattern

variable {α : Type} {p : Pattern α}

/-- What is recognised somewhere in a text makes a search find something. -/
theorem exists_search_of_scan? {y rest : Text} {a : α} (h : p.scan? y = some (a, rest)) (x : Text) :
    ∃ o, p.search (x ++ y) = some o := by
  induction x with
  | nil => exact ⟨_, p.search_of_scan? h⟩
  | cons c x ih =>
    obtain ⟨o, ho⟩ := ih
    rw [List.cons_append, search, ho]
    cases p.scan? (c :: (x ++ y)) <;> exact ⟨_, rfl⟩

/-- Nothing is recognised before the leftmost occurrence. -/
theorem scan?_eq_none_of_length_lt {s x y : Text} {o : Occurrence α} (h : p.search s = some o)
    (hs : s = x ++ y) (hx : x.length < o.before.length) : p.scan? y = none := by
  have happend : o.before ++ (p.text o.found ++ o.after) = x ++ y := by
    rw [p.append_of_search h, hs]
  obtain ⟨z, hbefore, hy⟩ | ⟨z, hz, -⟩ := List.append_eq_append_iff.1 happend.symm
  · have hne : z ≠ [] := by
      rintro rfl
      rw [hbefore, List.append_nil] at hx
      exact Nat.lt_irrefl _ hx
    rw [hy]
    exact p.scan?_eq_none_of_search h hbefore hne
  · rw [hz, List.length_append] at hx
    omega

end Pattern

/-! ## Literals at the head of a text -/

namespace Literal

variable {l : Literal}

/-- What begins with a literal is read as one. -/
theorem IsProper.exists_scan? (h : l.IsProper) (s : Text) :
    ∃ l' rest, scan? (l.text ++ s) = some (l', rest) := by
  obtain ⟨d, u, hu, hd⟩ := h.exists_cons
  have hunsigned : ∀ negative, ∃ l' rest,
      scanUnsigned? negative (d :: (u ++ s)) = some (l', rest) := by
    intro negative
    simp [scanUnsigned?, hd]
  have hminus : d ≠ '-' := by
    rintro rfl
    cases hd
  cases hn : l.negative with
  | false =>
    rw [hu, hn]
    simpa [signText, scan?_cons_of_ne hminus] using hunsigned false
  | true =>
    rw [hu, hn]
    exact hunsigned true

/-- A literal is read to the end of its digits. -/
theorem isDigit_head_of_scan? {s rest : Text} (h : scan? s = some (l, rest)) :
    ∀ c ∈ rest.head?, c.isDigit = false := by
  have hplaces : ∀ t : Text, ∀ c ∈ (scanPlaces (t.dropWhile Char.isDigit)).2.head?,
      c.isDigit = false := by
    intro t
    unfold scanPlaces
    split
    · split
      · simp
      · exact Text.head?_dropWhile _
    · exact Text.head?_dropWhile t
  have hunsigned : ∀ negative t, scanUnsigned? negative t = some (l, rest) →
      ∀ c ∈ rest.head?, c.isDigit = false := by
    intro negative t ht
    unfold scanUnsigned? at ht
    dsimp only at ht
    split at ht
    · cases ht
    · cases ht
      exact hplaces t
  unfold scan? at h
  split at h
  · exact hunsigned true _ h
  · exact hunsigned false _ h

end Literal

/-! ## Gaps -/

namespace Separator

variable {sep : Separator} {gap rest : Text}

/-- What may fill the gap between two literals. -/
inductive Fills : Separator → Text → Prop
  | blanks {gap : Text} (hne : gap ≠ []) (hblank : ∀ c ∈ gap, Text.isBlank c = true) :
      Fills .blanks gap
  | foreign {left right : Text} {c : Char} (hleft : ∀ d ∈ left, Text.isBlank d = true)
      (hc : isForeign c = true) (hright : ∀ d ∈ right, Text.isBlank d = true) :
      Fills .foreign (left ++ c :: right)
  | spacedPercent {left right : Text} (hleft : ∀ d ∈ left, Text.isBlank d = true)
      (hright : ∀ d ∈ right, Text.isBlank d = true) (hspaced : left ≠ [] ∨ right ≠ []) :
      Fills .spacedPercent (left ++ '%' :: right)
  | operator (op : Operator) {left right : Text} (hleft : ∀ d ∈ left, Text.isBlank d = true)
      (hright : ∀ d ∈ right, Text.isBlank d = true) :
      Fills (.operator op) (left ++ op.symbol :: right)

theorem isForeign_of_isBlank {c : Char} (h : Text.isBlank c = true) : isForeign c = true := by
  simp only [Text.isBlank, Bool.or_eq_true, decide_eq_true_eq] at h
  rcases h with ((((h | h) | h) | h) | h) | h <;> subst h <;> decide

/-- Neither a digit nor a point has a place in a gap. -/
theorem isDigit_of_isForeign {c : Char} (h : isForeign c = true) : c.isDigit = false ∧ c ≠ '.' := by
  simp only [isForeign, Bool.not_eq_true', Bool.or_eq_false_iff, decide_eq_false_iff_not] at h
  exact ⟨h.1.1.1.1.1.1, h.1.1.1.1.1.2⟩

theorem Fills.closes_of_mem (h : sep.Fills gap) : ∀ c ∈ gap, c.isDigit = false ∧ c ≠ '.' := by
  have hblank : ∀ {c : Char}, Text.isBlank c = true → c.isDigit = false ∧ c ≠ '.' := fun hc ↦
    isDigit_of_isForeign (isForeign_of_isBlank hc)
  cases h with
  | blanks _ hall => exact fun c hc ↦ hblank (hall c hc)
  | foreign hleft hc hright =>
    simp only [List.forall_mem_append, List.forall_mem_cons]
    exact ⟨fun c h ↦ hblank (hleft c h), isDigit_of_isForeign hc, fun c h ↦ hblank (hright c h)⟩
  | spacedPercent hleft hright _ =>
    simp only [List.forall_mem_append, List.forall_mem_cons]
    exact ⟨fun c h ↦ hblank (hleft c h), by decide, fun c h ↦ hblank (hright c h)⟩
  | operator op hleft hright =>
    simp only [List.forall_mem_append, List.forall_mem_cons]
    exact ⟨fun c h ↦ hblank (hleft c h), ⟨isDigit_symbol op, op.symbol_ne_point⟩,
      fun c h ↦ hblank (hright c h)⟩

theorem Fills.ne_nil (h : sep.Fills gap) : gap ≠ [] := by
  cases h with
  | blanks hne _ => exact hne
  | foreign _ _ _ | spacedPercent _ _ _ | operator _ _ _ => simp

/-- No literal goes on into a gap. -/
theorem Fills.closes (h : sep.Fills gap) (s : Text) : Literal.Closes (gap ++ s) := by
  obtain ⟨c, t, rfl⟩ := List.exists_cons_of_ne_nil h.ne_nil
  obtain ⟨hdigit, hpoint⟩ := h.closes_of_mem c List.mem_cons_self
  exact Literal.closes_cons hdigit hpoint

/-! ### Gaps that are scanned -/

theorem fills_of_scanBlanks? {s : Text} (h : scanBlanks? s = some (gap, rest)) :
    gap ≠ [] ∧ ∀ c ∈ gap, Text.isBlank c = true := by
  unfold scanBlanks? at h
  split at h
  · cases h
  · next hne =>
    have hgap : (spanBlanks s).1 = gap := congrArg Prod.fst (Option.some.inj h)
    rw [← hgap]
    exact ⟨fun hnil ↦ hne (List.isEmpty_iff.2 hnil), isBlank_of_mem_spanBlanks⟩

/-- What is scanned as a separator fills a gap. -/
theorem fills_of_scan? {s : Text} (h : sep.scan? s = some (gap, rest)) : sep.Fills gap := by
  cases sep with
  | blanks =>
    obtain ⟨hne, hblank⟩ := fills_of_scanBlanks? h
    exact .blanks hne hblank
  | foreign =>
    simp only [scan?] at h
    split at h
    · next hmark =>
      cases h
      obtain ⟨hleft, hc, hright⟩ := isBlank_of_scanMark? hmark
      exact .foreign hleft hc hright
    · -- blanks alone: the first of them is the character that is foreign
      obtain ⟨hne, hblank⟩ := fills_of_scanBlanks? h
      obtain ⟨c, t, rfl⟩ := List.exists_cons_of_ne_nil hne
      rw [List.forall_mem_cons] at hblank
      exact @Fills.foreign [] t c (by simp) (isForeign_of_isBlank hblank.1) hblank.2
  | spacedPercent =>
    simp only [scan?] at h
    split at h
    · next hmark =>
      split at h
      · cases h
      · next hspaced =>
        cases h
        obtain ⟨hleft, hc, hright⟩ := isBlank_of_scanMark? hmark
        rw [of_decide_eq_true hc]
        refine .spacedPercent hleft hright (Decidable.not_and_iff_not_or_not.1 ?_)
        simpa using hspaced
    · cases h
  | operator op =>
    simp only [scan?] at h
    split at h
    · next hmark =>
      cases h
      obtain ⟨hleft, hc, hright⟩ := isBlank_of_scanMark? hmark
      rw [of_decide_eq_true hc]
      exact .operator op hleft hright
    · cases h

/-- A gap before something that could not belong to it is scanned as it is. -/
theorem Fills.scan?_append (h : sep.Fills gap) (hrest : ∀ c ∈ rest.head?, isForeign c = false) :
    sep.scan? (gap ++ rest) = some (gap, rest) := by
  have hblank : ∀ c ∈ rest.head?, Text.isBlank c = false := fun c hc ↦
    Bool.eq_false_iff.2 fun hb ↦ Bool.eq_false_iff.1 (hrest c hc) (isForeign_of_isBlank hb)
  have hblanks : ∀ {b : Text}, b ≠ [] → (∀ c ∈ b, Text.isBlank c = true) →
      scanBlanks? (b ++ rest) = some (b, rest) := by
    intro b hne hb
    rw [scanBlanks?, spanBlanks_append hb hblank, if_neg (by simpa using hne)]
  have hmark : ∀ (p : Char → Bool) {left right : Text} {c : Char},
      (∀ d ∈ left, Text.isBlank d = true) → Text.isBlank c = false → p c = true →
      (∀ d ∈ right, Text.isBlank d = true) →
      scanMark? p (left ++ c :: right ++ rest) = some ((left, c, right), rest) := by
    intro p left right c hleft hc hp hright
    rw [List.append_assoc, List.cons_append, scanMark?_append p hleft hc hright hblank, if_pos hp]
  cases h with
  | blanks hne hall => exact hblanks hne hall
  | @foreign left right c hleft hc hright =>
    cases hcblank : Text.isBlank c with
    | false => rw [scan?, hmark isForeign hleft hcblank hc hright]
    | true =>
      -- all of the gap is blank, and there is no other character that could be the foreign one
      have hall : ∀ d ∈ left ++ c :: right, Text.isBlank d = true := by
        simp only [List.forall_mem_append, List.forall_mem_cons]
        exact ⟨hleft, hcblank, hright⟩
      have hnone : scanMark? isForeign (left ++ c :: right ++ rest) = none := by
        rw [scanMark?, spanBlanks_append hall hblank]
        cases rest with
        | nil => rfl
        | cons d rest =>
          dsimp only
          rw [hrest d rfl]
          rfl
      rw [scan?, hnone]
      exact hblanks (by simp) hall
  | spacedPercent hleft hright hspaced =>
    have hscan := @hmark (fun c ↦ decide (c = '%')) _ _ '%' hleft rfl rfl hright
    rw [scan?, hscan]
    refine if_neg ?_
    simpa [← Decidable.not_and_iff_not_or_not] using hspaced
  | operator op hleft hright =>
    have hscan := hmark (fun c ↦ decide (c = op.symbol)) hleft op.isBlank_symbol (by simp) hright
    rw [scan?, hscan]

end Separator

/-! ## Pairs -/

namespace Pair

variable {sep : Separator} {p : Pair} {s rest : Text}

/-- Two literals with a gap of a kind between them. -/
structure IsOf (sep : Separator) (p : Pair) : Prop where
  left : p.left.IsProper
  gap : sep.Fills p.gap
  right : p.right.IsProper

/-- What is found as a pair is one. -/
theorem isOf_of_scan? (h : (pattern sep).scan? s = some (p, rest)) : p.IsOf sep := by
  obtain ⟨s₁, s₂, h₁, h₂, h₃⟩ := scan?_eq_some_iff.1 h
  exact ⟨Literal.isProper_of_scan? h₁, Separator.fills_of_scan? h₂, Literal.isProper_of_scan? h₃⟩

/-- Where a pair begins, one is found, with the same literal in front and the same gap. -/
theorem IsOf.exists_scan? (h : p.IsOf sep) (rest : Text) :
    ∃ right rest', (pattern sep).scan? (p.text ++ rest) = some (⟨p.left, p.gap, right⟩, rest') := by
  have hleft := Literal.scan?_text_append h.left (h.gap.closes (p.right.text ++ rest))
  have hhead : ∀ c ∈ (p.right.text ++ rest).head?, Separator.isForeign c = false := by
    obtain ⟨d, t, ht⟩ := List.exists_cons_of_ne_nil h.right.text_ne_nil
    intro c hc
    rw [ht] at hc
    cases hc
    exact Flat.isForeign_of_mem_text h.right (by rw [ht]; exact List.mem_cons_self)
  have hgap := h.gap.scan?_append hhead
  obtain ⟨right, rest', hright⟩ := h.right.exists_scan? rest
  refine ⟨right, rest', scan?_eq_some_iff.2 ⟨_, _, ?_, hgap, hright⟩⟩
  simpa [text] using hleft

/-- A pair begins at the head of a text. -/
def Begins (sep : Separator) (s : Text) : Prop := ∃ p : Pair, p.IsOf sep ∧ p.text <+: s

theorem scan?_eq_none_iff_not_begins : (pattern sep).scan? s = none ↔ ¬ Begins sep s := by
  constructor
  · rintro hnone ⟨p, hp, rest, rfl⟩
    obtain ⟨right, rest', hscan⟩ := hp.exists_scan? rest
    rw [hnone] at hscan
    cases hscan
  · intro hbegins
    refine Option.eq_none_iff_forall_ne_some.2 fun ⟨p, rest⟩ hscan ↦ hbegins ⟨p, ?_, rest, ?_⟩
    · exact isOf_of_scan? hscan
    · exact (pattern sep).text_append hscan

/-! ## Pairs that are found -/

variable {o : Occurrence Pair}

/-- If a pair begins somewhere in a text, a search finds one. -/
theorem exists_search {x y : Text} (h : Begins sep y) :
    ∃ o, (pattern sep).search (x ++ y) = some o := by
  cases hscan : (pattern sep).scan? y with
  | none => exact absurd h (scan?_eq_none_iff_not_begins.1 hscan)
  | some r => exact Pattern.exists_search_of_scan? hscan x

variable (h : (pattern sep).search s = some o)

include h

theorem isOf_of_search : o.found.IsOf sep := isOf_of_scan? ((pattern sep).scan?_of_search h)

theorem append_of_search : o.before ++ (o.found.text ++ o.after) = s :=
  (pattern sep).append_of_search h

/-- No pair begins to the left of the one that is found. -/
theorem not_begins_of_search {x y : Text} (hs : s = x ++ y) (hx : x.length < o.before.length) :
    ¬ Begins sep y :=
  scan?_eq_none_iff_not_begins.1 (Pattern.scan?_eq_none_of_length_lt h hs hx)

/-- The literal behind is the longest one at its place. -/
theorem scan?_right_of_search :
    Literal.scan? (o.found.right.text ++ o.after) = some (o.found.right, o.after) := by
  obtain ⟨s₁, s₂, -, -, hright⟩ := scan?_eq_some_iff.1 ((pattern sep).scan?_of_search h)
  rwa [Literal.text_append_of_scan? hright]

/-- The literal behind goes to the end of its digits. -/
theorem isDigit_head_after_of_search : ∀ c ∈ o.after.head?, c.isDigit = false :=
  Literal.isDigit_head_of_scan? (scan?_right_of_search h)

/-- The literal in front does not begin inside a longer one. -/
theorem text_ne_of_search {l : Literal} (hl : l.IsProper) {x r : Text} (hbefore : o.before = x ++ r)
    (hr : r ≠ []) : l.text ≠ r ++ o.found.left.text := by
  intro htext
  obtain ⟨-, hgap, hright⟩ := isOf_of_search h
  have hs : s = x ++ (r ++ (o.found.text ++ o.after)) := by
    rw [← append_of_search h, hbefore, List.append_assoc]
  have hx : x.length < o.before.length := by
    have hpos := List.length_pos_iff.2 hr
    rw [hbefore, List.length_append]
    omega
  refine not_begins_of_search h hs hx
    ⟨⟨l, o.found.gap, o.found.right⟩, ⟨hl, hgap, hright⟩, o.after, ?_⟩
  simp [text, htext]

end Pair
end Reckon
