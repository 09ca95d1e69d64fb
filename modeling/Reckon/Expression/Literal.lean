import Reckon.Decimal.Plain
import Reckon.Expression.Pattern

/-!
# Literals in an expression

A literal in an expression is a run of digits, with at most one point that has a digit on either
side, and possibly a minus sign directly in front.  There is no plus sign, no exponent, and no digit
outside ASCII.

`Literal.pattern` takes the longest literal there is.  Nothing is lost by not trying a shorter one:
whatever may follow a literal in an expression begins neither with a digit nor with a point.
-/

set_option autoImplicit false

namespace Reckon

namespace Literal

/-- The places at the head of a text, which has to begin with the point for that, and what follows
them.  A point without a digit behind it is left where it is. -/
def scanPlaces : Text → Text × Text
  | '.' :: s =>
    if (s.takeWhile Char.isDigit).isEmpty then ([], '.' :: s)
    else (s.takeWhile Char.isDigit, s.dropWhile Char.isDigit)
  | s => ([], s)

/-- The longest unsigned literal at the head of a text, to be given a sign. -/
def scanUnsigned? (negative : Bool) (s : Text) : Option (Literal × Text) :=
  let whole := s.takeWhile Char.isDigit
  if whole.isEmpty then none
  else
    let (places, rest) := scanPlaces (s.dropWhile Char.isDigit)
    some (⟨negative, whole, places⟩, rest)

/-- The longest literal at the head of a text. -/
def scan? : Text → Option (Literal × Text)
  | '-' :: s => scanUnsigned? true s
  | s => scanUnsigned? false s

theorem placesText_append_scanPlaces (s : Text) :
    placesText (scanPlaces s).1 ++ (scanPlaces s).2 = s := by
  unfold scanPlaces
  split
  · next s =>
    split
    · rfl
    · next h =>
      obtain ⟨c, t, ht⟩ := List.exists_cons_of_ne_nil fun hnil ↦ h (List.isEmpty_iff.2 hnil)
      rw [ht, placesText, ← ht, List.cons_append, List.takeWhile_append_dropWhile]
      simp
  · rfl

theorem text_append_of_scanUnsigned? {negative : Bool} {s rest : Text} {l : Literal}
    (h : scanUnsigned? negative s = some (l, rest)) :
    l.negative = negative ∧ l.whole ≠ [] ∧ l.whole ++ (placesText l.places ++ rest) = s := by
  unfold scanUnsigned? at h
  dsimp only at h
  split at h
  · cases h
  · next hw =>
    cases h
    refine ⟨rfl, fun hnil ↦ hw (List.isEmpty_iff.2 hnil), ?_⟩
    dsimp only
    rw [placesText_append_scanPlaces, List.takeWhile_append_dropWhile]

theorem text_append_of_scan? {s rest : Text} {l : Literal} (h : scan? s = some (l, rest)) :
    l.text ++ rest = s := by
  unfold scan? at h
  split at h
  · next s =>
    obtain ⟨hn, -, hs⟩ := text_append_of_scanUnsigned? h
    simp [text, signText, hn, hs]
  · obtain ⟨hn, -, hs⟩ := text_append_of_scanUnsigned? h
    simp [text, signText, hn, hs]

theorem text_ne_nil_of_scan? {s rest : Text} {l : Literal} (h : scan? s = some (l, rest)) :
    l.text ≠ [] := by
  have hw : l.whole ≠ [] := by
    unfold scan? at h
    split at h <;> exact (text_append_of_scanUnsigned? h).2.1
  simp [text, hw]

/-- The pattern of a numeric literal. -/
def pattern : Pattern Literal where
  scan? := scan?
  text := text
  text_append := text_append_of_scan?
  text_ne_nil := text_ne_nil_of_scan?

/-! ## What a scanned literal is made of -/

theorem isDigit_of_mem_takeWhile {s : Text} {c : Char} (h : c ∈ s.takeWhile Char.isDigit) :
    c.isDigit = true :=
  List.all_eq_true.1 List.all_takeWhile c h

theorem isProper_of_scanUnsigned? {negative : Bool} {s rest : Text} {l : Literal}
    (h : scanUnsigned? negative s = some (l, rest)) : l.IsProper := by
  unfold scanUnsigned? at h
  dsimp only at h
  split at h
  · cases h
  · next hw =>
    cases h
    refine ⟨fun hnil ↦ hw (List.isEmpty_iff.2 hnil), fun c hc ↦ isDigit_of_mem_takeWhile hc, ?_⟩
    intro c hc
    dsimp only at hc
    unfold scanPlaces at hc
    split at hc
    · split at hc
      · cases hc
      · exact isDigit_of_mem_takeWhile hc
    · cases hc

/-- A scanned literal is made of digits. -/
theorem isProper_of_scan? {s rest : Text} {l : Literal} (h : scan? s = some (l, rest)) :
    l.IsProper := by
  unfold scan? at h
  split at h <;> exact isProper_of_scanUnsigned? h

theorem negative_of_scan?_cons {c : Char} {s rest : Text} {l : Literal} (hc : c ≠ '-')
    (h : scan? (c :: s) = some (l, rest)) :
    l.negative = false ∧ scanUnsigned? false (c :: s) = some (l, rest) := by
  unfold scan? at h
  split at h
  · next heq => cases heq; exact absurd rfl hc
  · exact ⟨(text_append_of_scanUnsigned? h).1, h⟩

theorem scanUnsigned?_of_scan? {s rest : Text} {l : Literal} (hl : l.negative = false)
    (h : scan? s = some (l, rest)) : scanUnsigned? false s = some (l, rest) := by
  unfold scan? at h
  split at h
  · rw [(text_append_of_scanUnsigned? h).1] at hl
    cases hl
  · exact h

/-- A digit in front of an unsigned literal belongs to it. -/
theorem scan?_digit_cons {c : Char} {s rest : Text} {l : Literal} (hc : c.isDigit = true)
    (hl : l.negative = false) (h : scan? s = some (l, rest)) :
    scan? (c :: s) = some (⟨false, c :: l.whole, l.places⟩, rest) := by
  have hminus : c ≠ '-' := by rintro rfl; cases hc
  have hcons : scan? (c :: s) = scanUnsigned? false (c :: s) := by
    unfold scan?
    split
    · next heq => cases heq; exact absurd rfl hminus
    · rfl
  have h' := scanUnsigned?_of_scan? hl h
  rw [hcons]
  unfold scanUnsigned? at h' ⊢
  dsimp only at h' ⊢
  split at h'
  · cases h'
  · cases h'
    simp [hc]

/-- So does a minus sign. -/
theorem scan?_minus_cons {s rest : Text} {l : Literal} (hl : l.negative = false)
    (h : scan? s = some (l, rest)) :
    scan? ('-' :: s) = some (⟨true, l.whole, l.places⟩, rest) := by
  have h' := scanUnsigned?_of_scan? hl h
  show scanUnsigned? true s = _
  unfold scanUnsigned? at h' ⊢
  dsimp only at h' ⊢
  split at h'
  · cases h'
  · next hwhole =>
    cases h'
    rw [if_neg hwhole]

/-! ## Whole texts -/

/-- The literal that a text is, if it is one and nothing more. -/
def ofText? (s : Text) : Option Literal :=
  match scan? s with
  | some (l, []) => some l
  | _ => none

end Literal
end Reckon
