import Reckon.Expression.Flat.Weight
import Reckon.Proofs.Search

/-!
# Reading literals where they stand

A literal that is followed neither by a digit nor by a point is read back as it was written
(`scan?_text_append`), and a reader that begins somewhere inside it comes to the same end.  So
whether a pair of literals is found depends on what follows the first one and not on the place in it
where the reader begins: `followed?` is what follows, a separator and the second literal.  If it is
missing, there is nothing to be found anywhere in the literal (`silent_text`), and if it is there,
the leftmost pair begins where the literal does (`search_text`).
-/

set_option autoImplicit false

namespace Reckon

namespace Literal

/-- A text that does not go on with a literal: it begins neither with a digit nor with a point. -/
def Closes (s : Text) : Prop := ∀ c ∈ s.head?, c.isDigit = false ∧ c ≠ '.'

theorem closes_nil : Closes [] := by simp [Closes]

theorem closes_cons {c : Char} {s : Text} (hd : c.isDigit = false) (hp : c ≠ '.') :
    Closes (c :: s) := by
  simp [Closes, hd, hp]

/-! ## Runs of digits -/

theorem takeWhile_digits {d s : Text} (hd : ∀ c ∈ d, c.isDigit = true)
    (hs : ∀ c ∈ s.head?, c.isDigit = false) : (d ++ s).takeWhile Char.isDigit = d := by
  rw [List.takeWhile_append_of_pos hd]
  cases s with
  | nil => simp
  | cons c s => simp [hs c rfl]

theorem dropWhile_digits {d s : Text} (hd : ∀ c ∈ d, c.isDigit = true)
    (hs : ∀ c ∈ s.head?, c.isDigit = false) : (d ++ s).dropWhile Char.isDigit = s := by
  rw [List.dropWhile_append_of_pos hd]
  cases s with
  | nil => simp
  | cons c s => simp [hs c rfl]

theorem Closes.isDigit_head {s : Text} (h : Closes s) : ∀ c ∈ s.head?, c.isDigit = false :=
  fun c hc ↦ (h c hc).1

theorem isDigit_head_placesText {places s : Text} (h : Closes s) :
    ∀ c ∈ (placesText places ++ s).head?, c.isDigit = false := by
  cases places with
  | nil => exact h.isDigit_head
  | cons d places =>
    intro c hc
    cases hc
    rfl

/-! ## Reading a literal -/

theorem scanPlaces_placesText {places s : Text} (hp : ∀ c ∈ places, c.isDigit = true)
    (hs : Closes s) : scanPlaces (placesText places ++ s) = (places, s) := by
  cases places with
  | nil =>
    cases s with
    | nil => rfl
    | cons c s =>
      have hc : c ≠ '.' := (hs c rfl).2
      rw [placesText, List.nil_append, scanPlaces]
      simpa using hc
  | cons d places =>
    rw [placesText, List.cons_append, scanPlaces, takeWhile_digits hp hs.isDigit_head,
      dropWhile_digits hp hs.isDigit_head]
    · rfl
    · simp

theorem scanUnsigned?_append {whole places s : Text} (negative : Bool) (hne : whole ≠ [])
    (hw : ∀ c ∈ whole, c.isDigit = true) (hp : ∀ c ∈ places, c.isDigit = true) (hs : Closes s) :
    scanUnsigned? negative (whole ++ (placesText places ++ s)) =
      some (⟨negative, whole, places⟩, s) := by
  have hhead : ∀ c ∈ (placesText places ++ s).head?, c.isDigit = false :=
    isDigit_head_placesText hs
  rw [scanUnsigned?, takeWhile_digits hw hhead, dropWhile_digits hw hhead,
    scanPlaces_placesText hp hs]
  simp [hne]

/-- Where neither a digit nor a minus sign begins, no literal does. -/
theorem scan?_cons_eq_none {c : Char} (hd : c.isDigit = false) (hm : c ≠ '-') (s : Text) :
    scan? (c :: s) = none := by
  cases h : scan? (c :: s) with
  | none => rfl
  | some r =>
    have := (negative_of_scan?_cons hm h).2
    simp [scanUnsigned?, hd] at this

theorem scan?_cons_of_ne {c : Char} (hm : c ≠ '-') (s : Text) :
    scan? (c :: s) = scanUnsigned? false (c :: s) := by
  unfold scan?
  split
  · next heq => cases heq; exact absurd rfl hm
  · rfl

/-- Digits and places are read as an unsigned literal. -/
theorem scan?_digits_append {whole places s : Text} (hne : whole ≠ [])
    (hw : ∀ c ∈ whole, c.isDigit = true) (hp : ∀ c ∈ places, c.isDigit = true) (hs : Closes s) :
    scan? (whole ++ (placesText places ++ s)) = some (⟨false, whole, places⟩, s) := by
  obtain ⟨c, d, rfl⟩ := List.exists_cons_of_ne_nil hne
  have hm : c ≠ '-' := by
    rintro rfl
    exact absurd (hw '-' List.mem_cons_self) (by decide)
  rw [List.cons_append, scan?_cons_of_ne hm, ← List.cons_append]
  exact scanUnsigned?_append false hne hw hp hs

/-- A minus sign without a digit behind it begins no literal. -/
theorem scan?_minus_eq_none {s : Text} (hs : ∀ c ∈ s.head?, c.isDigit = false) :
    scan? ('-' :: s) = none := by
  rw [scan?, scanUnsigned?]
  cases s with
  | nil => rfl
  | cons c s => simp [hs c rfl]

/-- A literal is read back as it was written. -/
theorem scan?_text_append {l : Literal} (h : l.IsProper) {s : Text} (hs : Closes s) :
    scan? (l.text ++ s) = some (l, s) := by
  obtain ⟨negative, whole, places⟩ := l
  have happend : text ⟨negative, whole, places⟩ ++ s =
      signText negative ++ (whole ++ (placesText places ++ s)) := by
    simp [text]
  rw [happend]
  cases negative with
  | false => exact scan?_digits_append h.whole_ne_nil h.isDigit_whole h.isDigit_places hs
  | true => exact scanUnsigned?_append true h.whole_ne_nil h.isDigit_whole h.isDigit_places hs

theorem ofText?_text {l : Literal} (h : l.IsProper) : ofText? l.text = some l := by
  have := scan?_text_append h closes_nil
  rw [List.append_nil] at this
  rw [ofText?, this]

/-- The literal that a text is. -/
theorem ofText?_eq_some_iff {s : Text} {l : Literal} :
    ofText? s = some l ↔ l.IsProper ∧ l.text = s := by
  refine ⟨fun h ↦ ?_, fun ⟨h, hs⟩ ↦ hs ▸ ofText?_text h⟩
  rw [ofText?] at h
  split at h
  · next hscan =>
    cases h
    refine ⟨isProper_of_scan? hscan, ?_⟩
    rw [← text_append_of_scan? hscan, List.append_nil]
  · cases h

theorem ofText?_eq_none_iff {s : Text} :
    ofText? s = none ↔ ∀ l : Literal, l.IsProper → l.text ≠ s := by
  simp only [Option.eq_none_iff_forall_ne_some, ne_eq, ofText?_eq_some_iff, not_and]

/-- Without a digit there is no literal. -/
theorem scan?_eq_none_of_forall {s : Text} (h : ∀ c ∈ s, c.isDigit = false) : scan? s = none := by
  cases hscan : scan? s with
  | none => rfl
  | some r =>
    obtain ⟨l, rest⟩ := r
    have hl := isProper_of_scan? hscan
    obtain ⟨c, t, hc⟩ := List.exists_cons_of_ne_nil hl.whole_ne_nil
    have hmem : c ∈ s := by
      rw [← text_append_of_scan? hscan]
      simp [text, hc]
    have := hl.isDigit_whole c (by simp [hc])
    rw [h c hmem] at this
    cases this

end Literal

/-! ## What follows a literal -/

namespace Separator

/-- A separator at the head of a text, the literal behind it, and what follows. -/
def followed? (sep : Separator) (s : Text) : Option (Text × Literal × Text) :=
  (sep.scan? s).bind fun (gap, t) ↦ (Literal.scan? t).map fun (l, rest) ↦ (gap, l, rest)

/-- Without a digit no literal follows. -/
theorem followed?_eq_none_of_forall (sep : Separator) {s : Text}
    (h : ∀ c ∈ s, c.isDigit = false) : sep.followed? s = none := by
  rw [followed?]
  cases hscan : sep.scan? s with
  | none => rfl
  | some r =>
    obtain ⟨gap, t⟩ := r
    have ht : ∀ c ∈ t, c.isDigit = false := by
      intro c hc
      refine h c ?_
      rw [← append_of_scan? hscan]
      exact List.mem_append_right _ hc
    dsimp only [Option.bind_some]
    rw [Literal.scan?_eq_none_of_forall ht]
    rfl

end Separator

namespace Pair

variable (sep : Separator)

theorem scan?_of_scan? {s t : Text} {l : Literal} (h : Literal.scan? s = some (l, t)) :
    scan? sep s =
      (sep.followed? t).map fun (gap, right, rest) ↦ (⟨l, gap, right⟩, rest) := by
  rw [scan?, h, Separator.followed?]
  dsimp only
  cases sep.scan? t with
  | none => rfl
  | some r =>
    obtain ⟨gap, u⟩ := r
    dsimp only [Option.bind_some]
    cases Literal.scan? u <;> rfl

theorem scan?_eq_none {s : Text} (h : Literal.scan? s = none) :
    (pattern sep).scan? s = none := by
  show scan? sep s = none
  rw [scan?, h]

/-- No pair begins with a literal that no separator and literal follow. -/
theorem scan?_eq_none_of_followed? {s t : Text} {l : Literal} (h : Literal.scan? s = some (l, t))
    (hnone : sep.followed? t = none) : (pattern sep).scan? s = none := by
  show scan? sep s = none
  rw [scan?_of_scan? sep h, hnone]
  rfl

variable {sep}

theorem silent_digits {whole places s : Text} (hw : ∀ c ∈ whole, c.isDigit = true)
    (hp : ∀ c ∈ places, c.isDigit = true) (hs : Literal.Closes s)
    (hnone : sep.followed? s = none) :
    (pattern sep).Silent whole (Literal.placesText places ++ s) := by
  induction whole with
  | nil => trivial
  | cons c whole ih =>
    refine ⟨?_, ih fun d hd ↦ hw d (List.mem_cons_of_mem _ hd)⟩
    exact scan?_eq_none_of_followed? sep (Literal.scan?_digits_append (by simp) hw hp hs) hnone

/-- There is no pair to be found anywhere in a literal that no separator and literal follow. -/
theorem silent_text {l : Literal} (h : l.IsProper) {s : Text} (hs : Literal.Closes s)
    (hnone : sep.followed? s = none) : (pattern sep).Silent l.text s := by
  have hscan := Literal.scan?_text_append h hs
  obtain ⟨negative, whole, places⟩ := l
  have hplaces : (pattern sep).Silent (Literal.placesText places) s := by
    cases places with
    | nil => trivial
    | cons c places =>
      have hpoint : Literal.scan? ('.' :: (c :: places ++ s)) = none :=
        Literal.scan?_cons_eq_none (by decide) (by decide) _
      have hdigits : (pattern sep).Silent (c :: places) (Literal.placesText [] ++ s) :=
        silent_digits h.isDigit_places (by simp) hs hnone
      exact ⟨scan?_eq_none sep hpoint, hdigits⟩
  have hwhole := silent_digits h.isDigit_whole h.isDigit_places hs hnone
  have hrest : (pattern sep).Silent (whole ++ Literal.placesText places) s :=
    ((pattern sep).silent_append).2 ⟨hwhole, hplaces⟩
  cases negative with
  | false => exact hrest
  | true => exact ⟨scan?_eq_none_of_followed? sep hscan hnone, hrest⟩

/-- A pair begins where its first literal does. -/
theorem search_text {l : Literal} (h : l.IsProper) {s gap rest : Text} {right : Literal}
    (hs : Literal.Closes s) (hsome : sep.followed? s = some (gap, right, rest)) :
    (pattern sep).search (l.text ++ s) = some ⟨[], ⟨l, gap, right⟩, rest⟩ := by
  refine (pattern sep).search_of_scan? ?_
  have hpair := scan?_of_scan? sep (Literal.scan?_text_append h hs)
  rw [hsome] at hpair
  exact hpair

end Pair
end Reckon
