import Reckon.Expression.Nested.Resolve

/-!
# Pairing parentheses

A `Forest` is a text whose parentheses are paired as far as they can be.  `Forest.ofText` pairs them
the usual way: it reads from left to right and keeps a stack with what was read before each opening
parenthesis that still waits for its partner.  A parenthesis that finds none is a character like any
other.

* `text_ofText`: pairing loses nothing.
* `ofText_splits`: what stays alone are closing parentheses first and opening ones after them, and
  inside a pair there is none (`Splits`).  That is why an opening parenthesis without a partner is
  never the beginning of an innermost group.
* `pairFrom_text_append`: a text whose parentheses all have partners is read as a whole, whatever
  stands around it.
* `ofText_text_of_splits`: there is no other way to pair the parentheses of a text so that those
  without partners stand in that order.
-/

set_option autoImplicit false

namespace Reckon
namespace Nested

/-- A text with its parentheses paired. -/
inductive Forest where
  /-- The empty text. -/
  | nil
  /-- A character that is not one of a pair of parentheses, and what follows it. -/
  | char (c : Char) (rest : Forest)
  /-- A pair of parentheses with what stands between them, and what follows it. -/
  | group (inner rest : Forest)
deriving DecidableEq, Repr

namespace Forest

/-- The text of a forest. -/
def text : Forest → Text
  | nil => []
  | char c rest => c :: rest.text
  | group inner rest => '(' :: (inner.text ++ ')' :: rest.text)

/-- One forest after another. -/
def append : Forest → Forest → Forest
  | nil, forest => forest
  | char c rest, forest => char c (rest.append forest)
  | group inner rest, forest => group inner (rest.append forest)

instance : Append Forest := ⟨append⟩

/-- The forest of a text in which no parenthesis is paired. -/
def ofChars : Text → Forest
  | [] => nil
  | c :: s => char c (ofChars s)

@[simp] theorem nil_append (f : Forest) : nil ++ f = f := rfl

@[simp] theorem char_append (c : Char) (f g : Forest) : char c f ++ g = char c (f ++ g) := rfl

@[simp] theorem group_append (f g h : Forest) : group f g ++ h = group f (g ++ h) := rfl

@[simp] theorem append_nil (f : Forest) : f ++ nil = f := by
  induction f with
  | nil => rfl
  | char c rest ih => rw [char_append, ih]
  | group inner rest _ ih => rw [group_append, ih]

theorem append_assoc (f g h : Forest) : f ++ g ++ h = f ++ (g ++ h) := by
  induction f with
  | nil => rfl
  | char c rest ih => simp only [char_append, ih]
  | group inner rest _ ih => simp only [group_append, ih]

@[simp] theorem text_append (f g : Forest) : (f ++ g).text = f.text ++ g.text := by
  induction f with
  | nil => rfl
  | char c rest ih => simp [text, ih]
  | group inner rest _ ih => simp [text, ih]

@[simp] theorem text_ofChars (s : Text) : (ofChars s).text = s := by
  induction s with
  | nil => rfl
  | cons c s ih => simp [ofChars, text, ih]

/-! ## Pairing -/

/-- Closes what is still open: parentheses without partners become characters. -/
def closeAll (outer : List Forest) (current : Forest) : Forest :=
  outer.foldl (fun inner before ↦ before ++ char '(' inner) current

/-- Pairs the parentheses of a text.  `outer` holds what was read before each opening parenthesis
that waits for its partner, the latest first, and `current` what was read since the latest. -/
def pairFrom (outer : List Forest) (current : Forest) : Text → Forest
  | [] => closeAll outer current
  | c :: s =>
    if c = '(' then pairFrom (current :: outer) nil s
    else if c = ')' then
      match outer with
      | [] => pairFrom [] (current ++ char ')' nil) s
      | before :: outer => pairFrom outer (before ++ group current nil) s
    else pairFrom outer (current ++ char c nil) s

/-- A text with its parentheses paired. -/
def ofText (s : Text) : Forest := pairFrom [] nil s

variable (outer : List Forest) (before current : Forest) (s : Text)

theorem pairFrom_open : pairFrom outer current ('(' :: s) = pairFrom (current :: outer) nil s := rfl

theorem pairFrom_close : pairFrom (before :: outer) current (')' :: s) =
    pairFrom outer (before ++ group current nil) s := rfl

theorem pairFrom_char {c : Char} (hc : Group.isParen c = false) :
    pairFrom outer current (c :: s) = pairFrom outer (current ++ char c nil) s := by
  simp only [Group.isParen, Bool.or_eq_false_iff, decide_eq_false_iff_not] at hc
  simp [pairFrom, hc]

variable {outer before current s}

theorem text_closeAll (outer : List Forest) {f g : Forest} {s : Text}
    (h : f.text = g.text ++ s) : (closeAll outer f).text = (closeAll outer g).text ++ s := by
  induction outer generalizing f g with
  | nil => exact h
  | cons before outer ih => exact ih (by simp [text, h])

theorem text_pairFrom (outer : List Forest) (current : Forest) (s : Text) :
    (pairFrom outer current s).text = (closeAll outer current).text ++ s := by
  induction s generalizing outer current with
  | nil => simp [pairFrom]
  | cons c s ih =>
    have key : ∀ f : Forest, f.text = current.text ++ [c] →
        (closeAll outer f).text ++ s = (closeAll outer current).text ++ c :: s := by
      intro f hf
      rw [text_closeAll outer hf, List.append_assoc, List.singleton_append]
    unfold pairFrom
    split
    · next hc =>
      rw [ih, ← key (current ++ char '(' nil) (by simp [text, hc])]
      rfl
    · split
      · next hc =>
        split
        · rw [ih, ← key (current ++ char ')' nil) (by simp [text, hc])]
        · next before outer =>
          -- the group has one character more than what it closes
          have hgroup : (before ++ group current nil).text =
              (before ++ char '(' current).text ++ [c] := by simp [text, hc]
          rw [ih, text_closeAll outer hgroup, List.append_assoc, List.singleton_append]
          rfl
      · rw [ih, ← key (current ++ char c nil) (by simp [text])]

/-- Pairing the parentheses of a text loses nothing. -/
@[simp] theorem text_ofText (s : Text) : (ofText s).text = s := by
  rw [ofText, text_pairFrom]
  rfl

/-! ## Parentheses without partners -/

/-- No character of a forest is a parenthesis inside a pair, and none outside satisfies `p`. -/
def Lacks (p : Char → Prop) : Forest → Prop
  | nil => True
  | char c rest => ¬ p c ∧ rest.Lacks p
  | group inner rest => inner.Lacks (fun c ↦ Group.isParen c = true) ∧ rest.Lacks p

/-- Every parenthesis of a forest has its partner. -/
def IsPaired (f : Forest) : Prop := f.Lacks fun c ↦ Group.isParen c = true

/-- The parentheses without partners are closing ones first and opening ones after them. -/
def Splits (f : Forest) : Prop :=
  ∃ g h, f = g ++ h ∧ g.Lacks (fun c ↦ c = '(') ∧ h.Lacks fun c ↦ c = ')'

variable {p q : Char → Prop}

theorem lacks_append {f g : Forest} : (f ++ g).Lacks p ↔ f.Lacks p ∧ g.Lacks p := by
  induction f with
  | nil => simp [Lacks]
  | char c rest ih => simp [Lacks, ih, and_assoc]
  | group inner rest _ ih => simp [Lacks, ih, and_assoc]

theorem Lacks.mono {f : Forest} (h : f.Lacks q) (hpq : ∀ c, p c → q c) : f.Lacks p := by
  induction f with
  | nil => trivial
  | char c rest ih => exact ⟨fun hc ↦ h.1 (hpq c hc), ih h.2⟩
  | group inner rest _ ih => exact ⟨h.1, ih h.2⟩

theorem IsPaired.lacks {f : Forest} (h : f.IsPaired) (hp : ∀ c, p c → Group.isParen c = true) :
    f.Lacks p := Lacks.mono h hp

theorem IsPaired.group {inner : Forest} (h : inner.IsPaired) : (group inner nil).IsPaired :=
  ⟨h, trivial⟩

theorem lacks_ofChars {s : Text} (h : ∀ c ∈ s, ¬ p c) : (ofChars s).Lacks p := by
  induction s with
  | nil => trivial
  | cons c s ih => exact ⟨h c List.mem_cons_self, ih fun d hd ↦ h d (List.mem_cons_of_mem _ hd)⟩

theorem isPaired_ofChars {s : Text} (h : IsBare s) : (ofChars s).IsPaired :=
  lacks_ofChars fun c hc ↦ by simp [h c hc]

/-- The stack of a reader: only what was read before the first open parenthesis, the last of the
parts, may have closing parentheses without partners. -/
def IsStack : List Forest → Prop
  | [] => True
  | [base] => base.Lacks fun c ↦ c = '('
  | part :: below :: stack => part.IsPaired ∧ IsStack (below :: stack)

theorem IsPaired.isStack_cons {part : Forest} {stack : List Forest} (hp : part.IsPaired)
    (h : IsStack stack) : IsStack (part :: stack) := by
  cases stack with
  | nil => exact hp.lacks (by rintro c rfl; rfl)
  | cons below stack => exact ⟨hp, h⟩

/-- Something read since the latest open parenthesis joins the topmost part of the stack. -/
theorem IsStack.append {part f : Forest} {stack : List Forest} (h : IsStack (part :: stack))
    (hbase : stack = [] → f.Lacks fun c ↦ c = '(') (hpart : stack ≠ [] → f.IsPaired) :
    IsStack ((part ++ f) :: stack) := by
  cases stack with
  | nil => exact lacks_append.2 ⟨h, hbase rfl⟩
  | cons below stack => exact ⟨lacks_append.2 ⟨h.1, hpart (by simp)⟩, h.2⟩

theorem splits_closeAll {outer : List Forest} {current : Forest} (h : IsStack (current :: outer)) :
    (closeAll outer current).Splits := by
  -- above the base of the stack nothing is left without a partner but opening parentheses
  have key : ∀ (outer : List Forest) (f : Forest), outer ≠ [] → IsStack outer →
      f.Lacks (fun c ↦ c = ')') → (closeAll outer f).Splits := by
    intro outer
    induction outer with
    | nil => intro f hne; exact absurd rfl hne
    | cons part below ih =>
      intro f _ hstack hf
      cases below with
      | nil => exact ⟨part, char '(' f, rfl, hstack, by decide, hf⟩
      | cons g below =>
        refine ih _ (by simp) hstack.2 (lacks_append.2 ⟨?_, by decide, hf⟩)
        exact hstack.1.lacks (by rintro c rfl; rfl)
  cases outer with
  | nil => exact ⟨current, nil, (append_nil _).symm, h, trivial⟩
  | cons g outer =>
    exact key _ _ (by simp) h.2 (h.1.lacks (by rintro c rfl; rfl))

theorem splits_pairFrom {outer : List Forest} {current : Forest} {s : Text}
    (h : IsStack (current :: outer)) : (pairFrom outer current s).Splits := by
  induction s generalizing outer current with
  | nil => exact splits_closeAll h
  | cons c s ih =>
    unfold pairFrom
    split
    · have hnil : nil.IsPaired := trivial
      exact ih (hnil.isStack_cons h)
    · next hopen =>
      split
      · split
        · exact ih (h.append (fun _ ↦ ⟨by decide, trivial⟩) fun hne ↦ absurd rfl hne)
        · next before outer =>
          exact ih (h.2.append (fun _ ↦ ⟨h.1, trivial⟩) fun _ ↦ ⟨h.1, trivial⟩)
      · next hclose =>
        refine ih (h.append (fun _ ↦ ⟨hopen, trivial⟩) fun _ ↦ ⟨?_, trivial⟩)
        simp [Group.isParen, hopen, hclose]

/-- In a text with its parentheses paired, no closing parenthesis without a partner comes after an
opening one without a partner. -/
theorem ofText_splits (s : Text) : (ofText s).Splits := by
  have hstack : IsStack [nil] := trivial
  exact splits_pairFrom hstack

/-! ## Texts whose parentheses all have partners -/

/-- A text whose parentheses all have partners is read as a whole. -/
theorem pairFrom_text_append {f : Forest} (hf : f.IsPaired) (outer : List Forest)
    (current : Forest) (s : Text) :
    pairFrom outer current (f.text ++ s) = pairFrom outer (current ++ f) s := by
  induction f generalizing outer current s with
  | nil => simp [text]
  | char c rest ih =>
    rw [text, List.cons_append, pairFrom_char _ _ _ (Bool.eq_false_iff.2 hf.1), ih hf.2,
      append_assoc]
    rfl
  | group inner rest ihinner ihrest =>
    rw [text, List.cons_append, List.append_assoc, pairFrom_open, ihinner hf.1, List.cons_append,
      pairFrom_close, ihrest hf.2, append_assoc]
    rfl

/-- There is one way to pair the parentheses of a text when all of them have partners. -/
theorem ofText_text {f : Forest} (hf : f.IsPaired) : ofText f.text = f := by
  have h := pairFrom_text_append hf [] nil []
  rw [List.append_nil] at h
  rw [ofText, h]
  rfl

/-! ## Texts with parentheses that have no partners -/

/-- Where nothing is open, closing parentheses are read as characters. -/
theorem pairFrom_nil_text_append {f : Forest} (hf : f.Lacks fun c ↦ c = '(') (current : Forest)
    (s : Text) : pairFrom [] current (f.text ++ s) = pairFrom [] (current ++ f) s := by
  induction f generalizing current with
  | nil => simp [text]
  | char c rest ih =>
    have hchar : pairFrom [] current (c :: (rest.text ++ s)) =
        pairFrom [] (current ++ char c nil) (rest.text ++ s) := by
      rw [pairFrom, if_neg hf.1]
      split
      · next hc => rw [hc]
      · rfl
    rw [text, List.cons_append, hchar, ih hf.2, append_assoc]
    rfl
  | group inner rest _ ihrest =>
    rw [text, List.cons_append, List.append_assoc, pairFrom_open, pairFrom_text_append hf.1,
      List.cons_append, pairFrom_close, ihrest hf.2, append_assoc]
    rfl

/-- Opening parentheses that nothing closes stay open to the end. -/
theorem pairFrom_text {f : Forest} (hf : f.Lacks fun c ↦ c = ')') (outer : List Forest)
    (current : Forest) : pairFrom outer current f.text = closeAll outer (current ++ f) := by
  induction f generalizing outer current with
  | nil => rw [append_nil]; rfl
  | char c rest ih =>
    by_cases hc : c = '('
    · rw [text, hc, pairFrom_open, ih hf.2]
      rfl
    · have hparen : Group.isParen c = false := by simp [Group.isParen, hc, hf.1]
      rw [text, pairFrom_char _ _ _ hparen, ih hf.2, append_assoc]
      rfl
  | group inner rest _ ihrest =>
    rw [text, pairFrom_open, pairFrom_text_append hf.1, pairFrom_close, ihrest hf.2, append_assoc]
    rfl

/-- There is one way to pair the parentheses of a text. -/
theorem ofText_text_of_splits {f : Forest} (hf : f.Splits) : ofText f.text = f := by
  obtain ⟨g, h, rfl, hg, hh⟩ := hf
  rw [text_append, ofText, pairFrom_nil_text_append hg, pairFrom_text hh]
  rfl

end Forest
end Nested
end Reckon
