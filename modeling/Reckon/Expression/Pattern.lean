import Reckon.Text.Basic

/-!
# Patterns and their occurrences

A `Pattern` recognises something at the head of a text and says what is left behind it.  What it
recognises is really there (`text_append`) and is never empty (`text_ne_nil`), which is what makes
it possible to look for a pattern everywhere in a text and to go on behind each find.

`search` finds the leftmost occurrence.  `pieces` cuts a whole text into the occurrences of a
pattern, taken from the left without overlaps, and the single characters between them; `texts`
glues pieces together again and `findAll` reads off where each occurrence stands.
-/

set_option autoImplicit false

namespace Reckon

/-- Something that can be recognised at the head of a text. -/
structure Pattern (α : Type) where
  /-- What stands at the head of the text, and the text behind it. -/
  scan? : Text → Option (α × Text)
  /-- The characters of what was recognised. -/
  text : α → Text
  /-- What was recognised stands at the head of the text. -/
  text_append : ∀ {s : Text} {a : α} {rest : Text}, scan? s = some (a, rest) → text a ++ rest = s
  /-- What was recognised is not empty. -/
  text_ne_nil : ∀ {s : Text} {a : α} {rest : Text}, scan? s = some (a, rest) → text a ≠ []

/-- Something found in a text, with what stands before it and behind it. -/
structure Occurrence (α : Type) where
  /-- The text before the find. -/
  before : Text
  /-- What was found. -/
  found : α
  /-- The text behind the find. -/
  after : Text

namespace Pattern

variable {α : Type}

/-- Behind what a pattern recognised, less text is left. -/
theorem length_rest_lt (p : Pattern α) {s : Text} {a : α} {rest : Text}
    (h : p.scan? s = some (a, rest)) : rest.length < s.length := by
  have hpos : 0 < (p.text a).length := List.length_pos_iff.2 (p.text_ne_nil h)
  rw [← p.text_append h, List.length_append]
  omega

/-! ## The leftmost occurrence -/

/-- The leftmost occurrence of a pattern in a text. -/
def search (p : Pattern α) : Text → Option (Occurrence α)
  | [] => none
  | c :: s =>
    match p.scan? (c :: s) with
    | some (a, rest) => some ⟨[], a, rest⟩
    | none => (p.search s).map fun o ↦ { o with before := c :: o.before }

/-- The three parts of an occurrence make up the text that was searched. -/
theorem append_of_search (p : Pattern α) {s : Text} {o : Occurrence α}
    (h : p.search s = some o) : o.before ++ (p.text o.found ++ o.after) = s := by
  induction s generalizing o with
  | nil => simp [search] at h
  | cons c s ih =>
    rw [search] at h
    split at h
    · next a rest hscan =>
      cases h
      exact p.text_append hscan
    · next hscan =>
      obtain ⟨o', ho', rfl⟩ := Option.map_eq_some_iff.1 h
      rw [List.cons_append, ih ho']

/-- An occurrence was recognised where it stands. -/
theorem scan?_of_search (p : Pattern α) {s : Text} {o : Occurrence α}
    (h : p.search s = some o) : p.scan? (p.text o.found ++ o.after) = some (o.found, o.after) := by
  induction s generalizing o with
  | nil => simp [search] at h
  | cons c s ih =>
    rw [search] at h
    split at h
    · next a rest hscan =>
      cases h
      rw [p.text_append hscan, hscan]
    · next hscan =>
      obtain ⟨o', ho', rfl⟩ := Option.map_eq_some_iff.1 h
      exact ih (o := o') ho'

/-- Nothing is recognised further to the left: neither at the beginning of the text nor anywhere
before the occurrence. -/
theorem scan?_eq_none_of_search (p : Pattern α) {s : Text} {o : Occurrence α}
    (h : p.search s = some o) {x y : Text} (hxy : o.before = x ++ y) (hy : y ≠ []) :
    p.scan? (y ++ (p.text o.found ++ o.after)) = none := by
  induction s generalizing o x with
  | nil => simp [search] at h
  | cons c s ih =>
    rw [search] at h
    split at h
    · cases h
      simp at hxy
      exact absurd hxy.2 hy
    · next hscan =>
      obtain ⟨o', ho', rfl⟩ := Option.map_eq_some_iff.1 h
      cases x with
      | nil =>
        simp only [List.nil_append] at hxy
        rw [← hxy, List.cons_append, p.append_of_search ho', hscan]
      | cons d x =>
        simp only [List.cons_append, List.cons.injEq] at hxy
        exact ih (o := o') ho' hxy.2

/-! ## All occurrences -/

/-- A text cut into the occurrences of a pattern and the characters that belong to none. -/
def pieces (p : Pattern α) : Text → List (Char ⊕ α)
  | [] => []
  | c :: s =>
    match _h : p.scan? (c :: s) with
    | some (a, rest) => .inr a :: p.pieces rest
    | none => .inl c :: p.pieces s
termination_by s => s.length
decreasing_by
  · exact p.length_rest_lt _h
  · exact Nat.lt_succ_self _

/-- The text of one piece. -/
def pieceText (p : Pattern α) : Char ⊕ α → Text
  | .inl c => [c]
  | .inr a => p.text a

/-- Cutting a text into pieces loses nothing. -/
theorem flatMap_pieceText_pieces (p : Pattern α) (s : Text) :
    (p.pieces s).flatMap p.pieceText = s := by
  induction s using pieces.induct p with
  | case1 => simp [pieces]
  | case2 c s a rest h ih => rw [pieces]; split <;> simp_all [pieceText, p.text_append h]
  | case3 c s h ih => rw [pieces]; split <;> simp_all [pieceText]

/-- What is found among the pieces was recognised somewhere. -/
theorem exists_scan?_of_mem_pieces (p : Pattern α) {s : Text} {a : α}
    (h : Sum.inr a ∈ p.pieces s) : ∃ t rest, p.scan? t = some (a, rest) := by
  induction s using pieces.induct p with
  | case1 => simp [pieces] at h
  | case2 c s b rest hscan ih =>
    rw [pieces] at h
    split at h
    · next b' rest' hscan' =>
      rw [hscan'] at hscan
      cases hscan
      rcases List.mem_cons.1 h with h | h
      · cases h
        exact ⟨_, _, hscan'⟩
      · exact ih h
    · simp_all
  | case3 c s hscan ih =>
    rw [pieces] at h
    split at h
    · simp_all
    · rcases List.mem_cons.1 h with h | h
      · cases h
      · exact ih h

/-- All occurrences of a pattern in a text, from the left and without overlaps, each with the
position of its first character. -/
def findAll (p : Pattern α) (s : Text) : List (Nat × α) :=
  go 0 (p.pieces s)
where
  /-- The occurrences among the pieces that begin at a position. -/
  go (i : Nat) : List (Char ⊕ α) → List (Nat × α)
    | [] => []
    | .inl _ :: ps => go (i + 1) ps
    | .inr a :: ps => (i, a) :: go (i + (p.text a).length) ps

end Pattern
end Reckon
