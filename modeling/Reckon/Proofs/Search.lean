import Reckon.Expression.Pattern

/-!
# Where a pattern is found

A search looks for its pattern at one place of the text after the other.  `Silent` says that there
is nothing to be found at any place of one part of a text, given what follows that part; the search
then goes on behind it (`search_append`).  Silence of parts adds up (`silent_append`), so a text can
be gone through part by part.
-/

set_option autoImplicit false

namespace Reckon
namespace Pattern

variable {α : Type} (p : Pattern α)

/-- Nothing is recognised at the end of a text. -/
@[simp] theorem scan?_nil : p.scan? [] = none := by
  cases h : p.scan? [] with
  | none => rfl
  | some r => exact absurd (List.append_eq_nil_iff.1 (p.text_append h)).1 (p.text_ne_nil h)

/-- Nothing is recognised at any place of the first text when the second follows it. -/
def Silent : Text → Text → Prop
  | [], _ => True
  | c :: s, t => p.scan? (c :: (s ++ t)) = none ∧ Silent s t

theorem silent_append {s t u : Text} :
    p.Silent (s ++ t) u ↔ p.Silent s (t ++ u) ∧ p.Silent t u := by
  induction s with
  | nil => simp [Silent]
  | cons c s ih => simp [Silent, ih, and_assoc]

/-- A text is silent when its characters cannot begin what the pattern recognises. -/
theorem silent_of_forall {s : Text} (t : Text) (h : ∀ c ∈ s, ∀ u, p.scan? (c :: u) = none) :
    p.Silent s t := by
  induction s with
  | nil => trivial
  | cons c s ih =>
    exact ⟨h c List.mem_cons_self _, ih fun d hd ↦ h d (List.mem_cons_of_mem _ hd)⟩

/-! ## Searching -/

theorem search_of_scan? {s rest : Text} {a : α} (h : p.scan? s = some (a, rest)) :
    p.search s = some ⟨[], a, rest⟩ := by
  cases s with
  | nil => rw [scan?_nil] at h; cases h
  | cons c s => simp [search, h]

/-- A search goes on behind a part where there is nothing to be found. -/
theorem search_append {s t : Text} (h : p.Silent s t) :
    p.search (s ++ t) = (p.search t).map fun o ↦ { o with before := s ++ o.before } := by
  induction s with
  | nil => simp
  | cons c s ih =>
    rw [List.cons_append, search, h.1, ih h.2]
    simp [Function.comp_def]

theorem search_eq_none {s : Text} (h : p.Silent s []) : p.search s = none := by
  have := p.search_append h
  rw [List.append_nil] at this
  rw [this]
  rfl

/-! ## Pieces -/

theorem pieces_of_scan? {s rest : Text} {a : α} (h : p.scan? s = some (a, rest)) :
    p.pieces s = .inr a :: p.pieces rest := by
  cases s with
  | nil => rw [scan?_nil] at h; cases h
  | cons c s =>
    rw [pieces]
    split
    · next h' => rw [h'] at h; cases h; rfl
    · next h' => rw [h'] at h; cases h

theorem pieces_of_scan?_eq_none {c : Char} {s : Text} (h : p.scan? (c :: s) = none) :
    p.pieces (c :: s) = .inl c :: p.pieces s := by
  rw [pieces]
  split
  · next h' => rw [h'] at h; cases h
  · rfl

/-- A search finds nothing exactly where none of the pieces is a find. -/
theorem search_eq_none_iff {s : Text} : p.search s = none ↔ ∀ a, Sum.inr a ∉ p.pieces s := by
  induction s with
  | nil => simp [search, pieces]
  | cons c s ih =>
    cases h : p.scan? (c :: s) with
    | some r =>
      obtain ⟨a, rest⟩ := r
      have hmem : Sum.inr a ∈ p.pieces (c :: s) := by
        rw [p.pieces_of_scan? h]
        exact List.mem_cons_self
      rw [p.search_of_scan? h]
      exact iff_of_false (by simp) fun hall ↦ hall a hmem
    | none =>
      rw [p.pieces_of_scan?_eq_none h, search, h]
      simpa using ih

end Pattern
end Reckon
