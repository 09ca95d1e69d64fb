import Reckon.Proofs.Outcome
import Reckon.Proofs.Parentheses.Forest

/-!
# Replacing groups by recursion over the pairs of parentheses

`Forest.flatten` replaces each group of a forest by what its text reduces to, once the groups inside
it have been replaced.

The recursion ends with a fault exactly when some group has one (`exists_error_flatten_iff`); which
one it comes to first is a matter of order, and `Fails` names them all.
-/

set_option autoImplicit false

namespace Reckon
namespace Nested

namespace Forest

variable {scale : Int}

/-! ## The recursion -/

/-- The outcome of reducing a text between two parentheses. -/
def enclosed (scale : Int) (s : Text) : Except Fault Text :=
  (Flat.reduce scale ('(' :: (s ++ [')']))).outcome

/-- The text of a forest with each group replaced by what it reduces to, the groups inside it
first. -/
def flatten (scale : Int) : Forest → Except Fault Text
  | nil => .ok []
  | char c rest => (rest.flatten scale).map (c :: ·)
  | group inner rest =>
    ((inner.flatten scale).bind (enclosed scale)).bind fun t ↦ (rest.flatten scale).map (t ++ ·)

/-- Some group of a forest has a fault: the groups inside it can be replaced, but it cannot be
reduced after that. -/
inductive Fails (scale : Int) : Forest → Fault → Prop where
  /-- The fault of the first group. -/
  | here {inner rest : Forest} {s : Text} {e : Fault} (hs : inner.flatten scale = .ok s)
      (he : enclosed scale s = .error e) : Fails scale (group inner rest) e
  /-- The fault of a group inside the first. -/
  | inside {inner rest : Forest} {e : Fault} (h : Fails scale inner e) :
      Fails scale (group inner rest) e
  /-- The fault of a group behind the first. -/
  | behind {inner rest : Forest} {e : Fault} (h : Fails scale rest e) :
      Fails scale (group inner rest) e
  /-- The fault of a group behind a character. -/
  | char {c : Char} {rest : Forest} {e : Fault} (h : Fails scale rest e) :
      Fails scale (char c rest) e

theorem flatten_append (f g : Forest) :
    (f ++ g).flatten scale =
      (f.flatten scale).bind fun s ↦ (g.flatten scale).map (s ++ ·) := by
  induction f with
  | nil => cases h : g.flatten scale <;> simp [flatten, h, Except.map, Except.bind]
  | char c rest ih =>
    rw [char_append, flatten, flatten, ih]
    cases rest.flatten scale <;> cases g.flatten scale <;> rfl
  | group inner rest _ ih =>
    rw [group_append, flatten, flatten, ih]
    cases (inner.flatten scale).bind (enclosed scale) <;> cases rest.flatten scale <;>
      cases g.flatten scale <;> simp [Except.map, Except.bind]

theorem flatten_ofChars (s : Text) : (ofChars s).flatten scale = .ok s := by
  induction s with
  | nil => rfl
  | cons c s ih => rw [ofChars, flatten, ih]; rfl

/-- Where the recursion ends with a fault, it is the fault of a group. -/
theorem fails_of_flatten {f : Forest} {e : Fault} (h : f.flatten scale = .error e) :
    f.Fails scale e := by
  induction f with
  | nil => cases h
  | char c rest ih => exact .char (ih (Outcome.map_eq_error_iff.1 h))
  | group inner rest ihinner ihrest =>
    rcases Outcome.bind_eq_error_iff.1 h with h | ⟨t, -, h⟩
    · rcases Outcome.bind_eq_error_iff.1 h with h | ⟨s, hs, he⟩
      · exact .inside (ihinner h)
      · exact .here hs he
    · exact .behind (ihrest (Outcome.map_eq_error_iff.1 h))

/-- Where a group has a fault, the recursion does not end well. -/
theorem Fails.flatten_ne_ok {f : Forest} {e : Fault} (h : f.Fails scale e) (t : Text) :
    f.flatten scale ≠ .ok t := by
  intro ht
  induction h generalizing t with
  | here hs he =>
    obtain ⟨r, hr, -⟩ := Outcome.bind_eq_ok_iff.1 ht
    obtain ⟨s', hs', hr⟩ := Outcome.bind_eq_ok_iff.1 hr
    rw [hs] at hs'
    cases hs'
    rw [he] at hr
    cases hr
  | inside _ ih =>
    obtain ⟨r, hr, -⟩ := Outcome.bind_eq_ok_iff.1 ht
    obtain ⟨s', hs', -⟩ := Outcome.bind_eq_ok_iff.1 hr
    exact ih s' hs'
  | behind _ ih =>
    obtain ⟨r, -, hr⟩ := Outcome.bind_eq_ok_iff.1 ht
    obtain ⟨u, hu, -⟩ := Outcome.map_eq_ok_iff.1 hr
    exact ih u hu
  | char _ ih =>
    obtain ⟨u, hu, -⟩ := Outcome.map_eq_ok_iff.1 ht
    exact ih u hu

/-- The recursion ends with a fault exactly when some group has one. -/
theorem exists_error_flatten_iff (f : Forest) :
    (∃ e, f.flatten scale = .error e) ↔ ∃ e, f.Fails scale e := by
  constructor
  · rintro ⟨e, h⟩
    exact ⟨e, fails_of_flatten h⟩
  · rintro ⟨e, h⟩
    rw [Outcome.exists_error_iff]
    rintro ⟨t, ht⟩
    exact h.flatten_ne_ok t ht

/-! ## The leaves -/

/-- Whether a forest has no groups. -/
def isFlat : Forest → Bool
  | nil => true
  | char _ rest => rest.isFlat
  | group _ _ => false

/-- The number of groups that have no groups inside them. -/
def leaves : Forest → Nat
  | nil => 0
  | char _ rest => rest.leaves
  | group inner rest => (if inner.isFlat then 1 else inner.leaves) + rest.leaves

theorem leaves_append (f g : Forest) : (f ++ g).leaves = f.leaves + g.leaves := by
  induction f with
  | nil => simp [leaves]
  | char c rest ih => simpa [leaves] using ih
  | group inner rest _ ih => simp only [group_append, leaves, ih]; omega

theorem isFlat_iff_leaves {f : Forest} : f.isFlat = true ↔ f.leaves = 0 := by
  induction f with
  | nil => simp [isFlat, leaves]
  | char c rest ih => simpa [isFlat, leaves] using ih
  | group inner rest ih _ =>
    cases h : inner.isFlat with
    | true => simp [isFlat, leaves, h]
    | false =>
      have : inner.leaves ≠ 0 := fun h0 ↦ by rw [ih.2 h0] at h; cases h
      simp [isFlat, leaves, h, this]

theorem flatten_of_isFlat {f : Forest} (h : f.isFlat = true) : f.flatten scale = .ok f.text := by
  induction f with
  | nil => rfl
  | char c rest ih => rw [flatten, ih h]; rfl
  | group inner rest _ _ => cases h

/-- Without groups, a character that a forest lacks is not in its text. -/
theorem Lacks.not_mem {p : Char → Prop} {f : Forest} (h : f.Lacks p) (hflat : f.isFlat = true)
    {c : Char} (hc : p c) : c ∉ f.text := by
  induction f with
  | nil => simp [text]
  | char d rest ih =>
    simp only [text, List.mem_cons, not_or]
    exact ⟨fun hcd ↦ h.1 (hcd ▸ hc), ih h.2 hflat⟩
  | group inner rest _ _ => cases hflat

theorem IsPaired.isBare_text {f : Forest} (h : f.IsPaired) (hflat : f.isFlat = true) :
    IsBare f.text := by
  intro c hc
  cases hp : Group.isParen c with
  | false => rfl
  | true => exact absurd hc (h.not_mem hflat hp)

end Forest
end Nested
end Reckon
