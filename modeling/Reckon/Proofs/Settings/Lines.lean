import Mathlib.Tactic.Common
import Reckon.Proofs.Json.Layout
import Reckon.Settings.Store

/-!
# How the lines of a settings file end

When a file is read, its lines are ended in one way.  Cutting a text where its lines are ended in
one way cuts the text itself (`exists_append_of_unifyLines`), and putting parts of it together again
makes no difference unless two halves of a line end meet (`unifyLines_append`).

For a document the ends of lines are of no account.  They can only be white space, for there is no
control character in a lexeme (`Json.Lexeme.le_toNat`).  So a text is a document just if it is
one with its lines ended in one way (`Json.document_unifyLines_iff`), and what the one comes to the
other comes to as well (`Json.comesTo_unifyLines_iff`).
-/

set_option autoImplicit false

namespace Reckon
namespace Settings

variable {s a b u : Text}

/-! ## Texts with their lines ended in one way -/

theorem unifyLines_cons {c : Char} (h : c = '\r' → s.head? ≠ some '\n') :
    unifyLines (c :: s) = (if c = '\r' then '\n' else c) :: unifyLines s := by
  rw [unifyLines]
  rintro t rfl rfl
  exact h rfl rfl

theorem unifyLines_eq_self (h : '\r' ∉ s) : unifyLines s = s := by
  induction s with
  | nil => rfl
  | cons c s ih =>
    rw [List.mem_cons, not_or] at h
    rw [unifyLines_cons fun hc ↦ absurd hc.symm h.1, if_neg (Ne.symm h.1), ih h.2]

/-- Every line end is a line feed in the end. -/
theorem carriageReturn_notMem (h : '\n' ∉ unifyLines s) : '\r' ∉ s := by
  fun_induction unifyLines s with
  | case1 => simp
  | case2 s ih => simp at h
  | case3 c s _ ih =>
    rw [List.mem_cons, not_or] at h ⊢
    refine ⟨?_, ih h.2⟩
    rintro rfl
    exact h.1 rfl

theorem eq_of_unifyLines_eq (h : unifyLines s = u) (hu : '\n' ∉ u) : s = u := by
  rw [← h] at hu
  rw [← h, unifyLines_eq_self (carriageReturn_notMem hu)]

theorem unifyLines_append (h : a.getLast? = some '\r' → b.head? ≠ some '\n') :
    unifyLines (a ++ b) = unifyLines a ++ unifyLines b := by
  fun_induction unifyLines a with
  | case1 => rfl
  | case2 a ih =>
    rw [List.cons_append, List.cons_append, unifyLines, List.cons_append, ih]
    intro hlast
    exact h (by simp [List.getLast?_cons, hlast])
  | case3 c a hc ih =>
    have hlast : a.getLast? = some '\r' → b.head? ≠ some '\n' := fun hlast ↦
      h (by simp [List.getLast?_cons, hlast])
    rw [List.cons_append, unifyLines_cons, ih hlast, List.cons_append]
    rintro rfl
    cases a with
    | nil => exact h rfl
    | cons d a =>
      rintro hhead
      cases hhead
      exact hc a rfl rfl

/-- Where a text is cut when its lines are ended in one way, it can be cut before that. -/
theorem exists_append_of_unifyLines (h : unifyLines s = a ++ b) :
    ∃ a' b', s = a' ++ b' ∧ unifyLines a' = a ∧ unifyLines b' = b := by
  fun_induction unifyLines s generalizing a with
  | case1 =>
    obtain ⟨rfl, rfl⟩ := List.append_eq_nil_iff.1 h.symm
    exact ⟨[], [], rfl, rfl, rfl⟩
  | case2 s ih =>
    cases a with
    | nil => exact ⟨[], '\r' :: '\n' :: s, rfl, rfl, h⟩
    | cons d a =>
      obtain ⟨hd, htail⟩ := List.cons.inj h
      obtain ⟨a', b', rfl, ha, hb⟩ := ih htail
      exact ⟨'\r' :: '\n' :: a', b', rfl, by rw [unifyLines, ha, hd], hb⟩
  | case3 c s hc ih =>
    have hhead : c = '\r' → s.head? ≠ some '\n' := by
      rintro rfl hs
      obtain ⟨t, rfl⟩ := List.head?_eq_some_iff.1 hs
      exact hc t rfl rfl
    cases a with
    | nil => exact ⟨[], c :: s, rfl, rfl, (unifyLines_cons hhead).trans h⟩
    | cons d a =>
      obtain ⟨hd, htail⟩ := List.cons.inj h
      obtain ⟨a', b', rfl, ha, hb⟩ := ih htail
      refine ⟨c :: a', b', rfl, ?_, hb⟩
      rw [unifyLines_cons, ha, hd]
      intro hc' ha'
      exact hhead hc' (by rw [List.head?_append, ha']; rfl)

/-- Without a line feed in it, a part of a text that is unchanged was there before. -/
theorem exists_append_of_unifyLines_eq (h : unifyLines s = u ++ b) (hu : '\n' ∉ u) :
    ∃ b', s = u ++ b' ∧ unifyLines b' = b := by
  obtain ⟨u', b', rfl, hu', hb'⟩ := exists_append_of_unifyLines h
  cases eq_of_unifyLines_eq hu' hu
  exact ⟨b', rfl, hb'⟩

theorem unifyLines_append_of_notMem (hu : '\r' ∉ u) : unifyLines (u ++ b) = u ++ unifyLines b := by
  rw [unifyLines_append, unifyLines_eq_self hu]
  intro hlast
  exact absurd (List.mem_of_getLast? hlast) hu

end Settings

/-! ## Lexemes and gaps -/

namespace Json

open Settings

variable {s u : Text} {t : Token} {ts : List Token} {points : List Point} {v : Json}

theorem le_toNat_of_isDigit {c : Char} (h : c.isDigit = true) : 0x20 ≤ c.toNat := by
  simp only [Char.isDigit, Bool.and_eq_true, decide_eq_true_eq, UInt32.le_iff_toNat_le] at h
  exact Nat.le_trans (by decide) h.1

theorem le_toNat_of_powerLetter {c : Char} (h : c = 'e' ∨ c = 'E') : 0x20 ≤ c.toNat := by
  rcases h with rfl | rfl <;> decide

theorem le_toNat_of_sign {c : Char} (h : c = '+' ∨ c = '-') : 0x20 ≤ c.toNat := by
  rcases h with rfl | rfl <;> decide

theorem IsHexDigit.le_toNat {c : Char} {n : Nat} (h : IsHexDigit c n) : 0x20 ≤ c.toNat := by
  have hall :
      ∀ n < 16, 0x20 ≤ (Nat.digitChar n).toNat ∧ 0x20 ≤ (Nat.digitChar n).toUpper.toNat := by
    decide
  obtain ⟨hn, rfl | rfl⟩ := h
  · exact (hall n hn).1
  · exact (hall n hn).2

theorem IsHexUnit.le_toNat {a b c d : Char} {n : Nat} (h : IsHexUnit a b c d n) :
    ∀ e ∈ [a, b, c, d], 0x20 ≤ e.toNat := by
  obtain ⟨_, _, _, _, ha, hb, hc, hd, -⟩ := h
  simp only [List.forall_mem_cons]
  exact ⟨ha.le_toNat, hb.le_toNat, hc.le_toNat, hd.le_toNat, by simp⟩

theorem ShortEscape.le_toNat {c e : Char} (h : ShortEscape c e) : 0x20 ≤ c.toNat := by
  cases h <;> decide

/-- A control character has to be escaped in a string. -/
theorem Inside.le_toNat (h : Inside s points) : ∀ c ∈ s, 0x20 ≤ c.toNat := by
  induction h with
  | nil => simp
  | plain _ _ hcontrol _ ih => exact List.forall_mem_cons.2 ⟨hcontrol, ih⟩
  | short h _ ih =>
    simp only [List.forall_mem_cons]
    exact ⟨by decide, h.le_toNat, ih⟩
  | unit h _ ih | half h _ _ ih =>
    have hunit := h.le_toNat
    simp only [List.forall_mem_cons] at hunit ⊢
    exact ⟨by decide, by decide, hunit.1, hunit.2.1, hunit.2.2.1, hunit.2.2.2.1, ih⟩
  | pair hfirst hsecond _ _ _ _ ih =>
    have hhigh := hfirst.le_toNat
    have hlow := hsecond.le_toNat
    simp only [List.forall_mem_cons] at hhigh hlow ⊢
    exact ⟨by decide, by decide, hhigh.1, hhigh.2.1, hhigh.2.2.1, hhigh.2.2.2.1, by decide,
      by decide, hlow.1, hlow.2.1, hlow.2.2.1, hlow.2.2.2.1, ih⟩

theorem IsDigits.le_toNat (h : IsDigits s) : ∀ c ∈ s, 0x20 ≤ c.toNat :=
  fun c hc ↦ le_toNat_of_isDigit (h.isDigit c hc)

theorem IsPlaces.le_toNat {fraction : Rat} (h : IsPlaces s fraction) : ∀ c ∈ s, 0x20 ≤ c.toNat := by
  cases h with
  | none => simp
  | some hdigits => exact List.forall_mem_cons.2 ⟨by decide, hdigits.le_toNat⟩

theorem IsPower.le_toNat {e : Int} (h : IsPower s e) : ∀ c ∈ s, 0x20 ≤ c.toNat := by
  cases h with
  | none => simp
  | unsigned hc hdigits =>
    exact List.forall_mem_cons.2 ⟨le_toNat_of_powerLetter hc, hdigits.le_toNat⟩
  | plus hc hdigits | minus hc hdigits =>
    simp only [List.forall_mem_cons]
    exact ⟨le_toNat_of_powerLetter hc, by decide, hdigits.le_toNat⟩

/-- There is no control character in a lexeme. -/
theorem Lexeme.le_toNat (h : Lexeme u t) : ∀ c ∈ u, 0x20 ≤ c.toNat := by
  have hsign : ∀ negative, ∀ c ∈ Literal.signText negative, 0x20 ≤ c.toNat := by
    intro negative
    cases negative <;> simp [Literal.signText]
  cases h with
  | openArray | closeArray | openObject | closeObject | colon | comma => simp
  | keyword hkeyword => cases hkeyword <;> simp
  | string hinside =>
    simp only [List.forall_mem_cons, List.forall_mem_append]
    exact ⟨by decide, hinside.le_toNat, by decide, by simp⟩
  | integer negative hwhole _ | overlong negative hwhole _ =>
    exact List.forall_mem_append.2 ⟨hsign negative, hwhole.le_toNat⟩
  | float negative hwhole hplaces hpower _ _ =>
    simp only [List.forall_mem_append]
    exact ⟨hsign negative, hwhole.le_toNat, hplaces.le_toNat, hpower.le_toNat⟩

theorem Lexeme.lineFeed_notMem (h : Lexeme u t) : '\n' ∉ u :=
  fun hmem ↦ absurd (h.le_toNat _ hmem) (by decide)

/-- A lexeme stays as it is, and what is before it and behind it changes by itself. -/
theorem Lexeme.unifyLines_append (h : Lexeme u t) (a b : Text) :
    unifyLines (a ++ (u ++ b)) = unifyLines a ++ (u ++ unifyLines b) := by
  have hreturn : '\r' ∉ u := fun hmem ↦ absurd (h.le_toNat _ hmem) (by decide)
  rw [Settings.unifyLines_append, unifyLines_append_of_notMem hreturn]
  obtain ⟨c, s, rfl, hc⟩ := h.exists_cons
  rintro - hhead
  cases hhead
  cases hc

theorem isGap_unifyLines_iff : IsGap (unifyLines s) ↔ IsGap s := by
  simp only [IsGap]
  fun_induction unifyLines s with
  | case1 => rfl
  | case2 s ih =>
    simp only [List.forall_mem_cons, ih]
    exact ⟨fun h ↦ ⟨by decide, h⟩, fun h ↦ h.2⟩
  | case3 c s _ ih =>
    simp only [List.forall_mem_cons, ih]
    refine and_congr_left fun _ ↦ ?_
    split
    · next hc => simp [hc]
    · rfl

/-! ## Documents -/

theorem layout_unifyLines_iff : Layout (unifyLines s) ts ↔ Layout s ts := by
  constructor
  · intro h
    generalize hs : unifyLines s = s' at h
    induction h generalizing s with
    | nil hgap => exact .nil (isGap_unifyLines_iff.1 (hs ▸ hgap))
    | cons hgap hlexeme hlayout ih =>
      obtain ⟨gap', r, rfl, rfl, hr⟩ := exists_append_of_unifyLines hs
      obtain ⟨s', rfl, hs'⟩ := exists_append_of_unifyLines_eq hr hlexeme.lineFeed_notMem
      exact .cons (isGap_unifyLines_iff.1 hgap) hlexeme (ih hs')
  · intro h
    induction h with
    | nil hgap => exact .nil (isGap_unifyLines_iff.2 hgap)
    | cons hgap hlexeme _ ih =>
      rw [hlexeme.unifyLines_append]
      exact .cons (isGap_unifyLines_iff.2 hgap) hlexeme ih

/-- A text is a document just if it is one with its lines ended in one way. -/
theorem document_unifyLines_iff : Document (unifyLines s) v ↔ Document s v :=
  exists_congr fun _ ↦ and_congr_left fun _ ↦ layout_unifyLines_iff

/-- What a number goes on with has no control character in it, and it makes no difference what is
behind it. -/
theorem ContinuesNumber.exists_append (h : ContinuesNumber s) :
    ∃ u b, s = u ++ b ∧ (∀ c ∈ u, 0x20 ≤ c.toNat) ∧ ∀ b', ContinuesNumber (u ++ b') := by
  cases h with
  | @digit c b hc =>
    exact ⟨[c], b, rfl, by simpa using le_toNat_of_isDigit hc, fun _ ↦ .digit hc⟩
  | @places c b hc =>
    exact ⟨['.', c], b, rfl, by simpa using le_toNat_of_isDigit hc, fun _ ↦ .places hc⟩
  | @power e c b he hc =>
    have hchars := And.intro (le_toNat_of_powerLetter he) (le_toNat_of_isDigit hc)
    exact ⟨[e, c], b, rfl, by simpa using hchars, fun _ ↦ .power he hc⟩
  | @signedPower e sign c b he hs hc =>
    have hchars := And.intro (le_toNat_of_powerLetter he)
      (And.intro (le_toNat_of_sign hs) (le_toNat_of_isDigit hc))
    exact ⟨[e, sign, c], b, rfl, by simpa using hchars, fun _ ↦ .signedPower he hs hc⟩

theorem continuesNumber_unifyLines_iff :
    ContinuesNumber (unifyLines s) ↔ ContinuesNumber s := by
  constructor
  · intro h
    obtain ⟨u, b, hs, hu, hcontinues⟩ := h.exists_append
    obtain ⟨b', rfl, -⟩ := exists_append_of_unifyLines_eq hs fun hmem ↦
      absurd (hu _ hmem) (by decide)
    exact hcontinues b'
  · intro h
    obtain ⟨u, b, rfl, hu, hcontinues⟩ := h.exists_append
    rw [unifyLines_append_of_notMem fun hmem ↦ absurd (hu _ hmem) (by decide)]
    exact hcontinues _

/-- A text comes to a token just if it does with its lines ended in one way. -/
theorem comesTo_unifyLines_iff : ComesTo (unifyLines s) ts t ↔ ComesTo s ts t := by
  constructor
  · rintro ⟨front, u, rest, us, v, hs, hlayout, hderives, hlexeme, hends⟩
    obtain ⟨front', tail, rfl, rfl, htail⟩ := exists_append_of_unifyLines hs
    obtain ⟨rest', rfl, rfl⟩ := exists_append_of_unifyLines_eq htail hlexeme.lineFeed_notMem
    rw [layout_unifyLines_iff] at hlayout
    rw [continuesNumber_unifyLines_iff] at hends
    exact ⟨front', u, rest', us, v, rfl, hlayout, hderives, hlexeme, hends⟩
  · rintro ⟨front, u, rest, us, v, rfl, hlayout, hderives, hlexeme, hends⟩
    rw [← layout_unifyLines_iff] at hlayout
    rw [← continuesNumber_unifyLines_iff] at hends
    exact ⟨_, u, _, us, v, hlexeme.unifyLines_append front rest, hlayout, hderives, hlexeme, hends⟩

theorem meetsOverlong_unifyLines_iff {n : Nat} :
    MeetsOverlong (unifyLines s) n ↔ MeetsOverlong s n :=
  exists_congr fun _ ↦ comesTo_unifyLines_iff

theorem meetsTooDeep_unifyLines_iff {limit : Nat} {c : Container} :
    MeetsTooDeep limit (unifyLines s) c ↔ MeetsTooDeep limit s c :=
  exists_congr fun _ ↦ and_congr_left fun _ ↦ comesTo_unifyLines_iff

end Json
end Reckon
