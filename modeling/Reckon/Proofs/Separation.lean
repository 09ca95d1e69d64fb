import Reckon.Proofs.Faults
import Reckon.Proofs.Pair

/-!
# Which texts are rejected for what stands between two numbers

The check looks for three kinds of pairs one after the other, each with literals that may have a
sign and a point.  All that matters in the end is a digit, a gap that must not be there, and the
next digit with or without a minus sign before it (`IsBadlySeparated`); the rest of the numbers may
be as malformed as it likes.

The block that is reported is the leftmost one of the first kind that occurs, and not the leftmost
one of any kind.  So what can be said about it for all texts is where it begins and ends: it is two
literals and a bad gap, it takes all digits of the second literal, and it does not begin inside the
first one, nor behind its minus sign (`IsBadBlock`).
-/

set_option autoImplicit false

namespace Reckon
namespace Flat

/-- A gap that must not be between two numbers: one character that has no place in arithmetic among
any blanks, and a blank may be that character itself; or a percent sign with a blank on at least one
of its sides. -/
inductive IsBadGap : Text → Prop
  | foreign {left right : Text} {c : Char} (hleft : ∀ d ∈ left, Text.isBlank d = true)
      (hdigit : c.isDigit = false) (hmark : c ∉ ['+', '-', '*', '/', '.', '%'])
      (hright : ∀ d ∈ right, Text.isBlank d = true) : IsBadGap (left ++ c :: right)
  | percent {left right : Text} (hleft : ∀ d ∈ left, Text.isBlank d = true)
      (hright : ∀ d ∈ right, Text.isBlank d = true) (hspaced : left ≠ [] ∨ right ≠ []) :
      IsBadGap (left ++ '%' :: right)

/-- Somewhere in a text there is a digit, and behind a bad gap the next one, which may have a minus
sign. -/
def IsBadlySeparated (s : Text) : Prop :=
  ∃ before gap after : Text, ∃ d e : Char, ∃ negative : Bool,
    s = before ++ d :: (gap ++ (Literal.signText negative ++ e :: after)) ∧
      d.isDigit = true ∧ IsBadGap gap ∧ e.isDigit = true

/-- A part of a text that is reported as badly separated. -/
def IsBadBlock (s block : Text) : Prop :=
  ∃ (before after gap : Text) (left right : Literal),
    s = before ++ (block ++ after) ∧ block = left.text ++ (gap ++ right.text) ∧
      left.IsProper ∧ IsBadGap gap ∧ right.IsProper ∧
      (∀ c ∈ after.head?, c.isDigit = false) ∧
      ((∃ c ∈ block.head?, c.isDigit = true) →
        ∀ c ∈ before.getLast?, c.isDigit = false ∧ c ≠ '-')

/-! ## Gaps and kinds of pairs -/

variable {s gap block : Text}

theorem isForeign_iff {c : Char} :
    Separator.isForeign c = true ↔ c.isDigit = false ∧ c ∉ ['+', '-', '*', '/', '.', '%'] := by
  simp only [Separator.isForeign, Bool.not_eq_true', Bool.or_eq_false_iff, decide_eq_false_iff_not,
    List.mem_cons, List.not_mem_nil, or_false]
  tauto

/-- The gaps that must not be are those of the pairs that are looked for. -/
theorem isBadGap_iff : IsBadGap gap ↔ ∃ sep ∈ badSeparators, sep.Fills gap := by
  constructor
  · intro h
    cases h with
    | foreign hleft hdigit hmark hright =>
      have hc := isForeign_iff.2 ⟨hdigit, hmark⟩
      exact ⟨.foreign, by simp [badSeparators], .foreign hleft hc hright⟩
    | percent hleft hright hspaced =>
      exact ⟨.spacedPercent, by simp [badSeparators], .spacedPercent hleft hright hspaced⟩
  · rintro ⟨sep, hsep, hfills⟩
    cases hfills with
    | blanks hne hblank =>
      obtain ⟨c, t, rfl⟩ := List.exists_cons_of_ne_nil hne
      rw [List.forall_mem_cons] at hblank
      obtain ⟨hdigit, hmark⟩ := isForeign_iff.1 (Separator.isForeign_of_isBlank hblank.1)
      exact @IsBadGap.foreign [] t c (by simp) hdigit hmark hblank.2
    | foreign hleft hc hright =>
      obtain ⟨hdigit, hmark⟩ := isForeign_iff.1 hc
      exact .foreign hleft hdigit hmark hright
    | spacedPercent hleft hright hspaced => exact .percent hleft hright hspaced
    | operator op _ _ => simp [badSeparators] at hsep

/-- A text is badly separated just if one of the pairs that are looked for begins in it. -/
theorem isBadlySeparated_iff :
    IsBadlySeparated s ↔ ∃ sep ∈ badSeparators, ∃ x y, s = x ++ y ∧ Pair.Begins sep y := by
  constructor
  · rintro ⟨before, gap, after, d, e, negative, rfl, hd, hgap, he⟩
    obtain ⟨sep, hsep, hfills⟩ := isBadGap_iff.1 hgap
    -- the two digits by themselves are literals
    have hleft : (⟨false, [d], []⟩ : Literal).IsProper := ⟨by simp, by simpa using hd, by simp⟩
    have hright : (⟨negative, [e], []⟩ : Literal).IsProper := ⟨by simp, by simpa using he, by simp⟩
    refine ⟨sep, hsep, before, _, rfl, ⟨_, gap, _⟩, ⟨hleft, hfills, hright⟩, after, ?_⟩
    simp [Pair.text, Literal.text, Literal.signText, Literal.placesText]
  · rintro ⟨sep, hsep, x, _, rfl, p, ⟨hleft, hfills, hright⟩, after, rfl⟩
    obtain ⟨u, d, hu, hd⟩ := hleft.exists_concat
    obtain ⟨e, v, hv, he⟩ := hright.exists_cons
    refine ⟨x ++ u, p.gap, v ++ after, d, e, p.right.negative, ?_, hd,
      isBadGap_iff.2 ⟨sep, hsep, hfills⟩, he⟩
    simp [Pair.text, hu, hv]

/-! ## The check -/

theorem badBlock?_isSome_iff : (badBlock? s).isSome = true ↔ IsBadlySeparated s := by
  rw [isBadlySeparated_iff, badBlock?, List.findSome?_isSome_iff]
  refine exists_congr fun sep ↦ and_congr_right fun _ ↦ ?_
  rw [Option.isSome_map]
  constructor
  · intro h
    obtain ⟨o, ho⟩ := Option.isSome_iff_exists.1 h
    exact ⟨o.before, _, (Pair.append_of_search ho).symm, o.found, Pair.isOf_of_search ho,
      List.prefix_append _ _⟩
  · rintro ⟨x, y, rfl, hbegins⟩
    obtain ⟨o, ho⟩ := @Pair.exists_search sep x y hbegins
    rw [ho]
    rfl

/-- What is reported begins and ends where it should. -/
theorem isBadBlock_of_badBlock? (h : badBlock? s = some block) : IsBadBlock s block := by
  obtain ⟨sep, hsep, h⟩ := List.exists_of_findSome?_eq_some h
  obtain ⟨o, ho, rfl⟩ := Option.map_eq_some_iff.1 h
  obtain ⟨hleft, hfills, hright⟩ := Pair.isOf_of_search ho
  refine ⟨o.before, o.after, o.found.gap, o.found.left, o.found.right,
    (Pair.append_of_search ho).symm, rfl, hleft, isBadGap_iff.2 ⟨sep, hsep, hfills⟩, hright,
    Pair.isDigit_head_after_of_search ho, ?_⟩
  rintro ⟨c, hc, hdigit⟩
  refine Pair.getLast?_before_of_search ho (Bool.eq_false_iff.2 fun hnegative ↦ ?_)
  rw [Pair.text, Literal.text, hnegative] at hc
  cases hc
  cases hdigit

/-- **A text is rejected just if two of its numbers are badly separated.**  It is accepted if they
are not.  What is reported is a part of the text that begins and ends with a literal, with a bad gap
between the two; no digit follows it, and if it begins with a digit, then neither a digit nor a
minus sign stands before it. -/
theorem check_separation (s : Text) :
    (check s = .ok () ↔ ¬ IsBadlySeparated s) ∧
      ((∃ e, check s = .error e) ↔ IsBadlySeparated s) ∧
      ∀ e, check s = .error e → ∃ block, e = .badBlock block s ∧ IsBadBlock s block := by
  have hiff := @badBlock?_isSome_iff s
  cases hblock : badBlock? s with
  | none =>
    have hcheck : check s = .ok () := by rw [check, hblock]
    simpa [hblock, hcheck] using hiff
  | some block =>
    have hcheck : check s = .error (.badBlock block s) := by rw [check, hblock]
    have hbad : IsBadlySeparated s := hiff.1 (by rw [hblock]; rfl)
    refine ⟨by simp [hcheck, hbad], by simp [hcheck, hbad], fun e he ↦ ?_⟩
    rw [hcheck] at he
    cases he
    exact ⟨block, rfl, isBadBlock_of_badBlock? hblock⟩

/-- The sign before `3.5` belongs to the block, also where it could be a difference. -/
theorem check_separation_ampersand :
    check "7-3.5 &\t-2.25".toList =
        .error (.badBlock "-3.5 &\t-2.25".toList "7-3.5 &\t-2.25".toList) ∧
      IsBadlySeparated "7-3.5 &\t-2.25".toList ∧
      IsBadBlock "7-3.5 &\t-2.25".toList "-3.5 &\t-2.25".toList := by
  have hcheck : check "7-3.5 &\t-2.25".toList =
      .error (.badBlock "-3.5 &\t-2.25".toList "7-3.5 &\t-2.25".toList) := by decide
  obtain ⟨-, hrejected, hreported⟩ := check_separation "7-3.5 &\t-2.25".toList
  obtain ⟨block, heq, hblock⟩ := hreported _ hcheck
  cases heq
  exact ⟨hcheck, hrejected.1 ⟨_, hcheck⟩, hblock⟩

end Flat
end Reckon
