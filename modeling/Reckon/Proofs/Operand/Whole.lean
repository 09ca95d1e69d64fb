import Reckon.Proofs.Pair

/-!
# Operands are taken whole

A numeral of a text is a longest run of digits and points in it (`IsNumeral`).  Not every run is a
number, since nothing says how many points there are or where they stand; here the texts are looked
at in which every numeral is one (`HasWholeNumerals`).

In such a text an operation never takes a part of a number.  The operand in front ends where its
numeral does because of what is in the gap, and it begins where the numeral does because a longer
literal would have been found further left.  The operand behind begins where its numeral does
because of the gap, or of its own sign, and it ends where the numeral does because literals are
taken as long as they get.

Where numerals need not be numbers an operand may well be a part of one: in `1.2.3+4` it is `2.3`.
-/

set_option autoImplicit false

namespace Reckon

/-! ## Numerals -/

namespace Literal

/-- A literal without its sign. -/
def unsigned (l : Literal) : Text := l.whole ++ placesText l.places

/-- Whether a character can be part of a literal that has no sign. -/
def isInner (c : Char) : Bool := c.isDigit || c = '.'

theorem isInner_eq_false_iff {c : Char} : isInner c = false ↔ c.isDigit = false ∧ c ≠ '.' := by
  simp [isInner]

variable {l : Literal}

theorem text_eq (l : Literal) : l.text = signText l.negative ++ l.unsigned := rfl

theorem IsProper.isInner_of_mem_unsigned (h : l.IsProper) : ∀ c ∈ l.unsigned, isInner c = true := by
  intro c hc
  simpa [isInner] using h.mem_unsigned hc

theorem IsProper.unsigned_ne_nil (h : l.IsProper) : l.unsigned ≠ [] := by
  simp [unsigned, h.whole_ne_nil]

end Literal

open Literal

/-- A longest run of digits and points in a text, with the text before it and behind it. -/
structure IsNumeral (s before run after : Text) : Prop where
  append : s = before ++ (run ++ after)
  ne_nil : run ≠ []
  isInner : ∀ c ∈ run, Literal.isInner c = true
  before : ∀ c ∈ before.getLast?, Literal.isInner c = false
  after : ∀ c ∈ after.head?, Literal.isInner c = false

theorem isNumeral_iff {s before run after : Text} :
    IsNumeral s before run after ↔ s = before ++ (run ++ after) ∧ run ≠ [] ∧
      run.all Literal.isInner = true ∧ before.getLast?.any Literal.isInner = false ∧
      after.head?.any Literal.isInner = false := by
  simp only [List.all_eq_true, Option.any_eq_false]
  exact ⟨fun ⟨h₁, h₂, h₃, h₄, h₅⟩ ↦ ⟨h₁, h₂, h₃, h₄, h₅⟩,
    fun ⟨h₁, h₂, h₃, h₄, h₅⟩ ↦ ⟨h₁, h₂, h₃, h₄, h₅⟩⟩

instance (s before run after : Text) : Decidable (IsNumeral s before run after) :=
  decidable_of_iff' _ isNumeral_iff

/-- Every longest run of digits and points is a literal. -/
def HasWholeNumerals (s : Text) : Prop :=
  ∀ before run after, IsNumeral s before run after →
    ∃ l : Literal, l.IsProper ∧ l.negative = false ∧ l.text = run

/-- Whether all numerals of a text are numbers can be found out by trying all its parts. -/
theorem hasWholeNumerals_iff {s : Text} :
    HasWholeNumerals s ↔ ∀ i ∈ List.range (s.length + 1), ∀ j ∈ List.range (s.length + 1),
      IsNumeral s (s.take i) ((s.drop i).take j) ((s.drop i).drop j) →
        ∃ l ∈ ofText? ((s.drop i).take j), l.negative = false := by
  constructor
  · intro hs i _ j _ h
    obtain ⟨l, hl, hnegative, htext⟩ := hs _ _ _ h
    exact ⟨l, ofText?_eq_some_iff.2 ⟨hl, htext⟩, hnegative⟩
  · intro hs before run after h
    have happend := h.append
    have hlength := congrArg List.length happend
    simp only [List.length_append] at hlength
    have hparts : s.take before.length = before ∧ (s.drop before.length).take run.length = run ∧
        (s.drop before.length).drop run.length = after := by
      simp [happend]
    have htry := hs before.length (List.mem_range.2 (by omega)) run.length
      (List.mem_range.2 (by omega))
    rw [hparts.1, hparts.2.1, hparts.2.2] at htry
    obtain ⟨l, hl, hnegative⟩ := htry h
    obtain ⟨hproper, htext⟩ := ofText?_eq_some_iff.1 hl
    exact ⟨l, hproper, hnegative, htext⟩

instance (s : Text) : Decidable (HasWholeNumerals s) := decidable_of_iff' _ hasWholeNumerals_iff

/-- A text ends with a run of digits and points, which may be empty. -/
theorem exists_run_before (s : Text) :
    ∃ x r, s = x ++ r ∧ (∀ c ∈ r, isInner c = true) ∧ ∀ c ∈ x.getLast?, isInner c = false := by
  obtain ⟨r, x, hs, hr, hx⟩ := Text.exists_run isInner s.reverse
  refine ⟨x.reverse, r.reverse, ?_, by simpa using hr, by simpa using hx⟩
  rw [← List.reverse_append, ← hs, List.reverse_reverse]

/-! ## The operands of a pair that is found -/

namespace Pair

variable {sep : Separator} {s : Text} {o : Occurrence Pair}

/-- The literal in front is a whole numeral. -/
theorem isNumeral_left_of_search (hs : HasWholeNumerals s) (h : (pattern sep).search s = some o) :
    IsNumeral s (o.before ++ signText o.found.left.negative) o.found.left.unsigned
      (o.found.gap ++ (o.found.right.text ++ o.after)) := by
  obtain ⟨hleft, hgap, -⟩ := isOf_of_search h
  have happend : s = o.before ++ (o.found.text ++ o.after) := (append_of_search h).symm
  have hafter : ∀ c ∈ (o.found.gap ++ (o.found.right.text ++ o.after)).head?, isInner c = false :=
    fun c hc ↦ isInner_eq_false_iff.2 (hgap.closes _ c hc)
  refine ⟨by simpa [text, text_eq] using happend, hleft.unsigned_ne_nil,
    hleft.isInner_of_mem_unsigned, ?_, hafter⟩
  cases hnegative : o.found.left.negative with
  | true =>
    intro c hc
    rw [signText, if_pos rfl, List.getLast?_concat] at hc
    cases hc
    rfl
  | false =>
    rw [signText, if_neg Bool.false_ne_true, List.append_nil]
    obtain ⟨x, r, hbefore, hr, hx⟩ := exists_run_before o.before
    by_cases hnil : r = []
    · rwa [hbefore, hnil, List.append_nil]
    -- with the characters before it, the literal would be a longer one that is found earlier
    · have hnumeral : IsNumeral s x (r ++ o.found.left.unsigned)
          (o.found.gap ++ (o.found.right.text ++ o.after)) := by
        refine ⟨?_, by simp [hnil], ?_, hx, hafter⟩
        · rw [happend, hbefore]
          simp [text, text_eq, hnegative, signText]
        · exact List.forall_mem_append.2 ⟨hr, hleft.isInner_of_mem_unsigned⟩
      obtain ⟨l, hl, -, hltext⟩ := hs _ _ _ hnumeral
      refine absurd ?_ (text_ne_of_search h hl hbefore hnil)
      rw [hltext, text_eq, hnegative]
      rfl

/-- The literal behind is a whole numeral. -/
theorem isNumeral_right_of_search (hs : HasWholeNumerals s) (h : (pattern sep).search s = some o) :
    IsNumeral s (o.before ++ (o.found.left.text ++ (o.found.gap ++ signText o.found.right.negative)))
      o.found.right.unsigned o.after := by
  obtain ⟨-, hgap, hright⟩ := isOf_of_search h
  have happend : s = o.before ++ (o.found.text ++ o.after) := (append_of_search h).symm
  obtain ⟨r, y, hafter, hr, hy⟩ := Text.exists_run isInner o.after
  have hbefore : ∀ c ∈ (o.before ++ (o.found.left.text ++
      (o.found.gap ++ signText o.found.right.negative))).getLast?, isInner c = false := by
    intro c hc
    cases hnegative : o.found.right.negative with
    | true =>
      rw [hnegative, signText, if_pos rfl, ← List.append_assoc, ← List.append_assoc,
        List.getLast?_concat] at hc
      cases hc
      rfl
    | false =>
      have hne := hgap.ne_nil
      rw [hnegative, signText, if_neg Bool.false_ne_true, List.append_nil, List.getLast?_append,
        List.getLast?_append, List.getLast?_eq_some_getLast hne] at hc
      cases hc
      exact isInner_eq_false_iff.2 (hgap.closes_of_mem _ (List.getLast_mem hne))
  have hnumeral : IsNumeral s (o.before ++ (o.found.left.text ++
      (o.found.gap ++ signText o.found.right.negative))) (o.found.right.unsigned ++ r) y := by
    refine ⟨?_, by simp [hright.unsigned_ne_nil], ?_, hbefore, hy⟩
    · rw [happend, hafter]
      simp [text, text_eq]
    · exact List.forall_mem_append.2 ⟨hright.isInner_of_mem_unsigned, hr⟩
  obtain ⟨l, ⟨hwhole, hdigits, hplaces⟩, hlnegative, hltext⟩ := hs _ _ _ hnumeral
  have hproper : (⟨o.found.right.negative, l.whole, l.places⟩ : Literal).IsProper :=
    ⟨hwhole, hdigits, hplaces⟩
  -- with the sign of the literal, all of its numeral is read
  have hread : Literal.scan? (o.found.right.text ++ o.after) =
      some (⟨o.found.right.negative, l.whole, l.places⟩, y) := by
    have hunsigned : l.unsigned = o.found.right.unsigned ++ r := by
      rw [← hltext, text_eq, hlnegative]
      rfl
    have htext : o.found.right.text ++ o.after =
        (⟨o.found.right.negative, l.whole, l.places⟩ : Literal).text ++ y := by
      rw [text_eq, text_eq]
      change _ = signText o.found.right.negative ++ l.unsigned ++ y
      rw [hunsigned, hafter]
      simp
    rw [htext]
    exact scan?_text_append hproper fun c hc ↦ isInner_eq_false_iff.1 (hy c hc)
  rw [scan?_right_of_search h] at hread
  have hrest : o.after = y := congrArg Prod.snd (Option.some.inj hread)
  have hnil : r = [] := by
    rw [hrest] at hafter
    simpa using hafter
  rwa [hnil, List.append_nil, ← hrest] at hnumeral

/-- The literal in front has a sign just if there is one before its numeral. -/
theorem negative_left_iff_of_search (h : (pattern sep).search s = some o) :
    o.found.left.negative = true ↔
      (o.before ++ signText o.found.left.negative).getLast? = some '-' := by
  cases hnegative : o.found.left.negative with
  | true => simp [signText]
  | false =>
    rw [signText, if_neg Bool.false_ne_true, List.append_nil]
    constructor
    · intro hfalse
      cases hfalse
    · intro hlast
      exact absurd rfl (getLast?_before_of_search h hnegative _ hlast).2

end Pair

/-! ## Operations -/

namespace Flat

/-- **An operation takes whole numbers.**  In a text in which every numeral is a number, an
operation that is possible anywhere finds two literals with its operator between them.  Without
their signs, both are numerals of the text; the one in front has a sign just if a minus sign stands
before its numeral; and there is no place further left at which the operation is possible. -/
theorem search_operation_whole {s : Text} (hs : HasWholeNumerals s) (op : Operator)
    (hpossible : ∃ x y, s = x ++ y ∧ Pair.Begins (.operator op) y) :
    ∃ before left gap right after,
      (operation op).search s = some ⟨before, ⟨left, gap, right⟩, after⟩ ∧
      (⟨left, gap, right⟩ : Pair).IsOf (.operator op) ∧
      IsNumeral s (before ++ signText left.negative) left.unsigned
        (gap ++ (right.text ++ after)) ∧
      IsNumeral s (before ++ (left.text ++ (gap ++ signText right.negative))) right.unsigned after ∧
      (left.negative = true ↔ (before ++ signText left.negative).getLast? = some '-') ∧
      ∀ x y, s = x ++ y → x.length < before.length → ¬ Pair.Begins (.operator op) y := by
  obtain ⟨x, y, rfl, hbegins⟩ := hpossible
  obtain ⟨o, ho⟩ := @Pair.exists_search (.operator op) x y hbegins
  exact ⟨o.before, o.found.left, o.found.gap, o.found.right, o.after, ho, Pair.isOf_of_search ho,
    Pair.isNumeral_left_of_search hs ho, Pair.isNumeral_right_of_search hs ho,
    Pair.negative_left_iff_of_search ho, fun _ _ ↦ Pair.not_begins_of_search ho⟩

/-- The second of three minus signs belongs to the operand in front. -/
theorem search_operation_whole_signs :
    HasWholeNumerals "7--1.5+-22".toList ∧
      (∃ x y, "7--1.5+-22".toList = x ++ y ∧ Pair.Begins (.operator .plus) y) ∧
      IsNumeral "7--1.5+-22".toList "7--".toList "1.5".toList "+-22".toList ∧
      IsNumeral "7--1.5+-22".toList "7--1.5+-".toList "22".toList [] := by
  have hwhole : HasWholeNumerals "7--1.5+-22".toList := by decide +kernel
  have hsearch : (operation .plus).search "7--1.5+-22".toList =
      some ⟨"7-".toList, ⟨⟨true, ['1'], ['5']⟩, ['+'], ⟨true, ['2', '2'], []⟩⟩, []⟩ := by rfl
  have hpossible : ∃ x y, "7--1.5+-22".toList = x ++ y ∧ Pair.Begins (.operator .plus) y :=
    ⟨_, _, (Pair.append_of_search hsearch).symm, _, Pair.isOf_of_search hsearch,
      List.prefix_append _ _⟩
  obtain ⟨before, left, gap, right, after, hfound, -, hleft, hright, -⟩ :=
    search_operation_whole hwhole .plus hpossible
  rw [hsearch] at hfound
  cases hfound
  exact ⟨hwhole, hpossible, hleft, hright⟩

end Flat
end Reckon
