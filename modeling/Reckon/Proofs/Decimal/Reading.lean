import Reckon.Decimal.Reader
import Reckon.Proofs.Decimal.Exact
import Reckon.Proofs.Row.Scan

/-!
# Every literal is read as a decimal

The operands of an expression are captured as literals, and a literal has its value by itself.  A
reader of decimals that is handed the text of a literal, and knows of signs, points and exponents
besides, comes to that value too (`Decimal.ofText?_text`): it takes the same digits for the same
places, and there is nothing left that could be an exponent, or be wrong.

Results are put back into an expression in plain notation, and every later step reads them from
there.  Nothing is lost on the way (`Decimal.reread_plain`): plain notation is one literal, and what
is read from it is the decimal itself as long as its exponent is not positive.  The places say what
the exponent was, and zeros that stand for nothing in the number are still there to be counted.
-/

set_option autoImplicit false

namespace Reckon
namespace Decimal

theorem splitSign_of_digit {s : Text} (hs : ∀ c ∈ s.head?, c.isDigit = true) :
    splitSign s = (false, s) := by
  unfold splitSign
  split
  · next t =>
    have := hs '-' rfl
    cases this
  · next t =>
    have := hs '+' rfl
    cases this
  · rfl

theorem splitPlaces_placesText {s : Text} (hs : ∀ c ∈ s, c.isDigit = true) :
    splitPlaces (Literal.placesText s) = (s, []) := by
  cases s with
  | nil => rfl
  | cons c s =>
    have htake := Literal.takeWhile_digits (s := []) hs (by simp)
    have hdrop := Literal.dropWhile_digits (s := []) hs (by simp)
    rw [List.append_nil] at htake hdrop
    simp only [Literal.placesText, splitPlaces, htake, hdrop]

/-- A reader of decimals takes a literal for its value. -/
theorem ofText?_text {l : Literal} (hl : l.IsProper) : ofText? l.text = some l.value := by
  have hhead : ∀ c ∈ (Literal.placesText l.places).head?, c.isDigit = false := by
    have := @Literal.isDigit_head_placesText l.places [] Literal.closes_nil
    rwa [List.append_nil] at this
  have hsign : splitSign l.text = (l.negative, l.whole ++ Literal.placesText l.places) := by
    cases hn : l.negative with
    | true =>
      rw [Literal.text, hn]
      rfl
    | false =>
      obtain ⟨c, whole, hwhole⟩ := List.exists_cons_of_ne_nil hl.whole_ne_nil
      rw [Literal.text, hn]
      refine splitSign_of_digit fun d hd ↦ hl.isDigit_whole d ?_
      rw [hwhole] at hd ⊢
      cases hd
      exact List.mem_cons_self
  have hwhole : l.whole.isEmpty = false := by simpa using hl.whole_ne_nil
  simp only [ofText?, hsign, Literal.takeWhile_digits hl.isDigit_whole hhead,
    Literal.dropWhile_digits hl.isDigit_whole hhead, splitPlaces_placesText hl.isDigit_places,
    hwhole, Bool.false_and, Bool.false_eq_true, if_false, exponent?, Option.map_some,
    Literal.value, Int.zero_sub]

/-- The literals of a pair that an operator makes are read as their values. -/
theorem ofText?_of_search {op : Operator} {s : Text} {o : Occurrence Pair}
    (h : (Flat.operation op).search s = some o) :
    ofText? o.found.left.text = some o.found.left.value ∧
      ofText? o.found.right.text = some o.found.right.value := by
  obtain ⟨hleft, hright, -⟩ := Flat.exists_of_search_operation h
  exact ⟨ofText?_text hleft, ofText?_text hright⟩

/-- So is a text that is one literal as a whole. -/
theorem ofText?_of_literal {s : Text} {l : Literal} (h : Literal.ofText? s = some l) :
    ofText? s = some l.value := by
  obtain ⟨hl, rfl⟩ := Literal.ofText?_eq_some_iff.1 h
  exact ofText?_text hl

/-- **What is written in plain notation is read again without loss.**  The plain notation of a
decimal is one literal and nothing more.  The decimal that is read from it is the same number with
the same sign, and if the exponent was not positive, it has the same coefficient and exponent
too. -/
theorem reread_plain (d : Decimal) :
    ∃ (l : Literal) (e : Decimal),
      l.IsProper ∧ l.text = d.plain ∧ Literal.ofText? d.plain = some l ∧
      ofText? d.plain = some e ∧ e.toRat = d.toRat ∧ e.negative = d.negative ∧
      (d.exponent ≤ 0 → e.coefficient = d.coefficient ∧ e.exponent = d.exponent) := by
  have hproper := d.isProper_toLiteral
  have hread : ofText? d.plain = some d.expanded := by
    rw [← value_toLiteral]
    exact ofText?_text hproper
  refine ⟨d.toLiteral, d.expanded, hproper, rfl, Literal.ofText?_text hproper, hread,
    d.toRat_expanded, d.negative_expanded, fun hexponent ↦ ?_⟩
  rw [expanded_of_nonpos hexponent]
  exact ⟨rfl, rfl⟩

/-- A negative zero with three places keeps its sign and its places. -/
theorem reread_plain_negative_zero :
    plain ⟨true, 0, -3⟩ = "-0.000".toList ∧ (-3 : Int) ≤ 0 ∧
      ∃ e, ofText? "-0.000".toList = some e ∧ e.negative = true ∧ e.coefficient = 0 ∧
        e.exponent = -3 := by
  have htext : plain ⟨true, 0, -3⟩ = "-0.000".toList := by decide
  obtain ⟨l, e, -, -, -, hread, -, hnegative, hsame⟩ := reread_plain ⟨true, 0, -3⟩
  rw [htext] at hread
  exact ⟨htext, by decide, e, hread, hnegative, hsame (by decide)⟩

example : plain ⟨true, 0, 5⟩ = "-0".toList ∧ plain ⟨false, 12, 3⟩ = "12000".toList := by decide

end Decimal
end Reckon
