import Mathlib.Data.List.Induction
import Mathlib.Tactic.FieldSimp
import Reckon.Binary64.Shortest
import Reckon.Proofs.Json.Grammar
import Reckon.Proofs.Row.Scan

/-!
# The numbers that lexemes write

A number with places or a power of ten is handed on as a text, to be read as a decimal and then as
the binary number that this decimal means.  Neither can fail: whatever has the parts of a number is
a decimal of the value that the parts have together (`exists_decimal_ofText?`), and so the token of
the number is the binary number nearest to that value (`exists_rounds_floatToken`).
-/

set_option autoImplicit false

namespace Reckon
namespace Json

/-! ## Digits -/

section

variable {s t : Text}

theorem IsDigits.takeWhile_append (h : IsDigits t) (hs : ∀ c ∈ s.head?, c.isDigit = false) :
    (t ++ s).takeWhile Char.isDigit = t :=
  Literal.takeWhile_digits h.isDigit hs

theorem IsDigits.dropWhile_append (h : IsDigits t) (hs : ∀ c ∈ s.head?, c.isDigit = false) :
    (t ++ s).dropWhile Char.isDigit = s :=
  Literal.dropWhile_digits h.isDigit hs

/-- Digits that follow others move these by as many places. -/
theorem digitsValue_append (s t : Text) :
    digitsValue (s ++ t) = digitsValue s * 10 ^ t.length + digitsValue t := by
  rw [digitsValue, List.reverse_append, List.map_append, Nat.ofDigits_append, List.length_map,
    List.length_reverse]
  simp only [digitsValue]
  ring

/-- Digits are read as the number that they write. -/
theorem ofDigits_eq_digitsValue (s : Text) : Numeral.ofDigits s = digitsValue s := by
  induction s using List.reverseRecOn with
  | nil => rfl
  | append_singleton s c ih =>
    have hlast : digitsValue [c] = c.toNat - '0'.toNat := by simp [digitsValue]
    rw [digitsValue_append, ← ih, hlast, Numeral.ofDigits, Nat.ofDigitChars_append,
      Nat.ofDigitChars_cons, Numeral.ofDigits]
    simp [Nat.ofDigitChars, mul_comm]

end

/-! ## The parts of a number -/

variable {whole places power : Text} {fraction : Rat} {e : Int}

theorem IsPower.eq_nil_or (h : IsPower power e) :
    power = [] ∨ ∃ c r, (c = 'e' ∨ c = 'E') ∧ power = c :: r := by
  cases h with
  | none => exact .inl rfl
  | unsigned hc _ | plus hc _ | minus hc _ => exact .inr ⟨_, _, hc, rfl⟩

theorem IsPower.isDigit_head (h : IsPower power e) : ∀ c ∈ power.head?, c.isDigit = false := by
  rcases h.eq_nil_or with rfl | ⟨c, r, rfl | rfl, rfl⟩ <;> simp

theorem integer?_digits {s : Text} (h : IsDigits s) :
    Decimal.integer? s = some (digitsValue s : Int) := by
  obtain ⟨c, r, rfl⟩ := List.exists_cons_of_ne_nil h.ne_nil
  have hc := h.isDigit c List.mem_cons_self
  have hsign : Decimal.splitSign (c :: r) = (false, c :: r) := by
    unfold Decimal.splitSign
    split
    · next heq => cases heq; cases hc
    · next heq => cases heq; cases hc
    · rfl
  have hall : (c :: r).all Char.isDigit = true := List.all_eq_true.2 h.isDigit
  simp only [Decimal.integer?, hsign, hall, ofDigits_eq_digitsValue]
  rfl

theorem integer?_signed {s : Text} (h : IsDigits s) :
    Decimal.integer? ('+' :: s) = some (digitsValue s : Int) ∧
      Decimal.integer? ('-' :: s) = some (-digitsValue s : Int) := by
  have hempty : s.isEmpty = false := by simpa using h.ne_nil
  have hall : s.all Char.isDigit = true := List.all_eq_true.2 h.isDigit
  simp only [Decimal.integer?, Decimal.splitSign, hempty, hall, ofDigits_eq_digitsValue]
  exact ⟨rfl, rfl⟩

/-- A power of ten is read as its exponent. -/
theorem IsPower.exponent? (h : IsPower power e) : Decimal.exponent? power = some e := by
  cases h with
  | none => rfl
  | unsigned hc hdigits =>
    rcases hc with rfl | rfl <;> exact integer?_digits hdigits
  | plus hc hdigits =>
    rcases hc with rfl | rfl <;> exact (integer?_signed hdigits).1
  | minus hc hdigits =>
    rcases hc with rfl | rfl <;> exact (integer?_signed hdigits).2

/-- Places are split off with their digits, which write so many parts of a power of ten. -/
theorem IsPlaces.exists_splitPlaces (h : IsPlaces places fraction) (hpower : IsPower power e) :
    ∃ digits, Decimal.splitPlaces (places ++ power) = (digits, power) ∧
      fraction = digitsValue digits / 10 ^ digits.length := by
  cases h with
  | none =>
    refine ⟨[], ?_, by simp [digitsValue]⟩
    rcases hpower.eq_nil_or with rfl | ⟨c, r, rfl | rfl, rfl⟩ <;> rfl
  | @some digits hdigits =>
    refine ⟨digits, ?_, rfl⟩
    show ((digits ++ power).takeWhile Char.isDigit, (digits ++ power).dropWhile Char.isDigit) = _
    rw [hdigits.takeWhile_append hpower.isDigit_head, hdigits.dropWhile_append hpower.isDigit_head]

theorem IsPlaces.isDigit_head_append (h : IsPlaces places fraction) (hpower : IsPower power e) :
    ∀ c ∈ (places ++ power).head?, c.isDigit = false := by
  cases h with
  | none => exact hpower.isDigit_head
  | some _ => simp

/-- Nothing but a digit begins a number behind its sign. -/
theorem splitSign_number (negative : Bool) (hwhole : IsWhole whole) (t : Text) :
    Decimal.splitSign (Literal.signText negative ++ (whole ++ t)) = (negative, whole ++ t) := by
  obtain ⟨c, r, rfl⟩ := List.exists_cons_of_ne_nil hwhole.ne_nil
  have hc := hwhole.isDigit c List.mem_cons_self
  cases negative with
  | true => rfl
  | false =>
    show Decimal.splitSign (c :: (r ++ t)) = (false, c :: (r ++ t))
    unfold Decimal.splitSign
    split
    · next heq => cases heq; cases hc
    · next heq => cases heq; cases hc
    · rfl

/-- **What has the parts of a number is a decimal of their value.** -/
theorem exists_decimal_ofText? (negative : Bool) (hwhole : IsWhole whole)
    (hplaces : IsPlaces places fraction) (hpower : IsPower power e) :
    ∃ d : Decimal,
      Decimal.ofText? (Literal.signText negative ++ (whole ++ (places ++ power))) = some d ∧
        d.negative = negative ∧
        (d.coefficient : Rat) * 10 ^ d.exponent = (digitsValue whole + fraction) * 10 ^ e := by
  have hhead := hplaces.isDigit_head_append hpower
  obtain ⟨digits, hsplit, rfl⟩ := hplaces.exists_splitPlaces hpower
  have hempty : whole.isEmpty = false := by simpa using hwhole.ne_nil
  refine ⟨⟨negative, digitsValue (whole ++ digits), e - digits.length⟩, ?_, rfl, ?_⟩
  · simp only [Decimal.ofText?, splitSign_number negative hwhole, hwhole.takeWhile_append hhead,
      hwhole.dropWhile_append hhead, hsplit, hempty, hpower.exponent?, ofDigits_eq_digitsValue]
    rfl
  · have hpow : (10 : Rat) ^ digits.length ≠ 0 := pow_ne_zero _ (by norm_num)
    rw [digitsValue_append, zpow_sub₀ (by norm_num), zpow_natCast]
    push_cast
    field_simp

/-- So it is the binary number nearest to this value. -/
theorem exists_rounds_floatToken (negative : Bool) (hwhole : IsWhole whole)
    (hplaces : IsPlaces places fraction) (hpower : IsPower power e) :
    ∃ x, floatToken (Literal.signText negative ++ (whole ++ (places ++ power))) = .float x ∧
      Binary64.Rounds negative ((digitsValue whole + fraction) * 10 ^ e) x := by
  obtain ⟨d, hd, rfl, hvalue⟩ := exists_decimal_ofText? negative hwhole hplaces hpower
  refine ⟨Binary64.ofDecimal d, ?_, hvalue ▸ Binary64.rounds_ofDecimal d⟩
  obtain ⟨c, r, rfl⟩ := List.exists_cons_of_ne_nil hwhole.ne_nil
  have hc := hwhole.isDigit c List.mem_cons_self
  have hname : ∀ d name, d.isDigit = false → (c :: r) ++ (places ++ power) ≠ d :: name := by
    intro d name hd heq
    obtain ⟨rfl, -⟩ := List.cons.inj heq
    rw [hc] at hd
    cases hd
  have hnan : (c :: r) ++ (places ++ power) ≠ "nan".toList := hname 'n' _ rfl
  have hinf : (c :: r) ++ (places ++ power) ≠ "inf".toList := hname 'i' _ rfl
  simp only [floatToken, Binary64.ofText?, splitSign_number d.negative hwhole, if_neg hnan,
    if_neg hinf, hd]
  rfl

end Json
end Reckon
