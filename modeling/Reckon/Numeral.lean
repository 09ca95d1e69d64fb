import Reckon.Text.Basic

/-!
# Natural numbers in decimal notation

`digits` writes a number, `ofDigits` reads a run of digits.  Numbers of more than `maxDigits` digits
are never written out: whoever has to write one reports it instead, and `isOverlong` is the test.
-/

set_option autoImplicit false

namespace Reckon
namespace Numeral

/-- The decimal digits of a number, most significant first; zero has the one digit `0`. -/
def digits (n : Nat) : Text := Nat.toDigits 10 n

/-- The number that a run of digits writes. -/
def ofDigits (s : Text) : Nat := Nat.ofDigitChars 10 s 0

/-- The most digits that a number may have to be written out. -/
def maxDigits : Nat := 4300

/-- Whether a number has more than `maxDigits` digits. -/
def isOverlong (n : Nat) : Bool := Nat.pow 10 maxDigits ≤ n

/-- An integer in decimal notation, with a leading `-` when it is negative. -/
def ofInt (z : Int) : Text :=
  if z < 0 then '-' :: digits z.natAbs else digits z.natAbs

/-! ## Digits -/

theorem isDigit_of_mem_digits {n : Nat} {c : Char} (h : c ∈ digits n) : c.isDigit = true :=
  Nat.isDigit_of_mem_toDigits (by decide) (by decide) h

theorem digits_ne_nil (n : Nat) : digits n ≠ [] := Nat.toDigits_ne_nil

/-- Reading what was written gives the number back. -/
@[simp] theorem ofDigits_digits (n : Nat) : ofDigits (digits n) = n :=
  Nat.ofDigitChars_ten_toDigits

theorem isOverlong_of_le {m n : Nat} (h : m ≤ n) (hm : isOverlong m = true) :
    isOverlong n = true := by
  rw [isOverlong, decide_eq_true_eq] at hm ⊢
  exact Nat.le_trans hm h

theorem isOverlong_iff {n : Nat} : isOverlong n = true ↔ maxDigits < (digits n).length := by
  have h : (digits n).length ≤ maxDigits ↔ n < 10 ^ maxDigits :=
    Nat.length_toDigits_le_iff (by decide) (by decide)
  rw [isOverlong, decide_eq_true_eq, ← Nat.not_le, h, Nat.not_lt, Nat.pow_eq]

end Numeral
end Reckon
