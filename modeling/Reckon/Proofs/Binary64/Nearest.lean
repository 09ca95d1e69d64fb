import Mathlib.Tactic.NormNum
import Reckon.Binary64.Basic
import Reckon.Proofs.Decimal.Nearest

/-!
# The nearest binary number

Which number of the 64-bit format a decimal text means is said here without saying how it is found
(`Rounds`).  A number of the format has one significand and one exponent (`IsCanonical`).  What is
meant is the one that is nearest among all of them, and of two equally near ones the one with the
even significand; from the number on that lies halfway between the largest one and the next power of
two, it is the infinite one.

At most one number meets this description (`Rounds.unique`), and `nearest` finds it
(`rounds_nearest`), and so does `ofDecimal` with its two shortcuts (`rounds_ofDecimal`).  Numbers
are in the order of their exponents (`IsCanonical.magnitude_lt`).  So all that matters where a
number is rounded are the multiples of one power of two, and among these the nearest one comes from
the nearest integer (`near_or_tie_of_isNearest`).
-/

set_option autoImplicit false

namespace Reckon
namespace Binary64

/-! ## The numbers of the format -/

/-- A number of the format.  All the bits of its significand are used, unless its exponent is the
smallest one. -/
structure IsCanonical (m : Nat) (e : Int) : Prop where
  lt : m < 2 ^ 53
  ge : -1074 ≤ e
  le : e ≤ 971
  full : 2 ^ 52 ≤ m ∨ e = -1074

/-- A number is nearest to `x`, and has an even significand if another number is as near. -/
structure IsRounded (x : Rat) (m : Nat) (e : Int) : Prop where
  canonical : IsCanonical m e
  nearest : ∀ m' e', IsCanonical m' e' → |x - magnitude m e| ≤ |x - magnitude m' e'|
  even_of_tie : ∀ m' e', IsCanonical m' e' → |x - magnitude m e| = |x - magnitude m' e'| →
    (m' = m ∧ e' = e) ∨ m % 2 = 0

/-- What `x` is rounded to, when it is given a sign: the nearest number, or the infinite one. -/
inductive Rounds (negative : Bool) (x : Rat) : Binary64 → Prop
  | finite {m : Nat} {e : Int} : x < 2 ^ 1024 - 2 ^ 970 → IsRounded x m e →
      Rounds negative x (.finite negative m e)
  | infinite : 2 ^ 1024 - 2 ^ 970 ≤ x → Rounds negative x (.infinite negative)

/-- A number of the format, or one that is not finite. -/
inductive OfFormat : Binary64 → Prop
  | finite (negative : Bool) {m : Nat} {e : Int} : IsCanonical m e → OfFormat (.finite negative m e)
  | infinite (negative : Bool) : OfFormat (.infinite negative)
  | nan : OfFormat .nan

variable {m m' : Nat} {e e' : Int} {x : Rat} {negative : Bool} {a b : Binary64}

/-! ## The order of the numbers -/

theorem two_zpow_pos (e : Int) : (0 : Rat) < 2 ^ e := zpow_pos (by norm_num) e

theorem two_zpow_mono (h : e ≤ e') : (2 : Rat) ^ e ≤ 2 ^ e' := zpow_le_zpow_right₀ (by norm_num) h

/-- A number may be written with any smaller exponent. -/
theorem magnitude_eq_mul (m : Nat) (h : e ≤ e') :
    magnitude m e' = (m * 2 ^ (e' - e).toNat : Nat) * (2 : Rat) ^ e := by
  obtain ⟨n, rfl⟩ := Int.le.dest h
  rw [show (e + n - e).toNat = n by omega, magnitude, zpow_add₀ two_ne_zero, zpow_natCast]
  push_cast
  ring

/-- A significand that is one too large begins the numbers with the next exponent. -/
theorem magnitude_carry (e : Int) : magnitude (2 ^ 52) (e + 1) = magnitude (2 ^ 53) e := by
  rw [magnitude_eq_mul _ (Int.le_add_one le_rfl), magnitude, show (e + 1 - e).toNat = 1 by omega]
  norm_num

/-- Numbers are in the order of their exponents. -/
theorem IsCanonical.magnitude_lt (h : IsCanonical m e) (h' : IsCanonical m' e') (hlt : e < e') :
    magnitude m e < magnitude m' e' := by
  have hfull : 2 ^ 52 ≤ m' := h'.full.resolve_right (by have := h.ge; omega)
  have hsignificand : m < m' * 2 ^ (e' - e).toNat := by
    calc
      m < 2 ^ 52 * 2 ^ 1 := h.lt
      _ ≤ m' * 2 ^ (e' - e).toNat :=
        Nat.mul_le_mul hfull (Nat.pow_le_pow_right (by norm_num) (by omega))
  rw [magnitude_eq_mul m' hlt.le, magnitude]
  exact mul_lt_mul_of_pos_right (by exact_mod_cast hsignificand) (two_zpow_pos e)

theorem magnitude_lt_iff : magnitude m e < magnitude m' e ↔ m < m' := by
  rw [magnitude, magnitude, mul_lt_mul_iff_left₀ (two_zpow_pos e), Nat.cast_lt]

/-- So no number is written in two ways. -/
theorem IsCanonical.eq_of_magnitude_eq (h : IsCanonical m e) (h' : IsCanonical m' e')
    (heq : magnitude m e = magnitude m' e') : m = m' ∧ e = e' := by
  rcases lt_trichotomy e e' with hlt | rfl | hlt
  · exact absurd heq (h.magnitude_lt h' hlt).ne
  · refine ⟨le_antisymm (not_lt.1 fun hlt ↦ ?_) (not_lt.1 fun hlt ↦ ?_), rfl⟩
    · exact absurd heq (magnitude_lt_iff.2 hlt).ne'
    · exact absurd heq (magnitude_lt_iff.2 hlt).ne
  · exact absurd heq (h'.magnitude_lt h hlt).ne'

/-! ## There is at most one nearest number -/

/-- If two numbers are equally near, the even significand of the smaller one is followed by an odd
one, and the number with this significand lies between the two or is the greater one. -/
theorem IsRounded.not_magnitude_lt (h : IsRounded x m e) (h' : IsRounded x m' e') (hm : m % 2 = 0)
    (hm' : m' % 2 = 0) (htie : |x - magnitude m e| = |x - magnitude m' e'|) :
    ¬ magnitude m e < magnitude m' e' := by
  intro hlt
  have hnext : IsCanonical (m + 1) e :=
    ⟨by have := h.canonical.lt; omega, h.canonical.ge, h.canonical.le,
      h.canonical.full.imp_left (Nat.le_succ_of_le)⟩
  have hstep : magnitude m e < magnitude (m + 1) e := magnitude_lt_iff.2 (Nat.lt_succ_self m)
  have hmiddle : x - magnitude m e = magnitude m' e' - x := by
    rcases abs_eq_abs.1 htie with hsame | hopposite <;> linarith
  have hbetween : magnitude m' e' ≤ magnitude (m + 1) e := by
    by_contra! hgt
    have hnearest := h.nearest _ _ hnext
    rw [abs_of_nonneg (by linarith : 0 ≤ x - magnitude m e)] at hnearest
    exact absurd hnearest (not_le.2 (abs_lt.2 ⟨by linarith, by linarith⟩))
  rcases lt_trichotomy e e' with hexponent | rfl | hexponent
  · exact absurd hbetween (not_le.2 (hnext.magnitude_lt h'.canonical hexponent))
  · have hlow := magnitude_lt_iff.1 hlt
    have hhigh := not_lt.1 fun hgt ↦ absurd hbetween (not_le.2 (magnitude_lt_iff.2 hgt))
    omega
  · exact absurd hlt (not_lt.2 (h'.canonical.magnitude_lt h.canonical hexponent).le)

theorem IsRounded.unique (h : IsRounded x m e) (h' : IsRounded x m' e') : m = m' ∧ e = e' := by
  have htie := le_antisymm (h.nearest _ _ h'.canonical) (h'.nearest _ _ h.canonical)
  rcases h.even_of_tie _ _ h'.canonical htie with ⟨rfl, rfl⟩ | hm
  · exact ⟨rfl, rfl⟩
  · rcases h'.even_of_tie _ _ h.canonical htie.symm with ⟨rfl, rfl⟩ | hm'
    · exact ⟨rfl, rfl⟩
    · refine h.canonical.eq_of_magnitude_eq h'.canonical (le_antisymm ?_ ?_)
      · exact not_lt.1 (h'.not_magnitude_lt h hm' hm htie.symm)
      · exact not_lt.1 (h.not_magnitude_lt h' hm hm' htie)

/-- **What a number is rounded to is determined.** -/
theorem Rounds.unique (h : Rounds negative x a) (h' : Rounds negative x b) : a = b := by
  cases h with
  | finite hsmall h =>
    cases h' with
    | finite _ h' =>
      obtain ⟨rfl, rfl⟩ := h.unique h'
      rfl
    | infinite hlarge => exact absurd hlarge (not_le.2 hsmall)
  | infinite hlarge =>
    cases h' with
    | finite hsmall _ => exact absurd hlarge (not_le.2 hsmall)
    | infinite _ => rfl

theorem Rounds.ofFormat (h : Rounds negative x a) : a.OfFormat := by
  cases h with
  | finite _ h => exact .finite negative h.canonical
  | infinite _ => exact .infinite negative

theorem Rounds.negative_eq {b : Bool} (h : Rounds negative x (.finite b m e)) : negative = b := by
  cases h
  rfl

/-- Numbers are rounded alike with either sign. -/
theorem Rounds.withSign (h : Rounds negative x (.finite negative m e)) (b : Bool) :
    Rounds b x (.finite b m e) := by
  cases h with
  | finite hsmall h => exact .finite hsmall h

/-! ## Rounding on the grid of an exponent -/

theorem abs_sub_mul {unit : Rat} (hunit : 0 < unit) (x : Rat) (k : Int) :
    |x - k * unit| = |x / unit - k| * unit := by
  rw [← abs_of_pos hunit, ← abs_mul, abs_of_pos hunit, sub_mul, div_mul_cancel₀ _ hunit.ne']

theorem abs_sub_magnitude (x : Rat) (m : Nat) (e : Int) :
    |x - magnitude m e| = |x / 2 ^ e - (m : Int)| * 2 ^ e := by
  rw [magnitude, ← abs_sub_mul (two_zpow_pos e), Int.cast_natCast]

/-- On the grid of an exponent, the nearest integer makes the nearest number.  Numbers with smaller
exponents lie below all that is rounded there, unless there are none. -/
theorem near_or_tie_of_isNearest (hm : IsNearest (x / 2 ^ e) m) (hle : e ≤ 971)
    (hlow : magnitude (2 ^ 52) e ≤ x ∨ e = -1074) (h' : IsCanonical m' e') :
    |x - magnitude m e| < |x - magnitude m' e'| ∨
      |x - magnitude m e| = |x - magnitude m' e'| ∧
        (magnitude m e = magnitude m' e' ∨ m % 2 = 0) := by
  rcases le_or_gt e e' with hexponent | hexponent
  · -- with this exponent the other number is a multiple too
    have hother : magnitude m' e' = magnitude (m' * 2 ^ (e' - e).toNat) e :=
      magnitude_eq_mul m' hexponent
    rw [hother]
    by_cases hsame : m' * 2 ^ (e' - e).toNat = m
    · exact .inr ⟨by rw [hsame], .inl (by rw [hsame])⟩
    · have hdiffers : ((m' * 2 ^ (e' - e).toNat : Nat) : Int) ≠ m := by exact_mod_cast hsame
      rw [abs_sub_magnitude, abs_sub_magnitude]
      rcases isNearest_iff.1 hm _ hdiffers with hlt | ⟨htie, heven⟩
      · exact .inl (mul_lt_mul_of_pos_right hlt (two_zpow_pos e))
      · exact .inr ⟨by rw [htie], .inr (by omega)⟩
  · have hsmallest : e ≠ -1074 := by have := h'.ge; omega
    have hlow := hlow.resolve_right hsmallest
    have hcanonical : IsCanonical (2 ^ 52) e :=
      ⟨by norm_num, by have := h'.ge; omega, hle, .inl le_rfl⟩
    have hbelow := h'.magnitude_lt hcanonical hexponent
    have hnear : |x - magnitude m e| ≤ |x - magnitude (2 ^ 52) e| := by
      rw [abs_sub_magnitude, abs_sub_magnitude]
      exact mul_le_mul_of_nonneg_right (hm.abs_sub_le _) (two_zpow_pos e).le
    rw [abs_of_nonneg (by linarith : 0 ≤ x - magnitude (2 ^ 52) e)] at hnear
    refine .inl (hnear.trans_lt ?_)
    rw [abs_of_pos (by linarith)]
    linarith

/-- If the nearest integer is a significand, it is the one of the nearest number. -/
theorem isRounded_of_isNearest (hm : IsNearest (x / 2 ^ e) m) (hcanonical : IsCanonical m e)
    (hlow : magnitude (2 ^ 52) e ≤ x ∨ e = -1074) : IsRounded x m e := by
  have hnear := fun m' e' h' ↦ @near_or_tie_of_isNearest m m' e e' x hm hcanonical.le hlow h'
  refine ⟨hcanonical, fun m' e' h' ↦ ?_, fun m' e' h' htie ↦ ?_⟩
  · rcases hnear m' e' h' with hlt | ⟨htie, -⟩
    · exact hlt.le
    · exact htie.le
  · rcases hnear m' e' h' with hlt | ⟨-, hsame | heven⟩
    · exact absurd htie hlt.ne
    · obtain ⟨rfl, rfl⟩ := hcanonical.eq_of_magnitude_eq h' hsame
      exact .inl ⟨rfl, rfl⟩
    · exact .inr heven

/-- If it is one too large for that, it makes the smallest number with the next exponent. -/
theorem isRounded_of_isNearest_carry (hm : IsNearest (x / 2 ^ e) (2 ^ 53 : Nat)) (hge : -1074 ≤ e)
    (hle : e + 1 ≤ 971) (hlow : magnitude (2 ^ 52) e ≤ x ∨ e = -1074) :
    IsRounded x (2 ^ 52) (e + 1) := by
  have hcanonical : IsCanonical (2 ^ 52) (e + 1) := ⟨by norm_num, by omega, hle, .inl le_rfl⟩
  refine ⟨hcanonical, fun m' e' h' ↦ ?_, fun _ _ _ _ ↦ .inr (by norm_num)⟩
  rw [magnitude_carry]
  rcases near_or_tie_of_isNearest hm (by omega) hlow h' with hlt | ⟨htie, -⟩
  · exact hlt.le
  · exact htie.le

/-! ## The grid of a number -/

theorem two_zpow_log2_le {n : Nat} (hn : n ≠ 0) :
    (2 : Rat) ^ (n.log2 : Int) ≤ n ∧ (n : Rat) < 2 ^ (n.log2 + 1 : Int) :=
  ⟨by exact_mod_cast Nat.log2_self_le hn, by exact_mod_cast @Nat.lt_log2_self n⟩

/-- Powers of a base around two numbers give powers around their quotient, but for a factor of the
base. -/
theorem zpow_bounds_div {base n d : Rat} {i j : Int} (hbase : 0 < base)
    (hn : base ^ i ≤ n ∧ n < base ^ (i + 1)) (hd : base ^ j ≤ d ∧ d < base ^ (j + 1)) :
    base ^ (i - j - 1) ≤ n / d ∧ n / d < base ^ (i - j + 1) := by
  have hpower : ∀ k : Int, 0 < base ^ k := zpow_pos hbase
  have hpos : 0 < d := (hpower j).trans_le hd.1
  constructor
  · rw [le_div_iff₀ hpos]
    calc
      base ^ (i - j - 1) * d ≤ base ^ (i - j - 1) * base ^ (j + 1) :=
        mul_le_mul_of_nonneg_left hd.2.le (hpower _).le
      _ = base ^ i := by
          rw [← zpow_add₀ hbase.ne']
          congr 1
          ring
      _ ≤ n := hn.1
  · rw [div_lt_iff₀ hpos]
    calc
      n < base ^ (i + 1) := hn.2
      _ = base ^ (i - j + 1) * base ^ j := by
          rw [← zpow_add₀ hbase.ne']
          congr 1
          ring
      _ ≤ base ^ (i - j + 1) * d := mul_le_mul_of_nonneg_left hd.1 (hpower _).le

/-- So the numerator and the denominator leave two powers of a base, and a comparison tells which of
them is the one below the number. -/
theorem zpow_floor_spec {base : Rat} {i j f : Int} (hbase : 0 < base) (hx : 0 < x)
    (hn : base ^ i ≤ x.num.natAbs ∧ (x.num.natAbs : Rat) < base ^ (i + 1))
    (hd : base ^ j ≤ x.den ∧ (x.den : Rat) < base ^ (j + 1))
    (hf : f = if base ^ (i - j) ≤ x then i - j else i - j - 1) :
    base ^ f ≤ x ∧ x < base ^ (f + 1) := by
  have hquotient : (x.num.natAbs : Rat) / x.den = x := by
    rw [Nat.cast_natAbs, abs_of_nonneg (Rat.num_pos.2 hx).le]
    exact x.num_div_den
  obtain ⟨hlow, hhigh⟩ := zpow_bounds_div hbase hn hd
  rw [hquotient] at hlow hhigh
  rw [hf]
  split_ifs with hpower
  · exact ⟨hpower, hhigh⟩
  · exact ⟨hlow, by rw [Int.sub_add_cancel]; exact not_le.1 hpower⟩

theorem natAbs_num_ne_zero (hx : 0 < x) : x.num.natAbs ≠ 0 :=
  Int.natAbs_ne_zero.2 (Rat.num_pos.2 hx).ne'

theorem floorLog2_spec (hx : 0 < x) :
    (2 : Rat) ^ floorLog2 x ≤ x ∧ x < 2 ^ (floorLog2 x + 1) :=
  zpow_floor_spec two_pos hx (two_zpow_log2_le (natAbs_num_ne_zero hx))
    (two_zpow_log2_le x.den_ne_zero) rfl

/-- The exponent of the grid on which a number is rounded. -/
def gridExponent (x : Rat) : Int := max (floorLog2 x - 52) (-1074)

theorem gridExponent_spec (hx : 0 < x) :
    (magnitude (2 ^ 52) (gridExponent x) ≤ x ∨ gridExponent x = -1074) ∧
      x < magnitude (2 ^ 53) (gridExponent x) := by
  obtain ⟨hlow, hhigh⟩ := floorLog2_spec hx
  constructor
  · rcases max_choice (floorLog2 x - 52) (-1074) with hmax | hmax
    · left
      rw [gridExponent, hmax, magnitude, zpow_sub₀ two_ne_zero, Nat.cast_pow, Nat.cast_ofNat,
        zpow_ofNat, mul_div_cancel₀ _ (by norm_num)]
      exact hlow
    · exact .inr hmax
  · calc
      x < 2 ^ (floorLog2 x + 1) := hhigh
      _ ≤ 2 ^ (53 + gridExponent x) := by
          refine two_zpow_mono ?_
          have hmax : floorLog2 x - 52 ≤ gridExponent x := le_max_left _ _
          omega
      _ = magnitude (2 ^ 53) (gridExponent x) := by
          rw [magnitude, zpow_add₀ two_ne_zero, zpow_ofNat, Nat.cast_pow, Nat.cast_ofNat]

theorem nearest_eq (hx : 0 < x) (hm : IsNearest (x / 2 ^ gridExponent x) m) :
    nearest negative x =
      if m = 2 ^ 53 then
        if 971 < gridExponent x + 1 then .infinite negative
        else .finite negative (2 ^ 52) (gridExponent x + 1)
      else if 971 < gridExponent x then .infinite negative
      else .finite negative m (gridExponent x) := by
  have hinteger : (nearestEven (x / 2 ^ gridExponent x)).natAbs = m := by
    rw [nearestEven_eq_iff.2 hm, Int.natAbs_natCast]
  have hgrid : max (floorLog2 x - (precision - 1 : Nat)) minExponent = gridExponent x := rfl
  have hfull : Nat.pow 2 precision = 2 ^ 53 := rfl
  simp only [nearest, if_neg hx.ne', hgrid, hinteger, hfull]
  by_cases hcarry : m = 2 ^ 53
  · simp only [if_pos hcarry]
    rfl
  · simp only [if_neg hcarry]
    rfl

/-- Infinity begins half a unit below the power of two that no finite number reaches. -/
theorem overflow_eq : (2 : Rat) ^ 1024 - 2 ^ 970 = (2 ^ 53 - 1 / 2) * 2 ^ (971 : Int) := by
  have hlow : (2 : Rat) ^ (971 : Int) = 2 * 2 ^ 970 := by rw [zpow_ofNat, pow_succ']
  have hhigh : (2 : Rat) ^ 1024 = 2 ^ 54 * 2 ^ 970 := by rw [← pow_add]
  rw [hlow, hhigh]
  generalize (2 : Rat) ^ 970 = unit
  ring

theorem one_lt_overflow : (1 : Rat) < 2 ^ 1024 - 2 ^ 970 := by
  have hunit : (2 : Rat) ^ (0 : Int) ≤ 2 ^ (971 : Int) := two_zpow_mono (by norm_num)
  rw [zpow_zero] at hunit
  calc
    (1 : Rat) < (2 ^ 53 - 1 / 2) * 1 := by norm_num
    _ ≤ (2 ^ 53 - 1 / 2) * 2 ^ (971 : Int) := mul_le_mul_of_nonneg_left hunit (by norm_num)
    _ = 2 ^ 1024 - 2 ^ 970 := overflow_eq.symm

/-- With the largest exponent, it is a significand one too large that makes a number infinite. -/
theorem overflow_le_iff (hm : IsNearest (x / 2 ^ (971 : Int)) m) :
    2 ^ 1024 - 2 ^ 970 ≤ x ↔ 2 ^ 53 ≤ m := by
  rw [overflow_eq, ← le_div_iff₀ (two_zpow_pos _)]
  constructor
  · intro h
    have hfirst : IsNearest (2 ^ 53 - 1 / 2) (2 ^ 53) := ⟨by norm_num, fun _ ↦ by norm_num⟩
    exact_mod_cast hfirst.le hm h
  · intro h
    have hcast : (2 : Rat) ^ 53 ≤ m := by exact_mod_cast h
    obtain ⟨hlow, -⟩ := abs_le.1 hm.near
    rw [Int.cast_natCast] at hlow
    linarith

theorem overflow_le (he : 971 < e) (h : magnitude (2 ^ 52) e ≤ x) : 2 ^ 1024 - 2 ^ 970 ≤ x := by
  have hstep : (2 : Rat) ^ (972 : Int) = 2 * 2 ^ (971 : Int) := by
    rw [show (972 : Int) = 1 + 971 by norm_num, zpow_add₀ two_ne_zero, zpow_one]
  calc
    (2 : Rat) ^ 1024 - 2 ^ 970 = (2 ^ 53 - 1 / 2) * 2 ^ (971 : Int) := overflow_eq
    _ ≤ 2 ^ 52 * 2 ^ (972 : Int) := by
        rw [hstep, ← mul_assoc]
        exact mul_le_mul_of_nonneg_right (by norm_num) (two_zpow_pos 971).le
    _ ≤ 2 ^ 52 * 2 ^ e := mul_le_mul_of_nonneg_left (two_zpow_mono (by omega)) (by norm_num)
    _ = magnitude (2 ^ 52) e := by rw [magnitude, Nat.cast_pow, Nat.cast_ofNat]
    _ ≤ x := h

theorem lt_overflow (he : e < 971) (h : x < magnitude (2 ^ 53) e) : x < 2 ^ 1024 - 2 ^ 970 := by
  have hstep : (2 : Rat) ^ (971 : Int) = 2 * 2 ^ (970 : Int) := by
    rw [show (971 : Int) = 1 + 970 by norm_num, zpow_add₀ two_ne_zero, zpow_one]
  calc
    x < magnitude (2 ^ 53) e := h
    _ = 2 ^ 53 * 2 ^ e := by rw [magnitude, Nat.cast_pow, Nat.cast_ofNat]
    _ ≤ 2 ^ 53 * 2 ^ (970 : Int) :=
        mul_le_mul_of_nonneg_left (two_zpow_mono (by omega)) (by norm_num)
    _ ≤ (2 ^ 53 - 1 / 2) * 2 ^ (971 : Int) := by
        rw [hstep, ← mul_assoc]
        exact mul_le_mul_of_nonneg_right (by norm_num) (two_zpow_pos 970).le
    _ = 2 ^ 1024 - 2 ^ 970 := overflow_eq.symm

/-! ## The number that is found -/

/-- **The number that is found is the nearest one.** -/
theorem rounds_nearest (negative : Bool) (hx : 0 < x) :
    Rounds negative x (nearest negative x) := by
  obtain ⟨hlow, hhigh⟩ := gridExponent_spec hx
  have hge : -1074 ≤ gridExponent x := le_max_right _ _
  obtain ⟨m, hm⟩ : ∃ m : Nat, IsNearest (x / 2 ^ gridExponent x) m := by
    have hnonneg := nearestEven_nonneg (div_nonneg hx.le (two_zpow_pos (gridExponent x)).le)
    refine ⟨(nearestEven (x / 2 ^ gridExponent x)).natAbs, nearestEven_eq_iff.1 ?_⟩
    rw [Int.natCast_natAbs, abs_of_nonneg hnonneg]
  rw [nearest_eq hx hm]
  generalize gridExponent x = e at *
  have hmle : m ≤ 2 ^ 53 := by
    have hbound : x / 2 ^ e ≤ (2 ^ 53 : Nat) := (div_le_iff₀ (two_zpow_pos e)).2 hhigh.le
    have hle := nearestEven_le (k := (2 ^ 53 : Nat)) hbound
    rw [nearestEven_eq_iff.2 hm] at hle
    exact_mod_cast hle
  have hfull : 2 ^ 52 ≤ m ∨ e = -1074 := by
    refine hlow.imp_left fun hlow ↦ ?_
    have hbound : ((2 ^ 52 : Nat) : Rat) ≤ x / 2 ^ e := (le_div_iff₀ (two_zpow_pos e)).2 hlow
    have hge := le_nearestEven (k := (2 ^ 52 : Nat)) hbound
    rw [nearestEven_eq_iff.2 hm] at hge
    exact_mod_cast hge
  by_cases hcarry : m = 2 ^ 53
  · rw [if_pos hcarry]
    split_ifs with hexponent
    · rcases (Int.lt_add_one_iff.1 hexponent).eq_or_lt with rfl | hexponent
      · exact .infinite ((overflow_le_iff hm).2 hcarry.ge)
      · exact .infinite (overflow_le hexponent (hlow.resolve_right (by omega)))
    · rw [hcarry] at hm
      exact .finite (lt_overflow (by omega) hhigh)
        (isRounded_of_isNearest_carry hm hge (not_lt.1 hexponent) hlow)
  · rw [if_neg hcarry]
    split_ifs with hexponent
    · exact .infinite (overflow_le hexponent (hlow.resolve_right (by omega)))
    · have hcanonical : IsCanonical m e :=
        ⟨lt_of_le_of_ne hmle hcarry, hge, not_lt.1 hexponent, hfull⟩
      refine .finite ?_ (isRounded_of_isNearest hm hcanonical hlow)
      rcases (not_lt.1 hexponent).eq_or_lt with rfl | hexponent
      · exact not_le.1 (mt (overflow_le_iff hm).1 (not_le.2 hcanonical.lt))
      · exact lt_overflow hexponent hhigh

/-! ## Decimals -/

/-- A number that is at most half the smallest one is rounded to zero. -/
theorem isRounded_zero (hx : 0 ≤ x) (hsmall : 2 * x ≤ 2 ^ (-1074 : Int)) :
    IsRounded x 0 (-1074) := by
  have hzero : magnitude 0 (-1074) = 0 := by simp [magnitude]
  refine ⟨⟨by norm_num, le_rfl, by norm_num, .inr rfl⟩, fun m' e' h' ↦ ?_,
    fun _ _ _ _ ↦ .inr rfl⟩
  rw [hzero, sub_zero, abs_of_nonneg hx]
  rcases Nat.eq_zero_or_pos m' with rfl | hm'
  · rw [magnitude, Nat.cast_zero, zero_mul, sub_zero]
    exact le_abs_self x
  · have hstep : (2 : Rat) ^ (-1074 : Int) ≤ magnitude m' e' := by
      calc
        (2 : Rat) ^ (-1074 : Int) ≤ 1 * 2 ^ e' := by rw [one_mul]; exact two_zpow_mono h'.ge
        _ ≤ magnitude m' e' :=
          mul_le_mul_of_nonneg_right (by exact_mod_cast hm') (two_zpow_pos e').le
    rw [abs_sub_comm]
    exact le_trans (by linarith) (le_abs_self _)

theorem rounds_zero (negative : Bool) : Rounds negative 0 (.finite negative 0 (-1074)) := by
  refine .finite (zero_lt_one.trans one_lt_overflow) (isRounded_zero le_rfl ?_)
  rw [mul_zero]
  exact (two_zpow_pos _).le

/-- The digits of a number tell between which powers of ten it lies. -/
theorem ten_pow_le_of_length_digits {n k : Nat} (hn : n ≠ 0) (hk : k < (Numeral.digits n).length) :
    10 ^ k ≤ n := by
  rcases Nat.eq_zero_or_pos k with rfl | hpos
  · exact Nat.one_le_iff_ne_zero.2 hn
  · exact not_lt.1 fun hlt ↦ absurd ((Nat.length_toDigits_le_iff (by norm_num) hpos).2 hlt)
      (not_le.2 hk)

theorem lt_ten_pow_length_digits (n : Nat) : n < 10 ^ (Numeral.digits n).length :=
  (Nat.length_toDigits_le_iff (by norm_num)
    (List.length_pos_iff.2 (Numeral.digits_ne_nil n))).1 le_rfl

/-- Below `underflowPower`, numbers are at most half the smallest number of the format. -/
theorem two_mul_ten_zpow_le : 2 * (10 : Rat) ^ underflowPower ≤ 2 ^ (-1074 : Int) := by
  have hpow : (2 : Rat) * 2 ^ 1074 ≤ 10 ^ 324 := by
    exact_mod_cast (by decide +kernel : 2 * 2 ^ 1074 ≤ 10 ^ 324)
  rw [underflowPower, zpow_neg, zpow_neg, zpow_ofNat, zpow_ofNat, ← div_eq_mul_inv, inv_eq_one_div,
    div_le_div_iff₀ (by positivity) (by positivity), one_mul]
  exact hpow

/-- From `overflowPower` on, numbers are infinite. -/
theorem overflow_le_ten_zpow : (2 : Rat) ^ 1024 - 2 ^ 970 ≤ 10 ^ overflowPower := by
  have hpow : (2 : Rat) ^ 1024 ≤ 10 ^ 309 := by
    exact_mod_cast (by decide +kernel : 2 ^ 1024 ≤ 10 ^ 309)
  rw [overflowPower, zpow_ofNat]
  exact le_trans (sub_le_self _ (by positivity)) hpow

theorem ten_zpow_mono (h : e ≤ e') : (10 : Rat) ^ e ≤ 10 ^ e' := zpow_le_zpow_right₀ (by norm_num) h

/-- The digits of a decimal and its exponent tell between which powers of ten it lies. -/
theorem bounds_of_digits {c : Nat} (hc : c ≠ 0) (e : Int) :
    (10 : Rat) ^ (e + (Numeral.digits c).length - 1) ≤ c * 10 ^ e ∧
      (c : Rat) * 10 ^ e < 10 ^ (e + (Numeral.digits c).length) := by
  obtain ⟨k, hk⟩ := Nat.exists_eq_succ_of_ne_zero
    (List.length_pos_iff.2 (Numeral.digits_ne_nil c)).ne'
  have hpos : (0 : Rat) < 10 ^ e := zpow_pos (by norm_num) e
  have hlow : (10 : Rat) ^ k ≤ c := by
    exact_mod_cast ten_pow_le_of_length_digits hc (by rw [hk]; exact Nat.lt_succ_self k)
  have hhigh : (c : Rat) < 10 ^ (k + 1) := by
    have := lt_ten_pow_length_digits c
    rw [hk] at this
    exact_mod_cast this
  rw [hk]
  constructor
  · rw [show e + (k.succ : Nat) - 1 = k + e by push_cast; ring, zpow_add₀ (by norm_num),
      zpow_natCast]
    exact mul_le_mul_of_nonneg_right hlow hpos.le
  · rw [add_comm e, zpow_add₀ (by norm_num), zpow_natCast]
    exact mul_lt_mul_of_pos_right hhigh hpos

/-- **A decimal means the binary number nearest to it.** -/
theorem rounds_ofDecimal (d : Decimal) :
    Rounds d.negative (d.coefficient * 10 ^ d.exponent) (ofDecimal d) := by
  rw [ofDecimal]
  split_ifs with hlow hhigh
  · have hsmall : 2 * ((d.coefficient : Rat) * 10 ^ d.exponent) ≤ 2 ^ (-1074 : Int) := by
      by_cases hzero : d.coefficient = 0
      · rw [hzero, Nat.cast_zero, zero_mul, mul_zero]
        exact (two_zpow_pos _).le
      · have hpower : d.exponent + (Numeral.digits d.coefficient).length ≤ underflowPower := by
          simpa [Decimal.isZero, hzero] using hlow
        have hbound := (bounds_of_digits hzero d.exponent).2
        have hmono := ten_zpow_mono hpower
        exact le_trans (by linarith) two_mul_ten_zpow_le
    have hnonneg : 0 ≤ (d.coefficient : Rat) * 10 ^ d.exponent :=
      mul_nonneg (Nat.cast_nonneg _) (zpow_pos (by norm_num) _).le
    have hone : (2 : Rat) ^ (-1074 : Int) ≤ 2 ^ (0 : Int) := two_zpow_mono (by norm_num)
    rw [zpow_zero] at hone
    exact .finite (lt_of_le_of_lt (by linarith) one_lt_overflow) (isRounded_zero hnonneg hsmall)
  · have hzero : d.coefficient ≠ 0 := fun hzero ↦ hlow (by simp [Decimal.isZero, hzero])
    have hbound := (bounds_of_digits hzero d.exponent).1
    exact .infinite (overflow_le_ten_zpow.trans ((ten_zpow_mono (by omega)).trans hbound))
  · have hzero : d.coefficient ≠ 0 := fun hzero ↦ hlow (by simp [Decimal.isZero, hzero])
    have hcoefficient : (0 : Rat) < d.coefficient := by
      exact_mod_cast Nat.pos_of_ne_zero hzero
    exact rounds_nearest d.negative (mul_pos hcoefficient (zpow_pos (by norm_num) _))

end Binary64
end Reckon
