import Mathlib.Data.Rat.Floor
import Mathlib.Tactic.Linarith
import Mathlib.Tactic.Ring
import Reckon.Rounding

/-!
# What it means to be nearest

An integer is the one that a number is rounded to just if it lies within one half of the number, and
is even if it lies exactly one half away (`IsNearest`, `nearestEven_eq_iff`); no other integer is
then any nearer (`isNearest_iff`).  All that is used of rounding follows from this: integers are
rounded to themselves (`nearestEven_intCast`), no integer is passed by (`le_nearestEven`,
`nearestEven_le`), and a number is rounded to a multiple of an even integer just if it is as near to
one (`dvd_nearestEven_iff`).
-/

set_option autoImplicit false

namespace Reckon

variable {x y : Rat} {k m n : Int}

/-- An integer lies within one half of a number, and no even one lies as near. -/
structure IsNearest (x : Rat) (k : Int) : Prop where
  near : |x - k| ≤ 1 / 2
  even_of_tie : |x - k| = 1 / 2 → k % 2 = 0

/-- Which of the two integers around it a number is rounded to. -/
theorem nearestEven_cases (x : Rat) :
    (nearestEven x = x.floor ∧ x - x.floor ≤ 1 / 2 ∧ (x - x.floor = 1 / 2 → x.floor % 2 = 0)) ∨
      (nearestEven x = x.floor + 1 ∧ 1 / 2 ≤ x - x.floor ∧
        (x - x.floor = 1 / 2 → (x.floor + 1) % 2 = 0)) := by
  rw [nearestEven]
  split
  · next h => exact .inl ⟨rfl, h.le, fun heq ↦ absurd heq h.ne⟩
  · next hlow =>
    split
    · next h => exact .inr ⟨rfl, h.le, fun heq ↦ absurd heq h.ne'⟩
    · next hhigh =>
      split
      · next heven => exact .inl ⟨rfl, not_lt.1 hhigh, fun _ ↦ heven⟩
      · next hodd => exact .inr ⟨rfl, not_lt.1 hlow, fun _ ↦ by omega⟩

theorem isNearest_nearestEven (x : Rat) : IsNearest x (nearestEven x) := by
  have hfloor : (x.floor : Rat) ≤ x := Rat.le_floor_iff.1 le_rfl
  have hceil : x < x.floor + 1 := by exact_mod_cast Rat.floor_lt_iff.1 (Int.lt_succ x.floor)
  rcases nearestEven_cases x with ⟨heq, hle, htie⟩ | ⟨heq, hle, htie⟩
  · have habs : |x - x.floor| = x - x.floor := abs_of_nonneg (by linarith)
    rw [heq]
    exact ⟨by rw [habs]; exact hle, by rw [habs]; exact htie⟩
  · have habs : |x - (x.floor + 1 : Int)| = 1 - (x - x.floor) := by
      push_cast
      rw [abs_of_neg (by linarith)]
      ring
    rw [heq]
    exact ⟨by rw [habs]; linarith, fun h ↦ htie (by linarith)⟩

/-- The greater of two numbers does not have the smaller nearest integer: the two integers would be
neighbours, and both even. -/
theorem IsNearest.le (hm : IsNearest x m) (hn : IsNearest y n) (hxy : x ≤ y) : m ≤ n := by
  by_contra! hlt
  have hstep : (n : Rat) + 1 ≤ m := by exact_mod_cast hlt
  obtain ⟨hmlow, -⟩ := abs_le.1 hm.near
  obtain ⟨-, hnhigh⟩ := abs_le.1 hn.near
  have hmabs : x - m = -(1 / 2) := by linarith
  have hnabs : y - n = 1 / 2 := by linarith
  have hmeven := hm.even_of_tie (by rw [hmabs]; norm_num)
  have hneven := hn.even_of_tie (by rw [hnabs]; norm_num)
  have hnext : m = n + 1 := by
    have : (m : Rat) = n + 1 := by linarith
    exact_mod_cast this
  omega

theorem nearestEven_eq_iff : nearestEven x = k ↔ IsNearest x k := by
  constructor
  · rintro rfl
    exact isNearest_nearestEven x
  · intro hk
    have hx := isNearest_nearestEven x
    exact le_antisymm (hx.le hk le_rfl) (hk.le hx le_rfl)

theorem nearestEven_mono (h : x ≤ y) : nearestEven x ≤ nearestEven y :=
  (isNearest_nearestEven x).le (isNearest_nearestEven y) h

/-- A number and the one with the other sign are rounded alike. -/
theorem nearestEven_neg (x : Rat) : nearestEven (-x) = -nearestEven x := by
  have hx := isNearest_nearestEven x
  have habs : |-x - (-nearestEven x : Int)| = |x - nearestEven x| := by
    push_cast
    rw [← abs_neg]
    congr 1
    ring
  refine nearestEven_eq_iff.2 ⟨habs.trans_le hx.near, fun htie ↦ ?_⟩
  have heven := hx.even_of_tie (habs.symm.trans htie)
  omega

/-- Every other integer is farther away from the number, or as far away and then the nearest one is
even. -/
theorem isNearest_iff :
    IsNearest x k ↔ ∀ n : Int, n ≠ k → |x - k| < |x - n| ∨ |x - k| = |x - n| ∧ k % 2 = 0 := by
  constructor
  · intro hk n hne
    -- two integers are at least one apart, so not both can be nearer than one half
    have hapart : (1 : Rat) ≤ |(n : Rat) - k| := by
      exact_mod_cast Int.one_le_abs (sub_ne_zero.2 hne)
    have hboth : |(n : Rat) - k| ≤ |x - n| + |x - k| := by
      rw [abs_sub_comm x n]
      exact abs_sub_le (n : Rat) x k
    have hnear := hk.near
    rcases lt_or_ge |x - k| |x - n| with hlt | hge
    · exact .inl hlt
    · exact .inr ⟨by linarith, hk.even_of_tie (by linarith)⟩
  · intro h
    have hrounded := isNearest_nearestEven x
    by_cases heq : nearestEven x = k
    · rwa [heq] at hrounded
    · rcases h (nearestEven x) heq with hlt | ⟨htie, heven⟩
      · exact ⟨hlt.le.trans hrounded.near, fun hhalf ↦ absurd hrounded.near (by linarith)⟩
      · exact ⟨htie.trans_le hrounded.near, fun _ ↦ heven⟩

theorem IsNearest.abs_sub_le (hk : IsNearest x k) (n : Int) : |x - k| ≤ |x - n| := by
  by_cases hsame : n = k
  · rw [hsame]
  · rcases isNearest_iff.1 hk n hsame with hlt | ⟨htie, -⟩
    · exact hlt.le
    · exact htie.le

/-! ## Integers -/

/-- An integer is its own nearest integer. -/
theorem nearestEven_intCast (n : Int) : nearestEven n = n :=
  nearestEven_eq_iff.2 ⟨by norm_num, fun h ↦ by norm_num at h⟩

theorem le_nearestEven (h : (k : Rat) ≤ x) : k ≤ nearestEven x := by
  rw [← nearestEven_intCast k]
  exact nearestEven_mono h

theorem nearestEven_le (h : x ≤ k) : nearestEven x ≤ k := by
  rw [← nearestEven_intCast k]
  exact nearestEven_mono h

theorem nearestEven_nonneg (hx : 0 ≤ x) : 0 ≤ nearestEven x :=
  le_nearestEven (by exact_mod_cast hx)

theorem natAbs_nearestEven_le {b : Nat} (h : |x| ≤ b) : (nearestEven x).natAbs ≤ b := by
  obtain ⟨hlow, hhigh⟩ := abs_le.1 h
  have hge : -(b : Int) ≤ nearestEven x := le_nearestEven (by exact_mod_cast hlow)
  have hle : nearestEven x ≤ b := nearestEven_le (by exact_mod_cast hhigh)
  omega

/-- A number that is nearer to zero is not rounded to a longer integer. -/
theorem natAbs_nearestEven_mono (h : |x| ≤ |y|) :
    (nearestEven x).natAbs ≤ (nearestEven y).natAbs := by
  obtain ⟨hlow, hhigh⟩ := abs_le.1 h
  have hge := nearestEven_mono hlow
  have hle := nearestEven_mono hhigh
  rcases abs_choice y with hy | hy
  · rw [hy] at hge hle
    rw [nearestEven_neg] at hge
    omega
  · rw [hy, neg_neg] at hge
    rw [hy, nearestEven_neg] at hle
    omega

/-! ## Multiples of an even integer -/

/-- A number is rounded to an even integer if it lies within one half of it, ties included. -/
theorem nearestEven_eq_iff_of_even (hk : k % 2 = 0) : nearestEven x = k ↔ |x - k| ≤ 1 / 2 :=
  nearestEven_eq_iff.trans ⟨IsNearest.near, fun h ↦ ⟨h, fun _ ↦ hk⟩⟩

/-- On a finer grid, a number is rounded to a point with an even number there if it lies within half
a unit of that grid from the point, ties included. -/
theorem nearestEven_mul_eq_iff {g : Nat} (hpos : 0 < g) {c : Rat} (hc : c * g = k)
    (hk : k % 2 = 0) :
    nearestEven (x * g) = k ↔ |x - c| ≤ 1 / (2 * g) := by
  have hg : (0 : Rat) < g := by exact_mod_cast hpos
  have habs : |x * g - k| = |x - c| * g := by rw [← hc, ← sub_mul, abs_mul, abs_of_pos hg]
  rw [nearestEven_eq_iff_of_even hk, habs, ← le_div_iff₀ hg, div_div]

/-- On a grid that is an even number of times as fine, a number is rounded to a point of the coarse
grid just if it lies within half a unit of the fine grid from it. -/
theorem dvd_nearestEven_iff {g : Nat} (hpos : 0 < g) (heven : g % 2 = 0) :
    (g : Int) ∣ nearestEven (x * g) ↔ ∃ k : Int, |x - k| ≤ 1 / (2 * g) := by
  have hscale : ∀ k : Int, nearestEven (x * g) = g * k ↔ |x - k| ≤ 1 / (2 * g) := by
    intro k
    have hmultiple : (g * k : Int) % 2 = 0 := by
      rw [Int.mul_emod, show (g : Int) % 2 = 0 by omega]
      simp
    exact nearestEven_mul_eq_iff hpos (by push_cast; ring) hmultiple
  constructor
  · rintro ⟨k, hk⟩
    exact ⟨k, (hscale k).1 hk⟩
  · rintro ⟨k, hk⟩
    exact ⟨k, (hscale k).2 hk⟩

end Reckon
