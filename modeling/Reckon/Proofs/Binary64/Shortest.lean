import Mathlib.Algebra.Order.Group.Pointwise.Interval
import Reckon.Binary64.Shortest
import Reckon.Proofs.Binary64.Nearest
import Reckon.Proofs.Decimal.Exact

/-!
# The shortest decimal

Which decimal stands for a number of the format is said here without the search for it: one that
reads back as the number, has as few digits as any that does, and is as near to the number as any of
those with as few (`IsShortest`).  The search finds one (`exists_isShortest_shortest`), so every
number can be read back from it (`ofDecimal_shortest`).

What reads back as one number lies around it without a gap (`Rounds.of_mem_uIcc`).  So where
anything with `n` digits reads back, a multiple of the power of ten that gives the number `n` digits
does so too and is no farther away (`HasDigits.exists_multiple`), and then one of the two multiples
next to the number does (`exists_mem_neighbours`).  Seventeen digits are enough, since the multiples
are then closer to each other than the numbers of the format (`IsCanonical.rounds_of_near`).
-/

set_option autoImplicit false

namespace Reckon
namespace Binary64

/-- A number can be written with so many significant digits. -/
def HasDigits (n : Nat) (y : Rat) : Prop := ∃ c : Nat, ∃ k : Int, c < 10 ^ n ∧ y = c * 10 ^ k

/-- A number with `n` digits reads back as `m · 2 ^ e`, none does with fewer digits, and of those
with `n` digits that do none is nearer. -/
structure IsShortest (m : Nat) (e : Int) (n : Nat) (y : Rat) : Prop where
  digits : HasDigits n y
  rounds : Rounds false y (.finite false m e)
  fewest : ∀ n' z, HasDigits n' z → Rounds false z (.finite false m e) → n ≤ n'
  nearest : ∀ z, HasDigits n z → Rounds false z (.finite false m e) →
    |y - magnitude m e| ≤ |z - magnitude m e|

variable {m n : Nat} {e k : Int} {x y z : Rat} {d : Decimal} {negative : Bool}

theorem ten_zpow_pos (k : Int) : (0 : Rat) < 10 ^ k := zpow_pos (by norm_num) k

/-! ## The power of ten below a number -/

theorem ten_zpow_length_digits {c : Nat} (hc : c ≠ 0) :
    (10 : Rat) ^ ((Numeral.digits c).length - 1 : Int) ≤ c ∧
      (c : Rat) < 10 ^ ((Numeral.digits c).length - 1 + 1 : Int) := by
  have hbounds := bounds_of_digits hc 0
  rw [zpow_zero, mul_one, zero_add] at hbounds
  rwa [Int.sub_add_cancel]

theorem floorLog10_spec (hx : 0 < x) :
    (10 : Rat) ^ floorLog10 x ≤ x ∧ x < 10 ^ (floorLog10 x + 1) := by
  refine zpow_floor_spec (by norm_num) hx (ten_zpow_length_digits (natAbs_num_ne_zero hx))
    (ten_zpow_length_digits x.den_ne_zero) ?_
  rw [sub_sub_sub_cancel_right]
  rfl

/-! ## What reads back as a number -/

theorem magnitude_pos (hm : 0 < m) (e : Int) : 0 < magnitude m e :=
  mul_pos (by exact_mod_cast hm) (two_zpow_pos e)

/-- What is less than half a unit above a number of the format does not overflow. -/
theorem IsCanonical.lt_overflow (h : IsCanonical m e) (hy : y < magnitude m e + 2 ^ e / 2) :
    y < 2 ^ 1024 - 2 ^ 970 := by
  have hm : (m : Rat) + 1 ≤ 2 ^ 53 := by exact_mod_cast h.lt
  calc
    y < magnitude m e + 2 ^ e / 2 := hy
    _ = (m + 1 / 2) * 2 ^ e := by
        rw [magnitude]
        ring
    _ ≤ (2 ^ 53 - 1 / 2) * 2 ^ e := mul_le_mul_of_nonneg_right (by linarith) (two_zpow_pos e).le
    _ ≤ (2 ^ 53 - 1 / 2) * 2 ^ (971 : Int) :=
        mul_le_mul_of_nonneg_left (two_zpow_mono h.le) (by norm_num)
    _ = 2 ^ 1024 - 2 ^ 970 := overflow_eq.symm

/-- Between a number of the format and what is rounded to it, everything is rounded to it. -/
theorem IsRounded.of_mem_uIcc (h : IsRounded z m e) (hy : y ∈ Set.uIcc z (magnitude m e)) :
    IsRounded y m e := by
  have hbetween : |z - magnitude m e| = |z - y| + |y - magnitude m e| := by
    rcases Set.mem_uIcc.1 hy with ⟨hlow, hhigh⟩ | ⟨hlow, hhigh⟩
    · rw [abs_of_nonpos (by linarith), abs_of_nonpos (by linarith), abs_of_nonpos (by linarith)]
      ring
    · rw [abs_of_nonneg (by linarith), abs_of_nonneg (by linarith), abs_of_nonneg (by linarith)]
      ring
  refine ⟨h.canonical, fun m' e' h' ↦ ?_, fun m' e' h' htie ↦ ?_⟩
  · have hnearest := h.nearest m' e' h'
    have htriangle := abs_sub_le z y (magnitude m' e')
    linarith
  · have hnearest := h.nearest m' e' h'
    have htriangle := abs_sub_le z y (magnitude m' e')
    exact h.even_of_tie m' e' h' (by linarith)

/-- **What reads back as a number lies around it without a gap.** -/
theorem Rounds.of_mem_uIcc (h : Rounds negative z (.finite negative m e))
    (hy : y ∈ Set.uIcc z (magnitude m e)) : Rounds negative y (.finite negative m e) := by
  cases h with
  | finite hsmall h =>
    have hself : magnitude m e < 2 ^ 1024 - 2 ^ 970 :=
      h.canonical.lt_overflow (lt_add_of_pos_right _ (half_pos (two_zpow_pos e)))
    exact .finite ((Set.mem_Icc.1 hy).2.trans_lt (max_lt hsmall hself)) (h.of_mem_uIcc hy)

theorem isNearest_of_near (hnear : |y - magnitude m e| < 2 ^ e / 2) : IsNearest (y / 2 ^ e) m := by
  rw [abs_sub_magnitude] at hnear
  have hhalf : |y / 2 ^ e - (m : Int)| < 1 / 2 :=
    lt_of_mul_lt_mul_right (by linarith) (two_zpow_pos e).le
  exact ⟨hhalf.le, fun htie ↦ absurd htie hhalf.ne⟩

/-- A number of the format is where everything is rounded to that is less than half a unit away; but
below a power of two the unit is half as great. -/
theorem IsCanonical.isRounded_of_near (h : IsCanonical m e)
    (hnear : |y - magnitude m e| < 2 ^ e / 2)
    (hpower : m = 2 ^ 52 → |y - magnitude m e| < 2 ^ e / 4) : IsRounded y m e := by
  by_cases hbelow : magnitude (2 ^ 52) e ≤ y ∨ e = -1074
  · exact isRounded_of_isNearest (isNearest_of_near hnear) h hbelow
  · -- of the numbers with this exponent, only the least one is as near to what is below them
    obtain ⟨hlt, hexponent⟩ := not_or.1 hbelow
    rw [not_le] at hlt
    have hm : m = 2 ^ 52 := by
      by_contra hne
      have hgt : ((2 ^ 52 : Nat) : Rat) + 1 ≤ m := by
        exact_mod_cast lt_of_le_of_ne (h.full.resolve_right hexponent) (Ne.symm hne)
      have hlow := (abs_lt.1 hnear).1
      have hunit := two_zpow_pos e
      have hstep := mul_le_mul_of_nonneg_right hgt hunit.le
      rw [magnitude] at hlow hlt
      linarith
    subst hm
    obtain ⟨e, rfl⟩ : ∃ e', e = e' + 1 := ⟨e - 1, by ring⟩
    have hgrid : (2 : Rat) ^ (e + 1) = 2 * 2 ^ e := by rw [zpow_add_one₀ two_ne_zero, mul_comm]
    have hge := h.ge
    have hquarter := hpower rfl
    rw [magnitude_carry, hgrid] at hquarter
    refine isRounded_of_isNearest_carry (isNearest_of_near (by linarith)) (by omega) h.le (.inl ?_)
    have hlow := (abs_lt.1 hquarter).1
    have hunit := two_zpow_pos e
    rw [magnitude] at hlow ⊢
    push_cast at hlow ⊢
    linarith

theorem IsCanonical.rounds_of_near (h : IsCanonical m e)
    (hnear : |y - magnitude m e| < 2 ^ e / 2)
    (hpower : m = 2 ^ 52 → |y - magnitude m e| < 2 ^ e / 4) :
    Rounds negative y (.finite negative m e) := by
  refine .finite (h.lt_overflow ?_) (h.isRounded_of_near hnear hpower)
  have hhigh := (abs_lt.1 hnear).2
  linarith

/-! ## Decimals -/

/-- A decimal that reads back as a positive number is positive. -/
theorem rounds_of_ofDecimal_eq (h : ofDecimal d = .finite false m e) :
    d.negative = false ∧ Rounds false d.toRat (.finite false m e) := by
  have hrounds := rounds_ofDecimal d
  rw [h] at hrounds
  have hsign := hrounds.negative_eq
  rw [hsign, ← Decimal.toRat_of_not_negative hsign] at hrounds
  exact ⟨hsign, hrounds⟩

theorem ofDecimal_eq_of_rounds (hd : d.negative = false)
    (h : Rounds false d.toRat (.finite false m e)) : ofDecimal d = .finite false m e := by
  have hrounds := rounds_ofDecimal d
  rw [hd, ← Decimal.toRat_of_not_negative hd] at hrounds
  exact hrounds.unique h

/-! ## Multiples of a power of ten -/

theorem hasDigits_of_le {c : Nat} (hn : 1 ≤ n) (hc : c ≤ 10 ^ n) (k : Int) :
    HasDigits n (c * 10 ^ k) := by
  rcases hc.lt_or_eq with hlt | rfl
  · exact ⟨c, k, hlt, rfl⟩
  · refine ⟨1, n + k, Nat.one_lt_pow (by omega) (by norm_num), ?_⟩
    rw [zpow_add₀ (by norm_num), zpow_natCast]
    push_cast
    ring

/-- Between a number and one with `n` digits lies a multiple of the power of ten that gives the
first one `n` digits.  If the second one is below every such power, this is the least number with as
many digits before the point as the first one. -/
theorem HasDigits.exists_multiple {f : Int} (hz : HasDigits n z) (hn : 1 ≤ n) (hx : 10 ^ f ≤ x) :
    ∃ c : Nat, (c : Rat) * 10 ^ (f - (n - 1 : Nat)) ∈ Set.uIcc z x := by
  obtain ⟨c, k, hc, rfl⟩ := hz
  rcases lt_or_ge ((c : Rat) * 10 ^ k) (10 ^ f) with hlt | hge
  · refine ⟨10 ^ (n - 1), ?_⟩
    have hpower : ((10 ^ (n - 1) : Nat) : Rat) * 10 ^ (f - (n - 1 : Nat)) = 10 ^ f := by
      rw [Nat.cast_pow, Nat.cast_ofNat, ← zpow_natCast, ← zpow_add₀ (by norm_num)]
      congr 1
      ring
    rw [hpower]
    exact Set.mem_uIcc_of_le hlt.le hx
  · have hexponent : f < n + k := by
      refine (zpow_lt_zpow_iff_right₀ (by norm_num : (1 : Rat) < 10)).1 ?_
      calc
        (10 : Rat) ^ f ≤ c * 10 ^ k := hge
        _ < 10 ^ n * 10 ^ k := mul_lt_mul_of_pos_right (by exact_mod_cast hc) (ten_zpow_pos k)
        _ = 10 ^ (n + k : Int) := by rw [zpow_add₀ (by norm_num), zpow_natCast]
    obtain ⟨i, hi⟩ := Int.le.dest (show f - (n - 1 : Nat) ≤ k by omega)
    refine ⟨c * 10 ^ i, ?_⟩
    have hsame : ((c * 10 ^ i : Nat) : Rat) * 10 ^ (f - (n - 1 : Nat)) = c * 10 ^ k := by
      rw [← hi, zpow_add₀ (by norm_num), zpow_natCast]
      push_cast
      ring
    rw [hsame]
    exact Set.left_mem_uIcc

/-! ## The multiples next to a number -/

theorem neighbours_of_lt (h : (nearestEven (x / 10 ^ k) : Rat) < x / 10 ^ k) :
    neighbours x k = [Decimal.ofUnits (nearestEven (x / 10 ^ k)) k,
      Decimal.ofUnits (nearestEven (x / 10 ^ k) + 1) k] := by
  simp only [neighbours, if_pos h]

theorem neighbours_of_le (h : x / 10 ^ k ≤ nearestEven (x / 10 ^ k)) :
    neighbours x k = [Decimal.ofUnits (nearestEven (x / 10 ^ k)) k,
      Decimal.ofUnits (nearestEven (x / 10 ^ k) - 1) k] := by
  simp only [neighbours, if_neg (not_lt.2 h)]

/-- One of them lies between the number and any other multiple. -/
theorem exists_mem_neighbours (x : Rat) (k : Int) (c : Nat) :
    ∃ w : Int, Decimal.ofUnits w k ∈ neighbours x k ∧
      (w : Rat) * 10 ^ k ∈ Set.uIcc ((c : Rat) * 10 ^ k) x := by
  obtain ⟨w, hmem, hw⟩ : ∃ w : Int, Decimal.ofUnits w k ∈ neighbours x k ∧
      (w : Rat) ∈ Set.uIcc ((c : Int) : Rat) (x / 10 ^ k) := by
    obtain ⟨hlow, hhigh⟩ := abs_le.1 (isNearest_nearestEven (x / 10 ^ k)).near
    rcases lt_or_ge (nearestEven (x / 10 ^ k) : Rat) (x / 10 ^ k) with hlt | hge
    · rw [neighbours_of_lt hlt]
      rcases le_or_gt (c : Int) (nearestEven (x / 10 ^ k)) with hc | hc
      · exact ⟨_, List.mem_cons_self, Set.mem_uIcc_of_le (by exact_mod_cast hc) hlt.le⟩
      · refine ⟨_, List.mem_cons_of_mem _ List.mem_cons_self, Set.mem_uIcc_of_ge ?_ ?_⟩
        · push_cast
          linarith
        · exact_mod_cast hc
    · rw [neighbours_of_le hge]
      rcases le_or_gt (nearestEven (x / 10 ^ k)) (c : Int) with hc | hc
      · exact ⟨_, List.mem_cons_self, Set.mem_uIcc_of_ge hge (by exact_mod_cast hc)⟩
      · refine ⟨_, List.mem_cons_of_mem _ List.mem_cons_self, Set.mem_uIcc_of_le ?_ ?_⟩
        · exact_mod_cast Int.le_sub_one_of_lt hc
        · push_cast
          linarith
  have hscaled := Set.mem_image_of_mem (· * (10 : Rat) ^ k) hw
  rw [Set.image_mul_const_uIcc, div_mul_cancel₀ _ (ten_zpow_pos k).ne', Int.cast_natCast] at hscaled
  exact ⟨w, hmem, hscaled⟩

/-- The first of them is nearer than any other multiple, or as near. -/
theorem abs_nearestEven_mul_sub_le (x : Rat) (k w : Int) :
    |nearestEven (x / 10 ^ k) * (10 : Rat) ^ k - x| ≤ |w * (10 : Rat) ^ k - x| := by
  rw [abs_sub_comm, abs_sub_comm _ x, abs_sub_mul (ten_zpow_pos k), abs_sub_mul (ten_zpow_pos k)]
  exact mul_le_mul_of_nonneg_right ((isNearest_nearestEven _).abs_sub_le w) (ten_zpow_pos k).le

/-- They have no more digits than the number has before the point. -/
theorem exists_ofUnits_of_mem_neighbours (hx : x < 10 ^ n * 10 ^ k) (hd : d ∈ neighbours x k) :
    ∃ w : Int, d = Decimal.ofUnits w k ∧ w ≤ (10 ^ n : Nat) := by
  have hquotient : x / 10 ^ k < ((10 ^ n : Nat) : Int) := by
    push_cast
    rwa [div_lt_iff₀ (ten_zpow_pos k)]
  have hnear := nearestEven_le hquotient.le
  rcases lt_or_ge (nearestEven (x / 10 ^ k) : Rat) (x / 10 ^ k) with hlt | hge
  · rw [neighbours_of_lt hlt, List.mem_cons, List.mem_singleton] at hd
    rcases hd with rfl | rfl
    · exact ⟨_, rfl, hnear⟩
    · exact ⟨_, rfl, by exact_mod_cast hlt.trans hquotient⟩
  · rw [neighbours_of_le hge, List.mem_cons, List.mem_singleton] at hd
    rcases hd with rfl | rfl
    · exact ⟨_, rfl, hnear⟩
    · exact ⟨_, rfl, by omega⟩

/-- Of those that meet a condition, the one that is found first is nearest to the number. -/
theorem abs_sub_le_of_find? {p : Decimal → Bool} {d' : Decimal}
    (hfind : (neighbours x k).find? p = some d) (hmem : d' ∈ neighbours x k) (hp : p d' = true) :
    |d.toRat - x| ≤ |d'.toRat - x| := by
  obtain ⟨w, hw⟩ : ∃ w, neighbours x k =
      [Decimal.ofUnits (nearestEven (x / 10 ^ k)) k, Decimal.ofUnits w k] := ⟨_, rfl⟩
  rw [hw] at hfind hmem
  rw [List.mem_cons, List.mem_singleton] at hmem
  by_cases hnear : p (Decimal.ofUnits (nearestEven (x / 10 ^ k)) k) = true
  · rw [List.find?_cons_of_pos hnear] at hfind
    cases hfind
    rw [Decimal.toRat_ofUnits]
    rcases hmem with rfl | rfl
    · rw [Decimal.toRat_ofUnits]
    · rw [Decimal.toRat_ofUnits]
      exact abs_nearestEven_mul_sub_le x k w
  · rcases hmem with rfl | rfl
    · exact absurd hp hnear
    · rw [List.find?_cons_of_neg hnear, List.find?_cons_of_pos hp] at hfind
      cases hfind
      exact le_rfl

/-! ## The search -/

/-- If something with `n` digits reads back, so does one of the neighbours that have `n` digits, and
it is no farther away. -/
theorem exists_neighbour (hm : 0 < m) (hn : 1 ≤ n) (hz : HasDigits n z)
    (hrounds : Rounds false z (.finite false m e)) :
    ∃ d ∈ neighbours (magnitude m e) (floorLog10 (magnitude m e) - (n - 1 : Nat)),
      ofDecimal d = .finite false m e ∧ |d.toRat - magnitude m e| ≤ |z - magnitude m e| := by
  have hpos := magnitude_pos hm e
  obtain ⟨c, hc⟩ := hz.exists_multiple hn (floorLog10_spec hpos).1
  generalize floorLog10 (magnitude m e) - (n - 1 : Nat) = k at *
  obtain ⟨w, hmem, hw⟩ := exists_mem_neighbours (magnitude m e) k c
  have hbetween := Set.uIcc_subset_uIcc hc Set.right_mem_uIcc hw
  have hnonneg : 0 ≤ w := by
    have hlow : 0 ≤ (w : Rat) * 10 ^ k :=
      (le_min (mul_nonneg (Nat.cast_nonneg c) (ten_zpow_pos k).le) hpos.le).trans hw.1
    exact_mod_cast nonneg_of_mul_nonneg_left hlow (ten_zpow_pos k)
  have hsign : (Decimal.ofUnits w k).negative = false := decide_eq_false (not_lt.2 hnonneg)
  refine ⟨_, hmem, ofDecimal_eq_of_rounds hsign ?_, ?_⟩
  · rw [Decimal.toRat_ofUnits]
    exact hrounds.of_mem_uIcc hbetween
  · rw [Decimal.toRat_ofUnits, abs_sub_comm, abs_sub_comm z]
    exact Set.abs_sub_right_of_mem_uIcc hbetween

/-- The neighbours that have `n` digits are enough to tell whether anything with `n` digits reads
back, and what is found is the nearest. -/
theorem isShortest_of_find? (hm : 0 < m) (hn : 1 ≤ n)
    (hfewest : ∀ n' z, HasDigits n' z → Rounds false z (.finite false m e) → n ≤ n')
    (hfind : (neighbours (magnitude m e) (floorLog10 (magnitude m e) - (n - 1 : Nat))).find?
      (fun d ↦ ofDecimal d = .finite false m e) = some d) :
    IsShortest m e n d.toRat := by
  have htarget : ofDecimal d = .finite false m e := by simpa using List.find?_some hfind
  obtain ⟨hsign, hrounds⟩ := rounds_of_ofDecimal_eq htarget
  refine ⟨?_, hrounds, hfewest, fun z hz hzrounds ↦ ?_⟩
  · have hhigh := (floorLog10_spec (magnitude_pos hm e)).2
    have hpower : (10 : Rat) ^ (floorLog10 (magnitude m e) + 1) =
        10 ^ n * 10 ^ (floorLog10 (magnitude m e) - (n - 1 : Nat)) := by
      rw [← zpow_natCast, ← zpow_add₀ (by norm_num)]
      congr 1
      omega
    rw [hpower] at hhigh
    obtain ⟨w, rfl, hw⟩ :=
      exists_ofUnits_of_mem_neighbours hhigh (List.mem_of_find?_eq_some hfind)
    have hnonneg : 0 ≤ w := not_lt.1 (of_decide_eq_false hsign)
    lift w to Nat using hnonneg
    rw [Decimal.toRat_ofUnits, Int.cast_natCast]
    exact hasDigits_of_le hn (by exact_mod_cast hw) _
  · obtain ⟨d', hmem, hd', hle⟩ := exists_neighbour hm hn hz hzrounds
    exact (abs_sub_le_of_find? hfind hmem (decide_eq_true hd')).trans hle

/-- Seventeen digits are enough to be read back. -/
theorem IsCanonical.exists_rounds (h : IsCanonical m e) (hm : 0 < m) :
    ∃ z, HasDigits 17 z ∧ Rounds false z (.finite false m e) := by
  obtain ⟨hlow, hhigh⟩ := floorLog10_spec (magnitude_pos hm e)
  obtain ⟨k, hk⟩ : ∃ k, floorLog10 (magnitude m e) = 16 + k := ⟨_, (add_sub_cancel _ _).symm⟩
  have hunit := ten_zpow_pos k
  rw [hk, zpow_add₀ (by norm_num)] at hlow
  rw [hk, add_right_comm, zpow_add₀ (by norm_num)] at hhigh
  norm_num at hlow hhigh
  have hnear := isNearest_nearestEven (magnitude m e / 10 ^ k)
  have hdistance :
      |nearestEven (magnitude m e / 10 ^ k) * (10 : Rat) ^ k - magnitude m e| ≤ 10 ^ k / 2 := by
    rw [abs_sub_comm, abs_sub_mul hunit]
    linarith [mul_le_mul_of_nonneg_right hnear.near hunit.le]
  obtain ⟨c, hc⟩ := Int.eq_ofNat_of_zero_le
    (nearestEven_nonneg (div_nonneg (magnitude_pos hm e).le hunit.le))
  have hcoefficient : c ≤ 10 ^ 17 := by
    have hle : nearestEven (magnitude m e / 10 ^ k) ≤ ((10 ^ 17 : Nat) : Int) :=
      nearestEven_le (by rw [div_le_iff₀ hunit]; push_cast; linarith)
    rw [hc] at hle
    exact_mod_cast hle
  rw [hc, Int.cast_natCast] at hdistance
  refine ⟨_, hasDigits_of_le (by norm_num) hcoefficient k, h.rounds_of_near ?_ fun hpower ↦ ?_⟩
  · have hsignificand : (m : Rat) * 2 ^ e < 2 ^ 53 * 2 ^ e :=
      mul_lt_mul_of_pos_right (by exact_mod_cast h.lt) (two_zpow_pos e)
    rw [magnitude] at hlow
    linarith
  · rw [magnitude, hpower] at hlow
    push_cast at hlow
    have hpos := two_zpow_pos e
    linarith

/-- The search with `n` digits and more finds a shortest decimal, if there is none with fewer digits
and the tries reach seventeen. -/
theorem IsCanonical.exists_isShortest_shortestFrom (h : IsCanonical m e) (hm : 0 < m) {tries : Nat}
    (hn : 1 ≤ n) (htries : 17 < n + tries)
    (hfewest : ∀ n' z, HasDigits n' z → Rounds false z (.finite false m e) → n ≤ n') :
    ∃ n', IsShortest m e n'
      (shortestFrom (.finite false m e) (magnitude m e) n tries).toRat := by
  induction tries generalizing n with
  | zero =>
    obtain ⟨z, hz, hrounds⟩ := h.exists_rounds hm
    have hle := hfewest 17 z hz hrounds
    omega
  | succ tries ih =>
    rw [shortestFrom]
    split
    · next d hfind => exact ⟨n, isShortest_of_find? hm hn hfewest hfind⟩
    · next hnone =>
      refine ih (by omega) (by omega) fun n' z hz hrounds ↦ ?_
      refine lt_of_le_of_ne (hfewest n' z hz hrounds) fun heq ↦ ?_
      subst heq
      obtain ⟨d, hmem, hd, -⟩ := exists_neighbour hm hn hz hrounds
      exact List.find?_eq_none.1 hnone d hmem (decide_eq_true hd)

/-- What reads back as a positive number is positive, since zero is a number too. -/
theorem IsRounded.pos (h : IsRounded y m e) (hm : 0 < m) : 0 < y := by
  by_contra! hy
  have hzero : IsCanonical 0 (-1074) := ⟨by norm_num, le_rfl, by norm_num, .inr rfl⟩
  have hnearest := h.nearest _ _ hzero
  have hpos := magnitude_pos hm e
  rw [show magnitude 0 (-1074) = 0 by simp [magnitude], sub_zero, abs_of_nonpos hy,
    abs_of_nonpos (by linarith)] at hnearest
  linarith

theorem Rounds.pos (h : Rounds negative y (.finite negative m e)) (hm : 0 < m) : 0 < y := by
  cases h with
  | finite _ h => exact h.pos hm

/-- **What is found is a shortest decimal.** -/
theorem IsCanonical.exists_isShortest_shortest (h : IsCanonical m e) (hm : 0 < m) :
    ∃ n, IsShortest m e n (shortest m e).toRat := by
  refine h.exists_isShortest_shortestFrom hm le_rfl (by norm_num [enoughDigits]) ?_
  intro n z hz hrounds
  refine Nat.one_le_iff_ne_zero.2 fun hn ↦ (hrounds.pos hm).ne' ?_
  subst hn
  obtain ⟨c, k, hc, rfl⟩ := hz
  rw [Nat.lt_one_iff.1 hc, Nat.cast_zero, zero_mul]

/-- So the number can be read back from it. -/
theorem IsCanonical.ofDecimal_shortest (h : IsCanonical m e) (hm : 0 < m) :
    ofDecimal (shortest m e) = .finite false m e := by
  obtain ⟨n, hshortest⟩ := h.exists_isShortest_shortest hm
  exact ofDecimal_eq_of_rounds (Decimal.negative_eq_false_of_pos (hshortest.rounds.pos hm))
    hshortest.rounds

end Binary64
end Reckon
