import Reckon.Proofs.Binary64.Shortest
import Reckon.Proofs.Json.Writing

/-!
# Binary numbers in a document

A binary number that has been read can be written, and is then read again (`read_write_float`).
What is written are the digits of a shortest decimal, from which the number can be read back
(`Binary64.IsCanonical.exists_isShortest_shortest`).  Zeros at their end say nothing about the
decimal, and neither does the layout: with the point among the digits or with a power of ten, the
text has the parts of a number, and these have the value of the decimal (`writesFraction_layOut`).
-/

set_option autoImplicit false

namespace Reckon
namespace Json

/-- A text has the parts of a number that is not whole, and they have this value together. -/
def WritesFraction (s : Text) (y : Rat) : Prop :=
  ∃ whole places power : Text, ∃ fraction : Rat, ∃ e : Int,
    s = whole ++ (places ++ power) ∧ IsWhole whole ∧ IsPlaces places fraction ∧ IsPower power e ∧
      (places ≠ [] ∨ power ≠ []) ∧ (digitsValue whole + fraction) * 10 ^ e = y

variable {s t : Text} {point : Int} {n : Nat}

/-! ## Digits -/

theorem digitsValue_replicate_zero (n : Nat) : digitsValue (List.replicate n '0') = 0 := by
  induction n with
  | zero => rfl
  | succ n ih => rw [List.replicate_succ', digitsValue_append, ih, zero_mul]; rfl

theorem IsDigits.append_zeros (ht : IsDigits t) (m n : Nat) :
    IsDigits (List.replicate m '0' ++ (t ++ List.replicate n '0')) := by
  refine ⟨by simp [ht.ne_nil], fun c hc ↦ ?_⟩
  rcases List.mem_append.1 hc with hc | hc
  · rw [List.eq_of_mem_replicate hc]
    rfl
  · rcases List.mem_append.1 hc with hc | hc
    · exact ht.isDigit c hc
    · rw [List.eq_of_mem_replicate hc]
      rfl

/-- Zeros in front of digits say nothing, and those behind them are factors of ten. -/
theorem digitsValue_append_zeros (t : Text) (m n : Nat) :
    digitsValue (List.replicate m '0' ++ (t ++ List.replicate n '0')) = digitsValue t * 10 ^ n := by
  rw [digitsValue_append, digitsValue_append, digitsValue_replicate_zero,
    digitsValue_replicate_zero, List.length_replicate]
  ring

/-- Digits end with the zeros that are not significant. -/
theorem exists_significant (s : Text) :
    ∃ n, s = Binary64.significant s ++ List.replicate n '0' := by
  induction s using List.reverseRecOn with
  | nil => exact ⟨0, rfl⟩
  | append_singleton s c ih =>
    by_cases hc : c = '0'
    · obtain ⟨n, hn⟩ := ih
      have hsame : Binary64.significant (s ++ [c]) = Binary64.significant s := by
        simp [Binary64.significant, hc]
      refine ⟨n + 1, ?_⟩
      rw [hsame, List.replicate_succ', ← List.append_assoc, ← hn, hc]
    · exact ⟨0, by simp [Binary64.significant, hc]⟩

/-- The significant digits of a number other than zero. -/
theorem exists_significant_digits {c : Nat} (hc : c ≠ 0) :
    ∃ t n, Binary64.significant (Numeral.digits c) = t ∧ IsDigits t ∧ t.head? ≠ some '0' ∧
      (Numeral.digits c).length = t.length + n ∧ c = digitsValue t * 10 ^ n := by
  obtain ⟨n, hn⟩ := exists_significant (Numeral.digits c)
  generalize Binary64.significant (Numeral.digits c) = t at hn
  have hvalue : c = digitsValue t * 10 ^ n := by
    have hdigits := Numeral.ofDigits_digits c
    rw [ofDigits_eq_digitsValue, hn] at hdigits
    rw [← hdigits]
    exact digitsValue_append_zeros t 0 n
  have hne : t ≠ [] := fun hnil ↦ hc (by rw [hvalue, hnil]; simp [digitsValue])
  refine ⟨t, n, rfl, ⟨hne, fun d hd ↦ ?_⟩, fun hhead ↦ ?_, by rw [hn]; simp, hvalue⟩
  · exact Numeral.isDigit_of_mem_digits (n := c) (by rw [hn]; exact List.mem_append_left _ hd)
  · rcases Numeral.isTidy_digits c with hzero | htidy
    · have hdigits := Numeral.ofDigits_digits c
      rw [hzero] at hdigits
      exact hc hdigits.symm
    · rw [hn, List.head?_append_of_ne_nil _ hne] at htidy
      exact htidy hhead

/-! ## Layout -/

/-- With the point behind the first of them, digits write a power of ten less for each digit behind
the point. -/
theorem digitsValue_add_div (s t : Text) :
    (digitsValue s : Rat) + digitsValue t / 10 ^ t.length =
      digitsValue (s ++ t) * 10 ^ (-t.length : Int) := by
  rw [digitsValue_append, zpow_neg, zpow_natCast]
  push_cast
  field_simp

theorem isPower_powerText (e : Int) : IsPower (Binary64.powerText e) e := by
  have hdigits : IsDigits (Decimal.padded 2 (Numeral.digits e.natAbs)) :=
    ⟨by simp [Decimal.padded, Numeral.digits_ne_nil],
      Decimal.isDigit_of_mem_padded fun _ ↦ Numeral.isDigit_of_mem_digits⟩
  have hvalue : digitsValue (Decimal.padded 2 (Numeral.digits e.natAbs)) = e.natAbs := by
    rw [← ofDigits_eq_digitsValue, Decimal.ofDigits_padded, Numeral.ofDigits_digits]
  rw [Binary64.powerText]
  split_ifs with hneg
  · have hpower := IsPower.minus (.inl rfl) hdigits
    rwa [hvalue, show -(e.natAbs : Int) = e by omega] at hpower
  · have hpower := IsPower.plus (.inl rfl) hdigits
    rwa [hvalue, show (e.natAbs : Int) = e by omega] at hpower

/-- With the point among them, or among zeros in front of them or behind them. -/
theorem writesFraction_positional (ht : IsDigits t) (hhead : t.head? ≠ some '0') (point : Int) :
    WritesFraction (Binary64.positional t point) (digitsValue t * 10 ^ (point - t.length)) := by
  obtain ⟨front, hfront⟩ : ∃ n, n = (1 - point).toNat := ⟨_, rfl⟩
  obtain ⟨back, hback⟩ : ∃ n, n = (point + 1 - t.length).toNat := ⟨_, rfl⟩
  obtain ⟨whole, hwhole⟩ : ∃ n, n = (max point 1).toNat := ⟨_, rfl⟩
  obtain ⟨shifted, hshifted⟩ :
      ∃ s, s = List.replicate front '0' ++ (t ++ List.replicate back '0') := ⟨_, rfl⟩
  have htext : Binary64.positional t point = shifted.take whole ++ '.' :: shifted.drop whole := by
    rw [hshifted, hfront, hback, hwhole, ← List.append_assoc]
    rfl
  have hdigits : IsDigits shifted := hshifted ▸ ht.append_zeros front back
  have hlength : shifted.length = front + (t.length + back) := by simp [hshifted]
  have htlength := List.length_pos_iff.2 ht.ne_nil
  refine ⟨shifted.take whole, '.' :: shifted.drop whole, [], _, 0, by rw [htext, List.append_nil],
    ⟨⟨?_, ?_⟩, ?_⟩, .some ⟨?_, ?_⟩, .none, .inl (by simp), ?_⟩
  · exact List.length_pos_iff.1 (by rw [List.length_take]; omega)
  · exact fun c hc ↦ hdigits.isDigit c (List.mem_of_mem_take hc)
  · rcases le_or_gt 1 point with hpoint | hpoint
    · right
      rw [List.head?_take, if_neg (by omega), hshifted, show front = 0 by omega,
        List.replicate_zero, List.nil_append, List.head?_append_of_ne_nil _ ht.ne_nil]
      exact hhead
    · left
      obtain ⟨n, hn⟩ : ∃ n, front = n + 1 := ⟨front - 1, by omega⟩
      rw [hshifted, hn, show whole = 1 by omega]
      rfl
  · exact List.length_pos_iff.1 (by rw [List.length_drop]; omega)
  · exact fun c hc ↦ hdigits.isDigit c (List.mem_of_mem_drop hc)
  · have hpoint : (back : Int) + -(shifted.length - whole : Nat) = point - t.length := by omega
    rw [zpow_zero, mul_one, digitsValue_add_div, List.take_append_drop, hshifted,
      digitsValue_append_zeros, ← hshifted, List.length_drop, ← hpoint,
      zpow_add₀ (by norm_num), zpow_natCast]
    push_cast
    ring

/-- With the point behind the first of them, if there are more, and a power of ten. -/
theorem writesFraction_exponential (ht : IsDigits t) (hhead : t.head? ≠ some '0') (point : Int) :
    WritesFraction (Binary64.exponential t point) (digitsValue t * 10 ^ (point - t.length)) := by
  obtain ⟨c, s, rfl⟩ := List.exists_cons_of_ne_nil ht.ne_nil
  have hwhole : IsWhole [c] :=
    ⟨⟨List.cons_ne_nil c [], fun d hd ↦ ht.isDigit d (List.mem_of_mem_take (i := 1) hd)⟩,
      .inr hhead⟩
  have hpower : Binary64.powerText (point - 1) ≠ [] := List.cons_ne_nil _ _
  cases s with
  | nil =>
    refine ⟨[c], [], _, 0, _, rfl, hwhole, .none, isPower_powerText _, .inr hpower, ?_⟩
    rw [add_zero]
    rfl
  | cons d s =>
    have hplaces : IsDigits (d :: s) :=
      ⟨List.cons_ne_nil d s, fun b hb ↦ ht.isDigit b (List.mem_cons_of_mem c hb)⟩
    refine ⟨[c], '.' :: (d :: s), _, _, _, rfl, hwhole, .some hplaces, isPower_powerText _,
      .inr hpower, ?_⟩
    rw [digitsValue_add_div, mul_assoc, ← zpow_add₀ (by norm_num)]
    congr 2
    simp only [List.length_cons]
    omega

theorem writesFraction_layOut (ht : IsDigits t) (hhead : t.head? ≠ some '0') (point : Int) :
    WritesFraction (Binary64.layOut t point) (digitsValue t * 10 ^ (point - t.length)) := by
  rw [Binary64.layOut]
  split_ifs
  · exact writesFraction_positional ht hhead point
  · exact writesFraction_exponential ht hhead point

/-- The significant digits of a positive decimal are laid out with the point where it belongs. -/
theorem writesFraction_text {d : Decimal} (hpos : 0 < d.toRat) :
    WritesFraction (Binary64.layOut (Binary64.significant (Numeral.digits d.coefficient))
      ((Numeral.digits d.coefficient).length + d.exponent)) d.toRat := by
  have hvalue := Decimal.toRat_of_not_negative (Decimal.negative_eq_false_of_pos hpos)
  have hc : d.coefficient ≠ 0 := fun hzero ↦ hpos.ne' (by rw [hvalue, hzero]; simp)
  obtain ⟨t, n, hsignificant, ht, hhead, hlength, hcoefficient⟩ := exists_significant_digits hc
  have hsame : (digitsValue t : Rat) *
      10 ^ ((Numeral.digits d.coefficient).length + d.exponent - t.length) = d.toRat := by
    have hexponent :
        ((Numeral.digits d.coefficient).length + d.exponent - t.length : Int) = n + d.exponent := by
      omega
    rw [hvalue, hexponent, hcoefficient, zpow_add₀ (by norm_num), zpow_natCast]
    push_cast
    ring
  rw [hsignificant, ← hsame]
  exact writesFraction_layOut ht hhead _

/-! ## Numbers -/

variable {negative : Bool} {x : Binary64} {y : Rat}

/-- The text is a lexeme of the binary number nearest to its value. -/
theorem WritesFraction.lexeme (h : WritesFraction s y) (hrounds : Binary64.Rounds negative y x) :
    Lexeme (Literal.signText negative ++ s) (.float x) := by
  obtain ⟨whole, places, power, fraction, e, rfl, hwhole, hplaces, hpower, hparts, rfl⟩ := h
  exact .float negative hwhole hplaces hpower hparts hrounds

/-- The text of a number of the format is a lexeme of it. -/
theorem lexeme_text {m : Nat} {e : Int} (h : Binary64.IsCanonical m e) (negative : Bool) :
    Lexeme (Binary64.finite negative m e).text (.float (.finite negative m e)) := by
  cases m with
  | zero =>
    have hexponent : e = -1074 := h.full.resolve_left (by norm_num)
    have hdigit : IsDigits ['0'] := ⟨List.cons_ne_nil _ _, by simp⟩
    have hzero : WritesFraction "0.0".toList 0 :=
      ⟨['0'], ['.', '0'], [], _, 0, rfl, ⟨hdigit, .inl rfl⟩, .some hdigit, .none,
        .inl (List.cons_ne_nil _ _), by simp [digitsValue]⟩
    subst hexponent
    exact hzero.lexeme (Binary64.rounds_zero negative)
  | succ m =>
    obtain ⟨n, hshortest⟩ := h.exists_isShortest_shortest m.succ_pos
    exact (writesFraction_text (hshortest.rounds.pos m.succ_pos)).lexeme
      (hshortest.rounds.withSign negative)

/-- **What is written for a number of the format is a lexeme of it**, also for one that is not
finite. -/
theorem lexeme_floatText (h : x.OfFormat) : Lexeme (floatText x) (.float x) := by
  cases h with
  | finite negative h => exact lexeme_text h negative
  | infinite negative =>
    cases negative with
    | false => exact .keyword .infinity
    | true => exact .keyword .minusInfinity
  | nan => exact .keyword .nan

/-- Only numbers of the format are read. -/
theorem Lexeme.ofFormat (h : Lexeme s (.float x)) : x.OfFormat := by
  cases h with
  | keyword h =>
    cases h with
    | nan => exact .nan
    | infinity => exact .infinite false
    | minusInfinity => exact .infinite true
  | float _ _ _ _ _ hrounds => exact hrounds.ofFormat

/-- So a binary number that has been read can be written, and is then read again. -/
theorem read_write_float (h : Lexeme s (.float x)) (room : Nat) :
    read room (write (.float x)) = .ok (.float x) := by
  have hspells : Spells room (floatText x) (.float x) :=
    (lexeme_floatText h.ofFormat).spells rfl (.float x)
  obtain ⟨ts, hlayout, hderives, hfits⟩ := hspells
  exact read_eq_ok_iff.2 ⟨⟨ts, hlayout, hderives⟩,
    fun _ ↦ hlayout.not_meetsTooDeep hderives.isChain hfits.nests⟩

end Json
end Reckon
