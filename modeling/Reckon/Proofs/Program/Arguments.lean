import Mathlib.Data.List.TakeWhile
import Reckon.Program.Arguments
import Reckon.Proofs.Scale
import Reckon.Proofs.Stray

/-!
# Expressions and numbers as arguments

An argument that begins with `-` is an option to the command line, unless it is a negative number
or has a space in it; then it is an expression like any other (`readsAsOption`).  For an expression
with a value this is all there is to it (`classify?_of_strays_eq_nil`): there is no letter and no
equals sign in it, so it is none of the options that there are, be they cut short or with a value.

A whole number that is written in digits is read again, negative or not, if there are not too many
of them (`integer?_ofInt`).
-/

set_option autoImplicit false

namespace Reckon
namespace Program

/-! ## Whole numbers -/

theorem digitValue?_of_isDigit {c : Char} (h : c.isDigit = true) :
    Text.digitValue? c = some (c.toNat - '0'.toNat) := by
  have hbounds : 48 ≤ c.toNat ∧ c.toNat < 58 :=
    (Char.isDigit_iff_toNat.1 h).imp_right Nat.lt_succ_of_le
  rw [Text.digitValue?, Text.zeros, List.find?_cons_of_pos]
  · rfl
  · simp [hbounds]

theorem digitsValue?_of_isDigit {s : Text} (hs : ∀ c ∈ s, c.isDigit = true) (n : Nat) :
    digitsValue? n s = some (Nat.ofDigitChars 10 s n) := by
  induction s generalizing n with
  | nil => rfl
  | cons c s ih =>
    rw [List.forall_mem_cons] at hs
    rw [digitsValue?, digitValue?_of_isDigit hs.1, Option.bind_some, ih hs.2,
      Nat.ofDigitChars_cons]
    rintro d t rfl rfl
    cases hs.1

theorem natural?_of_isDigit {s : Text} (hs : ∀ c ∈ s, c.isDigit = true) (hne : s ≠ []) :
    natural? s = if Numeral.maxDigits < s.length then none else some (Numeral.ofDigits s) := by
  have hfilter : s.filter (· ≠ '_') = s := by
    refine List.filter_eq_self.2 fun c hc ↦ decide_eq_true ?_
    rintro rfl
    cases hs _ hc
  obtain ⟨c, t, rfl⟩ := List.exists_cons_of_ne_nil hne
  rw [List.forall_mem_cons] at hs
  rw [natural?.eq_def, hfilter]
  dsimp only
  rw [digitValue?_of_isDigit hs.1, Option.bind_some, digitsValue?_of_isDigit hs.2,
    Numeral.ofDigits, Nat.ofDigitChars_cons, Nat.mul_zero, Nat.zero_add]

theorem natural?_digits (n : Nat) :
    natural? (Numeral.digits n) = if Numeral.isOverlong n then none else some n := by
  rw [natural?_of_isDigit (fun _ ↦ Numeral.isDigit_of_mem_digits) (Numeral.digits_ne_nil n),
    Numeral.ofDigits_digits]
  simp only [Numeral.isOverlong_iff]

theorem isMargin_of_isDigit {c : Char} (h : c.isDigit = true) : isMargin c = false := by
  rw [isMargin, Text.isBlank_of_isDigit h, Flat.isSpace_of_isDigit h]
  rfl

/-- A whole number in digits is made of characters that are no margin. -/
theorem isMargin_of_mem_ofInt {z : Int} {c : Char} (hc : c ∈ Numeral.ofInt z) :
    isMargin c = false := by
  rw [Numeral.ofInt] at hc
  split_ifs at hc
  · rcases List.mem_cons.1 hc with rfl | hc
    · rfl
    · exact isMargin_of_isDigit (Numeral.isDigit_of_mem_digits hc)
  · exact isMargin_of_isDigit (Numeral.isDigit_of_mem_digits hc)

theorem dropWhile_isMargin {s : Text} (h : ∀ c ∈ s, isMargin c = false) :
    s.dropWhile isMargin = s := by
  cases s with
  | nil => rfl
  | cons c s => rw [List.dropWhile_cons_of_neg]; simp [h c List.mem_cons_self]

/-- A whole number that is written in digits is read again, if there are not too many of them. -/
theorem integer?_ofInt (z : Int) :
    integer? (Numeral.ofInt z) = if Numeral.isOverlong z.natAbs then none else some z := by
  have hmargin : ∀ c ∈ Numeral.ofInt z, isMargin c = false := fun _ ↦ isMargin_of_mem_ofInt
  rw [integer?, dropWhile_isMargin hmargin,
    dropWhile_isMargin fun c hc ↦ hmargin c (List.mem_reverse.1 hc), List.reverse_reverse]
  have hdigits : ∀ c ∈ Numeral.digits z.natAbs, c.isDigit = true := fun _ ↦
    Numeral.isDigit_of_mem_digits
  rw [Numeral.ofInt]
  by_cases hneg : z < 0
  · rw [if_pos hneg]
    show ((natural? (Numeral.digits z.natAbs)).bind fun n ↦ some (n : Int)).map (fun n ↦ -n) = _
    rw [natural?_digits]
    split_ifs
    · rfl
    · exact congrArg some (show -(z.natAbs : Int) = z by omega)
  · rw [if_neg hneg]
    split
    · next heq =>
      rw [heq] at hdigits
      cases hdigits '-' List.mem_cons_self
    · next heq =>
      rw [heq] at hdigits
      cases hdigits '+' List.mem_cons_self
    · rw [natural?_digits]
      split_ifs
      · rfl
      · exact congrArg some (show (z.natAbs : Int) = z by omega)

/-! ## What an argument is -/

/-- Whether an argument begins with `-` and is neither a negative number nor a text with a space in
it. -/
def readsAsOption (s : Text) : Bool :=
  s.head? = some '-' && !(isUnsigned s.tail || s.contains ' ')

theorem splitEquals_of_not_mem {s : Text} (h : '=' ∉ s) : splitEquals s = (s, none) := by
  have hnil : s.dropWhile (· ≠ '=') = [] :=
    List.dropWhile_eq_nil_iff.2 fun c hc ↦ decide_eq_true (by rintro rfl; exact h hc)
  rw [splitEquals, hnil]

theorem readsAsOption_of_head?_ne {s : Text} (h : s.head? ≠ some '-') :
    readsAsOption s = false := by
  rw [readsAsOption, decide_eq_false h, Bool.false_and]

theorem other_hyphen (t : Text) :
    other ('-' :: t) = if readsAsOption ('-' :: t) then .unknown else .plain ('-' :: t) := by
  rw [other, readsAsOption, List.head?_cons, decide_eq_true rfl, Bool.true_and]
  cases isUnsigned ('-' :: t).tail || List.contains ('-' :: t) ' ' <;> rfl

theorem isPrefixOf_hyphens {c d : Char} {t u : Text} (h : c ≠ d) :
    List.isPrefixOf ('-' :: '-' :: c :: t) ('-' :: '-' :: d :: u) = false := by
  simp [List.isPrefixOf, h]

/-- An argument without letters and equals signs is an expression, or an option that does not
exist. -/
theorem classify?_of_strays_eq_nil {s : Text} (hs : strays s = []) (hhyphen : s ≠ ['-'])
    (hhyphens : s ≠ ['-', '-']) :
    classify? s = some (if readsAsOption s then .unknown else .plain s) := by
  have hnone : ∀ c ∈ s, isStray c = false := fun c hc ↦
    Bool.eq_false_iff.2 (List.filter_eq_nil_iff.1 hs c hc)
  have hequals : '=' ∉ s := fun hmem ↦ absurd (hnone _ hmem) (by decide)
  have hletter : 'h' ∉ s ∧ 's' ∉ s :=
    ⟨fun hmem ↦ absurd (hnone _ hmem) (by decide), fun hmem ↦ absurd (hnone _ hmem) (by decide)⟩
  unfold classify?
  split
  -- Behind two hyphens there is a character that neither long option has in its place.
  · next t =>
    obtain ⟨c, t, rfl⟩ := List.exists_cons_of_ne_nil (l := t) (by rintro rfl; exact hhyphens rfl)
    have hc : c ≠ 'h' ∧ c ≠ 's' := by
      simp only [List.mem_cons, not_or] at hletter
      exact ⟨Ne.symm hletter.1.2.2.1, Ne.symm hletter.2.2.2.1⟩
    have hhelp : List.isPrefixOf ('-' :: '-' :: c :: t) helpOption = false :=
      isPrefixOf_hyphens hc.1
    have hscale : List.isPrefixOf ('-' :: '-' :: c :: t) scaleOption = false :=
      isPrefixOf_hyphens hc.2
    rw [splitEquals_of_not_mem hequals]
    simp only [hhelp, hscale, other_hyphen]
  · exact absurd rfl hhyphen
  · exact absurd (by simp) hletter.1
  · rw [other_hyphen]
  · next hhead =>
    rw [readsAsOption_of_head?_ne]
    · rfl
    · intro h
      obtain ⟨t, rfl⟩ := List.head?_eq_some_iff.1 h
      exact hhead t rfl

theorem strays_ofInt (z : Int) : strays (Numeral.ofInt z) = [] := by
  have hproper : (⟨z < 0, Numeral.digits z.natAbs, []⟩ : Literal).IsProper :=
    ⟨Numeral.digits_ne_nil _, fun _ ↦ Numeral.isDigit_of_mem_digits, by simp⟩
  have htext : (⟨z < 0, Numeral.digits z.natAbs, []⟩ : Literal).text = Numeral.ofInt z := by
    rw [Literal.text, Literal.placesText, List.append_nil, Literal.signText, Numeral.ofInt]
    by_cases hneg : z < 0 <;> simp [hneg]
  rw [← htext, strays_text hproper]

theorem isUnsigned_digits (n : Nat) : isUnsigned (Numeral.digits n) = true := by
  have hdigits : ∀ c ∈ Numeral.digits n, c.isDigit = true := fun _ ↦ Numeral.isDigit_of_mem_digits
  have hlast : (Numeral.digits n).getLast? ≠ some '\n' := by
    intro h
    cases hdigits _ (List.mem_of_getLast? h)
  have hvalues : (Numeral.digits n).all (fun c ↦ (Text.digitValue? c).isSome) = true := by
    refine List.all_eq_true.2 fun c hc ↦ ?_
    rw [digitValue?_of_isDigit (hdigits c hc)]
    rfl
  rw [isUnsigned, isDigits, if_neg hlast, hvalues]
  simp [Numeral.digits_ne_nil]

/-- A whole number has a digit behind its sign. -/
theorem ofInt_ne_hyphens (z : Int) : Numeral.ofInt z ≠ ['-'] ∧ Numeral.ofInt z ≠ ['-', '-'] := by
  obtain ⟨c, t, hct⟩ := List.exists_cons_of_ne_nil (Numeral.digits_ne_nil z.natAbs)
  have hc : c.isDigit = true := Numeral.isDigit_of_mem_digits (hct ▸ List.mem_cons_self)
  have hhyphen : c ≠ '-' := by rintro rfl; cases hc
  rw [Numeral.ofInt, hct]
  split_ifs <;> simp [hhyphen]

theorem readsAsOption_ofInt (z : Int) : readsAsOption (Numeral.ofInt z) = false := by
  rw [Numeral.ofInt]
  split_ifs
  · simp [readsAsOption, isUnsigned_digits]
  · refine readsAsOption_of_head?_ne fun h ↦ ?_
    cases Numeral.isDigit_of_mem_digits (List.mem_of_mem_head? h)

/-- A whole number is no option, even if it is negative. -/
theorem classify?_ofInt (z : Int) :
    classify? (Numeral.ofInt z) = some (.plain (Numeral.ofInt z)) := by
  obtain ⟨hhyphen, hhyphens⟩ := ofInt_ne_hyphens z
  rw [classify?_of_strays_eq_nil (strays_ofInt z) hhyphen hhyphens, readsAsOption_ofInt]
  rfl

/-! ## What arguments ask for -/

theorem sort?_cons {s : Text} {argument : Argument} {rest : List Text} {arguments : List Argument}
    (hs : s ≠ ['-', '-']) (hfirst : classify? s = some argument)
    (hrest : sort? rest = some arguments) :
    sort? (s :: rest) = some (argument :: arguments) := by
  have hmark : s ≠ "--".toList := hs
  rw [sort?, if_neg hmark, hfirst, hrest]

theorem sort?_scale (scale : Int) :
    sort? [scaleOption, Numeral.ofInt scale] = some [.scale none, .plain (Numeral.ofInt scale)] :=
  sort?_cons (by decide) (by decide)
    (sort?_cons (ofInt_ne_hyphens scale).2 (classify?_ofInt scale) rfl)

theorem gather_scale (g : Gathered) (scale : Int) :
    gather g [.scale none, .plain (Numeral.ofInt scale)] =
      if Numeral.isOverlong scale.natAbs || g.excess then .invalid
      else .evaluate g.expression (some scale) := by
  have hvalue := integer?_ofInt scale
  rw [gather.eq_def]
  cases hlong : Numeral.isOverlong scale.natAbs with
  | true =>
    rw [hlong, if_pos rfl] at hvalue
    simp only [hvalue]
    rfl
  | false =>
    rw [hlong, if_neg Bool.false_ne_true] at hvalue
    simp only [hvalue, Bool.false_or]
    rfl

/-- The scale alone asks for an expression at it. -/
theorem request_scale (scale : Int) :
    request [scaleOption, Numeral.ofInt scale] =
      if Numeral.isOverlong scale.natAbs then .invalid else .evaluate none (some scale) := by
  rw [request, sort?_scale]
  dsimp only
  rw [gather_scale, Bool.or_false]

/-- An expression with the scale behind it asks for its value, unless it reads as an option. -/
theorem request_argument {s : Text} (hs : strays s = []) (hhyphen : s ≠ ['-'])
    (hhyphens : s ≠ ['-', '-']) (scale : Int) :
    request [s, scaleOption, Numeral.ofInt scale] =
      if Numeral.isOverlong scale.natAbs || readsAsOption s then .invalid
      else .evaluate (some s) (some scale) := by
  rw [request,
    sort?_cons hhyphens (classify?_of_strays_eq_nil hs hhyphen hhyphens) (sort?_scale scale)]
  cases hread : readsAsOption s with
  | true =>
    show gather { excess := true } [.scale none, .plain (Numeral.ofInt scale)] = _
    simp only [gather_scale, Bool.or_true, if_true]
  | false =>
    show gather { expression := some s, taken := true }
      [.scale none, .plain (Numeral.ofInt scale)] = _
    rw [gather_scale]

end Program
end Reckon
