import Reckon.Proofs.Json.Number
import Reckon.Proofs.Json.Strings

/-!
# Lexemes and how they are scanned

The scanner of tokens takes a lexeme for the token that it writes (`Lexeme.scanToken?`), and takes
nothing else for one (`exists_lexeme_of_scanToken?`).

A string ends at its quote whatever follows, and so does a keyword or a mark.  A number is taken as
far as it goes, so for a number it matters that what follows it could not be more of it
(`ContinuesNumber`).  Of the other direction this much is needed too: behind a number with too many
digits there is no more of it.
-/

set_option autoImplicit false

namespace Reckon
namespace Json

/-! ## Numbers -/

variable {s t whole places power : Text} {fraction : Rat} {e : Int}

theorem isDigits_takeWhile (h : (s.takeWhile Char.isDigit).isEmpty = false) :
    IsDigits (s.takeWhile Char.isDigit) :=
  ⟨by simpa using h, fun _ hc ↦ Literal.isDigit_of_mem_takeWhile hc⟩

theorem isDigit_head_of_not_continuesNumber (h : ¬ ContinuesNumber s) :
    ∀ c ∈ s.head?, c.isDigit = false := by
  intro c hc
  obtain ⟨r, rfl⟩ := List.head?_eq_some_iff.1 hc
  exact Bool.eq_false_iff.2 fun hdigit ↦ h (.digit hdigit)

theorem exists_digit_of_takeWhile (h : ¬ (s.takeWhile Char.isDigit).isEmpty = true) :
    ∃ c r, s = c :: r ∧ c.isDigit = true := by
  cases s with
  | nil => exact absurd rfl h
  | cons c r =>
    exact ⟨c, r, rfl, Bool.of_not_eq_false fun hc ↦ h (by simp [hc])⟩

/-- Digits are scanned as far as they go. -/
theorem scanWhole?_append (hwhole : IsWhole whole) (hs : ∀ c ∈ s.head?, c.isDigit = false) :
    scanWhole? (whole ++ s) = some (whole, s) := by
  rcases hwhole.tidy with rfl | hzero
  · rfl
  · have hne : (whole.isEmpty) = false := by simpa using hwhole.ne_nil
    rw [scanWhole?]
    · rw [hwhole.takeWhile_append hs, hwhole.dropWhile_append hs, hne]
      rfl
    · intro r hr
      obtain ⟨c, w, rfl⟩ := List.exists_cons_of_ne_nil hwhole.ne_nil
      cases hr
      exact hzero rfl

/-- A point without a digit behind it is left where it is. -/
theorem scanPlaces_of_no_places (h : ∀ c r, s = '.' :: c :: r → c.isDigit = false) :
    scanPlaces s = ([], s) := by
  unfold scanPlaces
  split
  · next r =>
    have hempty : (r.takeWhile Char.isDigit).isEmpty = true := by
      cases r with
      | nil => rfl
      | cons c r => simp [h c r rfl]
    rw [if_pos hempty]
  · rfl

theorem scanPlaces_append (hplaces : IsPlaces places fraction)
    (hdigit : ∀ c ∈ s.head?, c.isDigit = false) (hs : places = [] → scanPlaces s = ([], s)) :
    scanPlaces (places ++ s) = (places, s) := by
  cases hplaces with
  | none => exact hs rfl
  | @some d hd =>
    have hne : d.isEmpty = false := by simpa using hd.ne_nil
    rw [List.cons_append, scanPlaces, hd.takeWhile_append hdigit, hd.dropWhile_append hdigit, hne]
    rfl

theorem scanSign_cases (s : Text) :
    (∃ sign r, (sign = '+' ∨ sign = '-') ∧ s = sign :: r ∧ scanSign s = ([sign], r)) ∨
      scanSign s = ([], s) := by
  unfold scanSign
  split
  · exact .inl ⟨_, _, .inl rfl, rfl, rfl⟩
  · exact .inl ⟨_, _, .inr rfl, rfl, rfl⟩
  · exact .inr rfl

theorem IsDigits.scanSign_append (h : IsDigits t) : scanSign (t ++ s) = ([], t ++ s) := by
  obtain ⟨c, r, rfl⟩ := List.exists_cons_of_ne_nil h.ne_nil
  have hc := h.isDigit c List.mem_cons_self
  rcases scanSign_cases (c :: r ++ s) with ⟨sign, r', hsign, heq, -⟩ | hnone
  · cases heq
    rcases hsign with rfl | rfl <;> cases hc
  · exact hnone

theorem scanPower_cons (e : Char) (r : Text) :
    scanPower (e :: r) =
      if (e = 'e' ∨ e = 'E') ∧ ¬ ((scanSign r).2.takeWhile Char.isDigit).isEmpty then
        (e :: (scanSign r).1 ++ (scanSign r).2.takeWhile Char.isDigit,
          (scanSign r).2.dropWhile Char.isDigit)
      else ([], e :: r) :=
  rfl

/-- Where no number goes on there is no power of ten. -/
theorem scanPower_of_not_continuesNumber (h : ¬ ContinuesNumber s) : scanPower s = ([], s) := by
  cases s with
  | nil => rfl
  | cons e r =>
    rw [scanPower_cons]
    refine if_neg ?_
    rintro ⟨he, hdigits⟩
    obtain ⟨c, r', heq, hc⟩ := exists_digit_of_takeWhile hdigits
    rcases scanSign_cases r with ⟨sign, _, hsign, rfl, hscan⟩ | hscan
    · rw [hscan] at heq
      cases heq
      exact h (.signedPower he hsign hc)
    · rw [hscan] at heq
      cases heq
      exact h (.power he hc)

theorem scanPower_append (hpower : IsPower power e) (hs : ¬ ContinuesNumber s) :
    scanPower (power ++ s) = (power, s) := by
  have hdigit := isDigit_head_of_not_continuesNumber hs
  cases hpower with
  | none => exact scanPower_of_not_continuesNumber hs
  | @unsigned c d hc hd =>
    have hne : d.isEmpty = false := by simpa using hd.ne_nil
    rw [List.cons_append, scanPower_cons, hd.scanSign_append]
    simp only [hd.takeWhile_append hdigit, hd.dropWhile_append hdigit, hne, hc]
    rfl
  | @plus c d hc hd | @minus c d hc hd =>
    have hne : d.isEmpty = false := by simpa using hd.ne_nil
    rw [List.cons_append, scanPower_cons, List.cons_append]
    simp only [scanSign, hd.takeWhile_append hdigit, hd.dropWhile_append hdigit, hne, hc]
    rfl

/-- The token that the parts of a number make. -/
def numberToken (negative : Bool) (whole places power : Text) : Token :=
  if places.isEmpty && power.isEmpty then integerToken negative whole
  else floatToken (Literal.signText negative ++ (whole ++ (places ++ power)))

/-- The parts of a number are scanned as the number. -/
theorem scanNumber?_append (negative : Bool) (hwhole : IsWhole whole)
    (hplaces : IsPlaces places fraction) (hpower : IsPower power e) (hs : ¬ ContinuesNumber s) :
    scanNumber? negative (whole ++ (places ++ (power ++ s))) =
      some (numberToken negative whole places power, s) := by
  have hdigit := isDigit_head_of_not_continuesNumber hs
  have hpowerHead : ∀ c ∈ (power ++ s).head?, c.isDigit = false := by
    rcases hpower.eq_nil_or with rfl | ⟨e, r, rfl | rfl, rfl⟩
    · exact hdigit
    · simp
    · simp
  have hplacesHead : ∀ c ∈ (places ++ (power ++ s)).head?, c.isDigit = false := by
    cases hplaces with
    | none => exact hpowerHead
    | some _ => simp
  have hnoPlaces : scanPlaces (power ++ s) = ([], power ++ s) := by
    refine scanPlaces_of_no_places fun c r heq ↦ ?_
    rcases hpower.eq_nil_or with rfl | ⟨e, _, rfl | rfl, rfl⟩
    · obtain rfl : s = '.' :: c :: r := heq
      exact Bool.eq_false_iff.2 fun hc ↦ hs (.places hc)
    · cases heq
    · cases heq
  rw [scanNumber?, scanWhole?_append hwhole hplacesHead]
  simp only [scanPlaces_append hplaces hpowerHead fun _ ↦ hnoPlaces, scanPower_append hpower hs,
    numberToken]
  split <;> rfl

/-! ### The parts that are scanned -/

theorem eq_of_scanWhole? {rest : Text} (h : scanWhole? s = some (whole, rest)) :
    IsWhole whole ∧ s = whole ++ rest ∧
      (whole ≠ ['0'] → ∀ c ∈ rest.head?, c.isDigit = false) := by
  unfold scanWhole? at h
  split at h
  · cases h
    have hdigits : IsDigits ['0'] := ⟨by simp, fun c hc ↦ List.mem_singleton.1 hc ▸ rfl⟩
    exact ⟨⟨hdigits, .inl rfl⟩, rfl, fun hne ↦ absurd rfl hne⟩
  · next hzero =>
    split at h
    · cases h
    · next hne =>
      cases h
      refine ⟨⟨isDigits_takeWhile (Bool.eq_false_iff.2 hne), .inr ?_⟩,
        List.takeWhile_append_dropWhile.symm, fun _ ↦ Text.head?_dropWhile s⟩
      · obtain ⟨c, r, rfl, hc⟩ := exists_digit_of_takeWhile hne
        rw [List.takeWhile_cons_of_pos hc]
        rintro h0
        cases h0
        exact hzero r rfl

theorem eq_of_scanPlaces {rest : Text} (h : scanPlaces s = (places, rest)) :
    (∃ fraction, IsPlaces places fraction) ∧ s = places ++ rest ∧
      (places = [] → ∀ c r, rest = '.' :: c :: r → c.isDigit = false) := by
  unfold scanPlaces at h
  split at h
  · next r =>
    split at h
    · next hempty =>
      cases h
      refine ⟨⟨_, .none⟩, rfl, fun _ c r' heq ↦ ?_⟩
      cases heq
      exact Bool.eq_false_iff.2 fun hc ↦ by simp [hc] at hempty
    · next hne =>
      cases h
      exact ⟨⟨_, .some (isDigits_takeWhile (Bool.eq_false_iff.2 hne))⟩,
        by rw [List.cons_append, List.takeWhile_append_dropWhile], nofun⟩
  · next hpoint =>
    cases h
    exact ⟨⟨_, .none⟩, rfl, fun _ c r heq ↦ absurd heq (hpoint _)⟩

theorem eq_of_scanPower {rest : Text} (h : scanPower s = (power, rest)) :
    (∃ e, IsPower power e) ∧ s = power ++ rest ∧ (power = [] → scanPower rest = ([], rest)) := by
  cases s with
  | nil => cases h; exact ⟨⟨_, .none⟩, rfl, fun _ ↦ rfl⟩
  | cons c r =>
    have h' := h
    rw [scanPower_cons] at h
    split at h
    · next hdigits =>
      obtain ⟨hc, hne⟩ := hdigits
      have hd := isDigits_takeWhile (Bool.eq_false_iff.2 hne)
      cases h
      rcases scanSign_cases r with ⟨sign, r', rfl | rfl, rfl, hscan⟩ | hscan
      · rw [hscan] at hd ⊢
        exact ⟨⟨_, .plus hc hd⟩, by simp [List.takeWhile_append_dropWhile], nofun⟩
      · rw [hscan] at hd ⊢
        exact ⟨⟨_, .minus hc hd⟩, by simp [List.takeWhile_append_dropWhile], nofun⟩
      · rw [hscan] at hd ⊢
        exact ⟨⟨_, .unsigned hc hd⟩, by simp [List.takeWhile_append_dropWhile], nofun⟩
    · cases h
      exact ⟨⟨_, .none⟩, rfl, fun _ ↦ h'⟩

/-- Where no part of a number is found, no number goes on. -/
theorem not_continuesNumber (hdigit : ∀ c ∈ s.head?, c.isDigit = false)
    (hplaces : ∀ c r, s = '.' :: c :: r → c.isDigit = false) (hpower : scanPower s = ([], s)) :
    ¬ ContinuesNumber s := by
  intro h
  cases h with
  | digit hc => rw [hdigit _ rfl] at hc; cases hc
  | places hc => rw [hplaces _ _ rfl] at hc; cases hc
  | @power e c s he hc =>
    have hscan : scanSign (c :: s) = ([], c :: s) :=
      IsDigits.scanSign_append (t := [c]) ⟨by simp, by simpa using hc⟩
    simp [scanPower_cons, hscan, he, hc] at hpower
  | @signedPower e sign c s he hsign hc =>
    have hscan : scanSign (sign :: c :: s) = ([sign], c :: s) := by
      rcases hsign with rfl | rfl <;> rfl
    simp [scanPower_cons, hscan, he, hc] at hpower

/-- What is scanned as a number has the parts of one, and if it is a whole number other than zero,
it is scanned to its end. -/
theorem eq_of_scanNumber? {negative : Bool} {rest : Text} {t : Token}
    (h : scanNumber? negative s = some (t, rest)) :
    ∃ whole places power, IsWhole whole ∧ (∃ fraction, IsPlaces places fraction) ∧
      (∃ e, IsPower power e) ∧ s = whole ++ (places ++ (power ++ rest)) ∧
      t = numberToken negative whole places power ∧
      (whole ≠ ['0'] → places = [] → power = [] → ¬ ContinuesNumber rest) := by
  unfold scanNumber? at h
  split at h
  · cases h
  · next whole s' hscan =>
    obtain ⟨hwhole, rfl, hdigit⟩ := eq_of_scanWhole? hscan
    rcases hscanPlaces : scanPlaces s' with ⟨places, u⟩
    rcases hscanPower : scanPower u with ⟨power, v⟩
    obtain ⟨hplaces, rfl, hnoPlaces⟩ := eq_of_scanPlaces hscanPlaces
    obtain ⟨hpower, rfl, hnoPower⟩ := eq_of_scanPower hscanPower
    simp only [hscanPlaces, hscanPower] at h
    have htoken : some (numberToken negative whole places power, v) = some (t, rest) := by
      rw [← h, numberToken]
      split <;> rfl
    cases htoken
    refine ⟨whole, places, power, hwhole, hplaces, hpower, rfl, rfl, ?_⟩
    rintro hlong rfl rfl
    exact not_continuesNumber (hdigit hlong) (hnoPlaces rfl) (hnoPower rfl)

/-! ## Keywords -/

theorem dropFront?_eq_some_iff {front rest : Text} :
    dropFront? front s = some rest ↔ s = front ++ rest := by
  fun_induction dropFront? front s with
  | case1 s => simp
  | case2 c front s ih => simp [ih]
  | case3 c front d s hne => simp [Ne.symm hne]
  | case4 => simp

theorem mem_keywords_iff {u : Text} {t : Token} : (u, t) ∈ keywords ↔ Keyword u t := by
  constructor
  · simp only [keywords, List.mem_cons, Prod.mk.injEq, List.not_mem_nil, or_false]
    rintro (⟨rfl, rfl⟩ | ⟨rfl, rfl⟩ | ⟨rfl, rfl⟩ | ⟨rfl, rfl⟩ | ⟨rfl, rfl⟩ | ⟨rfl, rfl⟩)
    exacts [.null, .true, .false, .nan, .infinity, .minusInfinity]
  · rintro ⟨⟩ <;> simp [keywords]

theorem exists_of_scanKeyword? {rest : Text} {t : Token} (h : scanKeyword? s = some (t, rest)) :
    ∃ u, Keyword u t ∧ s = u ++ rest := by
  obtain ⟨⟨u, t'⟩, hmem, hword⟩ := List.exists_of_findSome?_eq_some h
  obtain ⟨rest', hdrop, heq⟩ := Option.map_eq_some_iff.1 hword
  cases heq
  exact ⟨u, mem_keywords_iff.1 hmem, dropFront?_eq_some_iff.1 hdrop⟩

/-- No keyword begins with a digit, nor with a minus sign and a digit. -/
theorem scanKeyword?_signText (negative : Bool) {c : Char} (hc : c.isDigit = true) :
    scanKeyword? (Literal.signText negative ++ c :: s) = none := by
  refine Option.eq_none_iff_forall_ne_some.2 fun ⟨t, rest⟩ h ↦ ?_
  obtain ⟨u, hu, heq⟩ := exists_of_scanKeyword? h
  cases negative <;> cases hu <;> cases heq <;> cases hc

/-- What begins with a sign and a digit is scanned as a number. -/
theorem scanToken?_signText (negative : Bool) {whole : Text} (hwhole : IsWhole whole) :
    scanToken? (Literal.signText negative ++ (whole ++ s)) = scanNumber? negative (whole ++ s) := by
  obtain ⟨c, r, rfl⟩ := List.exists_cons_of_ne_nil hwhole.ne_nil
  have hc := hwhole.isDigit c List.mem_cons_self
  have hkeyword := @scanKeyword?_signText (r ++ s) negative c hc
  cases negative with
  | false =>
    show scanToken? (c :: (r ++ s)) = _
    rw [scanToken?, show scanKeyword? (c :: (r ++ s)) = none from hkeyword]
    · exact if_neg (by rintro rfl; cases hc)
    all_goals
      rintro rfl
      cases hc
  | true =>
    show scanToken? ('-' :: c :: (r ++ s)) = _
    rw [scanToken?, show scanKeyword? ('-' :: c :: (r ++ s)) = none from hkeyword]
    · rfl
    all_goals decide

/-! ## Lexemes -/

theorem integerToken_of_le (negative : Bool) (h : whole.length ≤ 4300) :
    integerToken negative whole =
      .integer (if negative then -digitsValue whole else digitsValue whole) := by
  have hmax : ¬ Numeral.maxDigits < whole.length := Nat.not_lt.2 h
  rw [integerToken, if_neg hmax, ofDigits_eq_digitsValue]

theorem integerToken_of_lt (negative : Bool) (h : 4300 < whole.length) :
    integerToken negative whole = .overlong whole.length :=
  if_pos h

/-- Without places and power a number is a whole number, whatever number of digits it has. -/
theorem exists_lexeme_integerToken (negative : Bool) (hwhole : IsWhole whole) :
    Lexeme (Literal.signText negative ++ whole) (integerToken negative whole) := by
  rcases Nat.lt_or_ge 4300 whole.length with h | h
  · rw [integerToken_of_lt negative h]
    exact .overlong negative hwhole h
  · rw [integerToken_of_le negative h]
    exact .integer negative hwhole h

/-- A whole number is scanned as its token. -/
theorem scanToken?_whole (negative : Bool) (hwhole : IsWhole whole) (hs : ¬ ContinuesNumber s) :
    scanToken? (Literal.signText negative ++ whole ++ s) =
      some (integerToken negative whole, s) := by
  rw [List.append_assoc, scanToken?_signText negative hwhole]
  exact scanNumber?_append negative hwhole .none .none hs

/-- A lexeme is scanned as its token, if it is not a number that goes on. -/
theorem Lexeme.scanToken? {u : Text} {t : Token} (h : Lexeme u t)
    (hs : t.isNumber = true → ¬ ContinuesNumber s) : scanToken? (u ++ s) = some (t, s) := by
  cases h with
  | openArray | closeArray | openObject | closeObject | colon | comma => rfl
  | keyword hkeyword => cases hkeyword <;> rfl
  | string hinside =>
    rw [List.cons_append, Json.scanToken?, List.append_assoc, List.singleton_append,
      hinside.scanString?]
    rfl
  | integer negative hwhole hlen =>
    rw [scanToken?_whole negative hwhole (hs rfl), integerToken_of_le negative hlen]
  | overlong negative hwhole hlen =>
    rw [scanToken?_whole negative hwhole (hs rfl), integerToken_of_lt negative hlen]
  | @float negative whole places power _ _ x hwhole hplaces hpower hne hx =>
    have hnumber := scanNumber?_append negative hwhole hplaces hpower (hs rfl)
    have hparts : (places.isEmpty && power.isEmpty) = false := by
      rcases hne with hne | hne <;> simp [hne]
    obtain ⟨y, hy, hrounds⟩ := exists_rounds_floatToken negative hwhole hplaces hpower
    rw [numberToken, hparts, if_neg Bool.false_ne_true, hy, hrounds.unique hx] at hnumber
    simp only [List.append_assoc]
    rw [scanToken?_signText negative hwhole]
    exact hnumber

theorem exists_lexeme_of_scanNumber? {negative : Bool} {rest : Text} {t : Token}
    (h : scanNumber? negative s = some (t, rest)) :
    ∃ u, Literal.signText negative ++ s = u ++ rest ∧ Lexeme u t ∧
      ∀ n, t = .overlong n → ¬ ContinuesNumber rest := by
  obtain ⟨whole, places, power, hwhole, ⟨fraction, hplaces⟩, ⟨e, hpower⟩, rfl, rfl, hrest⟩ :=
    eq_of_scanNumber? h
  refine ⟨Literal.signText negative ++ (whole ++ (places ++ power)), by simp, ?_⟩
  by_cases hparts : (places.isEmpty && power.isEmpty) = true
  · obtain ⟨rfl, rfl⟩ : places = [] ∧ power = [] := by simpa using hparts
    rw [numberToken, if_pos hparts, List.append_nil, List.append_nil]
    refine ⟨exists_lexeme_integerToken negative hwhole, fun n hoverlong ↦ hrest ?_ rfl rfl⟩
    rintro rfl
    cases hoverlong
  · have hne : places ≠ [] ∨ power ≠ [] :=
      Decidable.not_and_iff_not_or_not.1 (by simpa using hparts)
    obtain ⟨x, hx, hrounds⟩ := exists_rounds_floatToken negative hwhole hplaces hpower
    rw [numberToken, if_neg hparts, hx]
    exact ⟨.float negative hwhole hplaces hpower hne hrounds, nofun⟩

/-- What is scanned as a token is a lexeme of it. -/
theorem exists_lexeme_of_scanToken? {rest : Text} {t : Token} (h : scanToken? s = some (t, rest)) :
    ∃ u, s = u ++ rest ∧ Lexeme u t ∧ ∀ n, t = .overlong n → ¬ ContinuesNumber rest := by
  unfold scanToken? at h
  split at h
  · cases h
  · cases h; exact ⟨_, rfl, .openArray, nofun⟩
  · cases h; exact ⟨_, rfl, .closeArray, nofun⟩
  · cases h; exact ⟨_, rfl, .openObject, nofun⟩
  · cases h; exact ⟨_, rfl, .closeObject, nofun⟩
  · cases h; exact ⟨_, rfl, .colon, nofun⟩
  · cases h; exact ⟨_, rfl, .comma, nofun⟩
  · obtain ⟨⟨points, rest'⟩, hscan, heq⟩ := Option.map_eq_some_iff.1 h
    cases heq
    obtain ⟨u, rfl, hu⟩ := exists_inside_of_scanString? hscan
    exact ⟨'"' :: (u ++ ['"']), by simp, .string hu, nofun⟩
  · next c s' _ _ _ _ _ _ _ =>
    split at h
    · next hkeyword =>
      cases h
      obtain ⟨u, hu, heq⟩ := exists_of_scanKeyword? hkeyword
      refine ⟨u, heq, .keyword hu, ?_⟩
      rintro n rfl
      cases hu
    · split at h
      · next hminus => exact hminus ▸ exists_lexeme_of_scanNumber? h
      · exact exists_lexeme_of_scanNumber? h

end Json
end Reckon
