import Reckon.Proofs.Json.Grammar

/-!
# The strings that lexemes write

The scanner of strings finds the inside of a string up to its quote (`Inside.scanString?`), and
takes nothing else for one (`exists_inside_of_scanString?`).

What has to be watched are the halves of characters.  The scanner looks ahead: behind a first half
it wants to see whether a second one follows, in the text as it goes on, quote and all.  The inside
of a string says this of the inside alone.  It is the same, because an escape cannot begin inside
and end behind the quote (`StartsLowHalf.of_append`).
-/

set_option autoImplicit false

namespace Reckon

/-! ## Points -/

/-- Points make a text if they are the points of it. -/
theorem Point.text?_eq_some_iff {points : List Point} {s : Text} :
    text? points = some s ↔ points = ofText s := by
  induction points generalizing s with
  | nil => simp [text?, ofText, eq_comm]
  | cons p points ih =>
    constructor
    · intro h
      rw [text?] at h
      split at h
      · next c s' hp hpoints =>
        cases h
        cases p with
        | char c => cases hp; rw [ih.1 hpoints]; rfl
        | half unit => cases hp
      · cases h
    · intro h
      cases s with
      | nil => cases h
      | cons c s =>
        obtain ⟨rfl, htail⟩ := List.cons.inj h
        rw [text?, ih.2 htail]
        rfl

namespace Json

/-! ## Escapes -/

section

variable {a b c d e : Char} {n : Nat}

theorem shortEscape?_eq_some_iff : shortEscape? c = some e ↔ ShortEscape c e := by
  constructor
  · intro h
    unfold shortEscape? at h
    split_ifs at h with hmark hb hf hn hr ht <;> cases h
    · rcases hmark with rfl | rfl | rfl
      · exact .quote
      · exact .backslash
      · exact .slash
    · subst hb; exact .backspace
    · subst hf; exact .formFeed
    · subst hn; exact .lineFeed
    · subst hr; exact .carriageReturn
    · subst ht; exact .tabulator
  · rintro ⟨⟩ <;> rfl

theorem hexDigit?_eq_some_iff : hexDigit? c = some n ↔ IsHexDigit c n := by
  constructor
  · intro h
    -- hexadecimal digits are among the first characters, so they can be tried one by one
    have hall : ∀ k < 128, ∀ m ∈ hexDigit? (Char.ofNat k), m < 16 ∧
        (Char.ofNat k = Nat.digitChar m ∨ Char.ofNat k = (Nat.digitChar m).toUpper) := by decide
    have hc : c.toNat < 128 := by
      have hle : ∀ d : Char, d.toNat < 128 → c ≤ d → c.toNat < 128 := fun d hd hcd ↦
        Nat.lt_of_le_of_lt (UInt32.le_iff_toNat_le.1 hcd) hd
      unfold hexDigit? at h
      split_ifs at h with hdigit hlower hupper
      · exact hle '9' (by decide) hdigit.2
      · exact hle 'f' (by decide) hlower.2
      · exact hle 'F' (by decide) hupper.2
    have hfound := hall c.toNat hc n
    rw [Char.ofNat_toNat] at hfound
    exact hfound h
  · have hlower : ∀ m < 16, hexDigit? (Nat.digitChar m) = some m := by decide
    have hupper : ∀ m < 16, hexDigit? (Nat.digitChar m).toUpper = some m := by decide
    rintro ⟨hn, rfl | rfl⟩
    · exact hlower n hn
    · exact hupper n hn

theorem hexUnit?_eq_some_iff : hexUnit? a b c d = some n ↔ IsHexUnit a b c d n := by
  have hvalue : ∀ w x y z : Nat,
      4096 * w + 256 * x + 16 * y + z = Nat.ofDigits 16 [z, y, x, w] := by
    intro w x y z
    simp only [Nat.ofDigits_cons, Nat.ofDigits_nil]
    omega
  simp only [hexUnit?, Option.bind_eq_bind, Option.bind_eq_some_iff, hexDigit?_eq_some_iff,
    Option.some.injEq, hvalue]
  constructor
  · rintro ⟨w, hw, x, hx, y, hy, z, hz, rfl⟩
    exact ⟨w, x, y, z, hw, hx, hy, hz, rfl⟩
  · rintro ⟨w, x, y, z, hw, hx, hy, hz, rfl⟩
    exact ⟨w, hw, x, hx, y, hy, z, hz, rfl⟩

theorem IsHexUnit.lt (h : IsHexUnit a b c d n) : n < 0x10000 := by
  obtain ⟨w, x, y, z, hw, hx, hy, hz, rfl⟩ := h
  simp only [Nat.ofDigits_cons, Nat.ofDigits_nil]
  have := hw.1
  have := hx.1
  have := hy.1
  have := hz.1
  omega

theorem isHighHalf_iff : isHighHalf n = true ↔ IsHighHalf n := by simp [isHighHalf, IsHighHalf]

theorem isLowHalf_iff : isLowHalf n = true ↔ IsLowHalf n := by simp [isLowHalf, IsLowHalf]

theorem toNat_valid (c : Char) : c.toNat < 0xd800 ∨ 0xdfff < c.toNat ∧ c.toNat < 0x110000 :=
  c.valid

theorem toNat_ofNat (h : n < 0xd800 ∨ 0xdfff < n ∧ n < 0x110000) : (Char.ofNat n).toNat = n := by
  rw [Char.ofNat, dif_pos h]
  rfl

/-- The unit of a character is the character. -/
theorem unitPoint_toNat (c : Char) : unitPoint c.toNat = .char c := by
  have hvalid := toNat_valid c
  have hhigh : isHighHalf c.toNat = false := by
    rw [← Bool.not_eq_true, isHighHalf_iff, IsHighHalf]
    omega
  have hlow : isLowHalf c.toNat = false := by
    rw [← Bool.not_eq_true, isLowHalf_iff, IsLowHalf]
    omega
  rw [unitPoint, hhigh, hlow, Char.ofNat_toNat]
  rfl

theorem unitPoint_of_half (h : IsHighHalf n ∨ IsLowHalf n) : unitPoint n = .half n := by
  have hhalf : (isHighHalf n || isLowHalf n) = true := by
    rwa [Bool.or_eq_true, isHighHalf_iff, isLowHalf_iff]
  rw [unitPoint, if_pos hhalf]

end

/-! ## Strings -/

section

variable {c e : Char} {s rest : Text} {points : List Point}

theorem scanString?_plain (hquote : c ≠ '"') (hescape : c ≠ '\\') (hcontrol : 0x20 ≤ c.toNat) :
    scanString? (c :: s) = (scanString? s).map fun (t, rest) ↦ (.char c :: t, rest) := by
  have hguard : ¬ (c = '\\' ∨ c.toNat < 0x20) := not_or.2 ⟨hescape, Nat.not_lt.2 hcontrol⟩
  rw [scanString?, if_neg hguard]
  all_goals simp_all

theorem ShortEscape.ne_u (h : ShortEscape c e) : c ≠ 'u' := by
  rintro rfl
  cases h

theorem scanString?_short (h : ShortEscape c e) :
    scanString? ('\\' :: c :: s) = (scanString? s).map fun (t, rest) ↦ (.char e :: t, rest) := by
  have hu := h.ne_u
  rw [scanString?]
  · rw [shortEscape?_eq_some_iff.2 h]
  all_goals simp [hu]

theorem scanString?_pair {a b c d e f g h : Char} {high low : Nat}
    (hfirst : IsHexUnit a b c d high) (hsecond : IsHexUnit e f g h low)
    (hhigh : IsHighHalf high) (hlow : IsLowHalf low) :
    scanString? ('\\' :: 'u' :: a :: b :: c :: d :: '\\' :: 'u' :: e :: f :: g :: h :: s) =
      (scanString? s).map fun (t, rest) ↦ (.char (pairChar high low) :: t, rest) := by
  rw [scanString?]
  simp only [hexUnit?_eq_some_iff.2 hfirst, hexUnit?_eq_some_iff.2 hsecond,
    isHighHalf_iff.2 hhigh, isLowHalf_iff.2 hlow, Bool.and_self, if_true]

/-- The unit of an escape is a point of its own if no second half follows a first one. -/
theorem scanString?_unit {a b c d : Char} {n : Nat} (h : IsHexUnit a b c d n)
    (halone : IsHighHalf n → ¬ StartsLowHalf s) :
    scanString? ('\\' :: 'u' :: a :: b :: c :: d :: s) =
      (scanString? s).map fun (t, rest) ↦ (unitPoint n :: t, rest) := by
  have hunit := hexUnit?_eq_some_iff.2 h
  by_cases hs : ∃ e f g h t, s = '\\' :: 'u' :: e :: f :: g :: h :: t
  · obtain ⟨e, f, g, h', t, rfl⟩ := hs
    rw [scanString?]
    simp only [hunit]
    cases hsecond : hexUnit? e f g h' with
    | none =>
      have hnone : scanString? ('\\' :: 'u' :: e :: f :: g :: h' :: t) = none := by
        rw [scanString?.eq_def]
        split <;> grind
      simp [hnone]
    | some low =>
      have hnopair : ¬ (isHighHalf n && isLowHalf low) = true := by
        rw [Bool.and_eq_true, isHighHalf_iff, isLowHalf_iff]
        rintro ⟨hhigh, hlow⟩
        exact halone hhigh ⟨e, f, g, h', low, t, rfl, hexUnit?_eq_some_iff.1 hsecond, hlow⟩
      simp only [if_neg hnopair]
  · rw [scanString?]
    · simp only [hunit]
    · simp_all

theorem StartsLowHalf.of_append (h : StartsLowHalf (s ++ '"' :: rest)) (hs : Inside s points) :
    StartsLowHalf s := by
  obtain ⟨a, b, c, d, n, r, heq, hunit, hlow⟩ := h
  cases hs with
  | nil => cases heq
  | plain _ hescape => exact absurd (List.cons.inj heq).1 hescape
  | short hshort => exact absurd (List.cons.inj (List.cons.inj heq).2).1 hshort.ne_u
  | unit | half | pair =>
    simp only [List.cons_append, List.cons.injEq, true_and] at heq
    obtain ⟨rfl, rfl, rfl, rfl, -⟩ := heq
    exact ⟨_, _, _, _, n, _, rfl, hunit, hlow⟩

theorem StartsLowHalf.append {t : Text} (h : StartsLowHalf s) : StartsLowHalf (s ++ t) := by
  obtain ⟨a, b, c, d, n, r, rfl, hunit, hlow⟩ := h
  exact ⟨a, b, c, d, n, r ++ t, rfl, hunit, hlow⟩

/-- The inside of a string is scanned as its points. -/
theorem Inside.scanString? (h : Inside s points) :
    scanString? (s ++ '"' :: rest) = some (points, rest) := by
  induction h with
  | nil => rfl
  | plain hquote hescape hcontrol _ ih =>
    rw [List.cons_append, scanString?_plain hquote hescape hcontrol, ih]
    rfl
  | short h _ ih =>
    rw [List.cons_append, List.cons_append, scanString?_short h, ih]
    rfl
  | @unit a b c d e s points h _ ih =>
    have hnohalf : ¬ IsHighHalf e.toNat := by
      have hvalid := toNat_valid e
      rw [IsHighHalf]
      omega
    simp only [List.cons_append]
    rw [scanString?_unit h fun hhigh ↦ absurd hhigh hnohalf, unitPoint_toNat, ih]
    rfl
  | @half a b c d n s points h hhalf hinside ih =>
    have halone : IsHighHalf n → ¬ StartsLowHalf (s ++ '"' :: rest) := by
      rintro hhigh hstarts
      rcases hhalf with ⟨-, halone⟩ | hlow
      · exact halone (hstarts.of_append hinside)
      · exact absurd (Nat.le_trans hlow.1 hhigh.2) (by decide)
    simp only [List.cons_append]
    rw [scanString?_unit h halone, unitPoint_of_half (hhalf.imp_left And.left), ih]
    rfl
  | pair hfirst hsecond hhigh hlow hchar _ ih =>
    simp only [List.cons_append]
    rw [scanString?_pair hfirst hsecond hhigh hlow, ih, pairChar, ← hchar, Char.ofNat_toNat]
    rfl

/-- What is scanned behind the first point. -/
theorem exists_of_map_cons {p : Point} {scanned : Option (List Point × Text)}
    (h : (scanned.map fun (t, rest) ↦ (p :: t, rest)) = some (points, rest)) :
    ∃ tail, scanned = some (tail, rest) ∧ points = p :: tail := by
  obtain ⟨⟨tail, rest'⟩, hscanned, heq⟩ := Option.map_eq_some_iff.1 h
  cases heq
  exact ⟨tail, hscanned, rfl⟩

/-- A unit is a character, or half of one that stands alone. -/
theorem Inside.unitPoint_cons {a b c d : Char} {n : Nat} (h : IsHexUnit a b c d n)
    (halone : IsHighHalf n → ¬ StartsLowHalf s) (hs : Inside s points) :
    Inside ('\\' :: 'u' :: a :: b :: c :: d :: s) (unitPoint n :: points) := by
  by_cases hhalf : IsHighHalf n ∨ IsLowHalf n
  · rw [unitPoint_of_half hhalf]
    exact .half h (hhalf.imp_left fun hhigh ↦ ⟨hhigh, halone hhigh⟩) hs
  · have hvalid : n < 0xd800 ∨ 0xdfff < n ∧ n < 0x110000 := by
      have hbound := h.lt
      simp only [IsHighHalf, IsLowHalf] at hhalf
      omega
    have htoNat := toNat_ofNat hvalid
    rw [← htoNat] at h
    rw [← htoNat, unitPoint_toNat]
    exact .unit h hs

/-- Two halves are a character. -/
theorem Inside.pairChar_cons {a b c d e f g h : Char} {high low : Nat}
    (hfirst : IsHexUnit a b c d high) (hsecond : IsHexUnit e f g h low) (hhigh : IsHighHalf high)
    (hlow : IsLowHalf low) (hs : Inside s points) :
    Inside ('\\' :: 'u' :: a :: b :: c :: d :: '\\' :: 'u' :: e :: f :: g :: h :: s)
      (.char (pairChar high low) :: points) := by
  refine .pair hfirst hsecond hhigh hlow (toNat_ofNat (.inr ?_)) hs
  simp only [IsHighHalf, IsLowHalf] at hhigh hlow
  omega

/-- What is scanned as a string is the inside of one, and a quote. -/
theorem exists_inside_of_scanString? (h : scanString? s = some (points, rest)) :
    ∃ u, s = u ++ '"' :: rest ∧ Inside u points := by
  fun_induction scanString? s generalizing points with
  | case1 => cases h
  | case2 s => cases h; exact ⟨[], rfl, .nil⟩
  | case3 a b c d e f g h' s high low hsecond hfirst hpair ih =>
    obtain ⟨tail, hscan, rfl⟩ := exists_of_map_cons h
    obtain ⟨u, rfl, hu⟩ := ih hscan
    rw [Bool.and_eq_true, isHighHalf_iff, isLowHalf_iff] at hpair
    exact ⟨_, rfl, .pairChar_cons (hexUnit?_eq_some_iff.1 hfirst)
      (hexUnit?_eq_some_iff.1 hsecond) hpair.1 hpair.2 hu⟩
  | case4 a b c d e f g h' s high low hsecond hfirst hpair ih =>
    obtain ⟨tail, hscan, rfl⟩ := exists_of_map_cons h
    obtain ⟨u, heq, hu⟩ := ih hscan
    refine ⟨'\\' :: 'u' :: a :: b :: c :: d :: u, by rw [heq]; rfl,
      .unitPoint_cons (hexUnit?_eq_some_iff.1 hfirst) (fun hhigh hstarts ↦ ?_) hu⟩
    have happend := @StartsLowHalf.append _ ('"' :: rest) hstarts
    rw [← heq] at happend
    obtain ⟨_, _, _, _, low', _, hcons, hunit, hlow⟩ := happend
    simp only [List.cons.injEq, true_and] at hcons
    obtain ⟨rfl, rfl, rfl, rfl, -⟩ := hcons
    rw [hexUnit?_eq_some_iff.2 hunit] at hsecond
    cases hsecond
    exact hpair (by rw [isHighHalf_iff.2 hhigh, isLowHalf_iff.2 hlow]; rfl)
  | case6 a b c d s hsingle n hunit ih =>
    obtain ⟨tail, hscan, rfl⟩ := exists_of_map_cons h
    obtain ⟨u, rfl, hu⟩ := ih hscan
    refine ⟨'\\' :: 'u' :: a :: b :: c :: d :: u, rfl,
      .unitPoint_cons (hexUnit?_eq_some_iff.1 hunit) (fun _ hstarts ↦ ?_) hu⟩
    obtain ⟨_, _, _, _, _, _, rfl, -⟩ := hstarts
    exact absurd rfl (hsingle _ _ _ _ _)
  | case8 c s _ _ e hshort ih =>
    obtain ⟨tail, hscan, rfl⟩ := exists_of_map_cons h
    obtain ⟨u, rfl, hu⟩ := ih hscan
    exact ⟨_, rfl, .short (shortEscape?_eq_some_iff.1 hshort) hu⟩
  | case11 c s hquote _ _ _ hplain ih =>
    obtain ⟨tail, hscan, rfl⟩ := exists_of_map_cons h
    obtain ⟨u, rfl, hu⟩ := ih hscan
    obtain ⟨hescape, hcontrol⟩ := not_or.1 hplain
    exact ⟨_, rfl, .plain hquote hescape (Nat.not_lt.1 hcontrol) hu⟩
  | case5 | case7 | case9 | case10 => cases h

end

end Json
end Reckon
