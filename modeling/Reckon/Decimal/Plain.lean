import Reckon.Decimal.Basic

/-!
# Plain notation

A `Literal` is a number written with digits alone: an optional minus sign, one or more digits, and
possibly a point with one or more digits behind it.  `Literal.value` is the decimal it writes, in
which every digit counts.

`Decimal.plain` is the way back.  It writes a decimal without an exponent, and drops no digit of the
coefficient, so `1.20` stays `1.20`.  It is the notation in which results are put back into an
expression, and the one in which answers are given.
-/

set_option autoImplicit false

namespace Reckon

/-- A number written with digits, at most one point, and a minus sign where it has one. -/
structure Literal where
  /-- Whether a minus sign stands in front. -/
  negative : Bool
  /-- The digits before the point. -/
  whole : Text
  /-- The digits behind the point; without them there is no point either. -/
  places : Text
deriving DecidableEq, Repr

namespace Literal

/-- A minus sign, or nothing. -/
def signText (negative : Bool) : Text := if negative then ['-'] else []

/-- Places with the point in front of them, or nothing. -/
def placesText : Text → Text
  | [] => []
  | s => '.' :: s

/-- A literal as it is written. -/
def text (l : Literal) : Text := signText l.negative ++ (l.whole ++ placesText l.places)

/-- The number that a literal writes: every digit counts, and each place lowers the exponent. -/
def value (l : Literal) : Decimal :=
  ⟨l.negative, Numeral.ofDigits (l.whole ++ l.places), -(l.places.length : Int)⟩

/-- What a literal has to be made of: digits, and at least one before the point. -/
structure IsProper (l : Literal) : Prop where
  whole_ne_nil : l.whole ≠ []
  isDigit_whole : ∀ c ∈ l.whole, c.isDigit = true
  isDigit_places : ∀ c ∈ l.places, c.isDigit = true

end Literal

namespace Decimal

/-- Digits with at least `n` of them, zeros being put in front of shorter ones. -/
def padded (n : Nat) (s : Text) : Text := List.replicate (n - s.length) '0' ++ s

/-- The literal that has the last `places` digits of a run behind its point, and at least one digit
before it. -/
def pointed (negative : Bool) (places : Nat) (s : Text) : Literal :=
  let s := padded (places + 1) s
  ⟨negative, s.take (s.length - places), s.drop (s.length - places)⟩

/-- A decimal as a literal.  A negative exponent says how many digits stand behind the point; a
positive one puts zeros after the digits, except after a zero. -/
def toLiteral (d : Decimal) : Literal :=
  let s := Numeral.digits d.coefficient
  if d.exponent < 0 then pointed d.negative d.exponent.natAbs s
  else if d.isZero then ⟨d.negative, s, []⟩
  else ⟨d.negative, s ++ List.replicate d.exponent.natAbs '0', []⟩

/-- A decimal in plain notation. -/
def plain (d : Decimal) : Text := d.toLiteral.text

/-! ## What the literal of a decimal is made of -/

theorem isDigit_of_mem_padded {n : Nat} {s : Text} (hs : ∀ c ∈ s, c.isDigit = true) :
    ∀ c ∈ padded n s, c.isDigit = true := by
  intro c hc
  rcases List.mem_append.1 hc with hc | hc
  · rw [(List.mem_replicate.1 hc).2]; decide
  · exact hs c hc

theorem length_padded (n : Nat) (s : Text) : (padded n s).length = max n s.length := by
  simp only [padded, List.length_append, List.length_replicate]
  omega

theorem length_places_pointed (negative : Bool) (places : Nat) (s : Text) :
    (pointed negative places s).places.length = places := by
  have h := length_padded (places + 1) s
  simp only [pointed, List.length_drop]
  omega

theorem isProper_pointed {negative : Bool} {places : Nat} {s : Text}
    (hs : ∀ c ∈ s, c.isDigit = true) : (pointed negative places s).IsProper where
  whole_ne_nil := by
    have h := length_padded (places + 1) s
    intro hnil
    have := congrArg List.length hnil
    simp only [pointed, List.length_take, List.length_nil] at this
    omega
  isDigit_whole := fun c hc ↦ isDigit_of_mem_padded hs c (List.mem_of_mem_take hc)
  isDigit_places := fun c hc ↦ isDigit_of_mem_padded hs c (List.mem_of_mem_drop hc)

theorem isProper_toLiteral (d : Decimal) : d.toLiteral.IsProper := by
  have hd : ∀ c ∈ Numeral.digits d.coefficient, c.isDigit = true :=
    fun c hc ↦ Numeral.isDigit_of_mem_digits hc
  unfold toLiteral
  dsimp only
  split
  · exact isProper_pointed hd
  · split
    · exact ⟨Numeral.digits_ne_nil _, hd, by simp⟩
    · refine ⟨by simp [Numeral.digits_ne_nil], ?_, by simp⟩
      intro c hc
      rcases List.mem_append.1 hc with hc | hc
      · exact hd c hc
      · rw [(List.mem_replicate.1 hc).2]; decide

/-- The literal has a place for each negative power of ten that the decimal counts in. -/
theorem length_places_toLiteral (d : Decimal) :
    d.toLiteral.places.length = (-d.exponent).toNat := by
  unfold toLiteral
  dsimp only
  split
  · rw [length_places_pointed]; omega
  · split <;> simp <;> omega

@[simp] theorem negative_toLiteral (d : Decimal) : d.toLiteral.negative = d.negative := by
  unfold toLiteral
  dsimp only
  split
  · rfl
  · split <;> rfl

end Decimal
end Reckon
