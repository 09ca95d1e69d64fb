import Reckon.Proofs.Decimal.Exact
import Reckon.Proofs.Row.Text

/-!
# Reckoning with rational numbers

What an expression means is said with rational numbers and without any text.  A `Reckoning` comes to
a value, or to none because something was to be divided by zero, and it keeps account of the
integers that it rounded to, since these have to be written out: sums, differences, products and
remainders are exact, and a quotient is the nearest multiple of a power of ten.

A computation `Agrees` with a reckoning if it has the value of the reckoning or, where there is
none, a division by zero for its fault, provided that no integer that was rounded to is too long.
The operations on literals agree with those on the numbers that they write (`Operand.agrees_apply`),
and so does what a row of literals comes to (`Row.agrees_value`).
-/

set_option autoImplicit false

namespace Reckon

/-- A value, or none, and the integers that were rounded to on the way. -/
structure Reckoning (α : Type) where
  /-- The integers that were rounded to. -/
  units : List Int
  /-- The value, if nothing was to be divided by zero. -/
  value : Option α

namespace Reckoning

variable {α β : Type}

/-- Two reckonings after one another. -/
def andThen (x : Reckoning α) (f : α → Reckoning β) : Reckoning β :=
  match x.value with
  | some a => ⟨x.units ++ (f a).units, (f a).value⟩
  | none => ⟨x.units, none⟩

instance : Monad Reckoning where
  pure a := ⟨[], some a⟩
  bind := andThen

theorem bind_of_value_eq_none {x : Reckoning α} (h : x.value = none) (f : α → Reckoning β) :
    x >>= f = ⟨x.units, none⟩ := by
  show andThen x f = _
  rw [andThen, h]

theorem bind_of_value_eq_some {x : Reckoning α} {a : α} (h : x.value = some a)
    (f : α → Reckoning β) : x >>= f = ⟨x.units ++ (f a).units, (f a).value⟩ := by
  show andThen x f = _
  rw [andThen, h]

/-- By these laws, reckoning a row is also replacing its leftmost pair over and over
(`Row.workOff_eq`). -/
instance : LawfulMonad Reckoning := by
  refine LawfulMonad.mk' Reckoning ?_ (fun _ _ ↦ rfl) ?_
  · rintro α ⟨units, _ | a⟩
    · rfl
    · exact congrArg (Reckoning.mk · (some a)) (List.append_nil units)
  · rintro α β γ ⟨units, _ | a⟩ f g
    · rfl
    · have hassoc : (⟨units ++ (f a).units, (f a).value⟩ : Reckoning β) >>= g =
          ⟨units ++ (f a >>= g).units, (f a >>= g).value⟩ := by
        cases h : (f a).value with
        | none => rw [bind_of_value_eq_none rfl, bind_of_value_eq_none h]
        | some b =>
          rw [bind_of_value_eq_some rfl, bind_of_value_eq_some h, List.append_assoc]
      exact hassoc

/-- Two reckonings of which both are done, also if the first comes to no value. -/
def both {γ : Type} (f : α → β → γ) (x : Reckoning α) (y : Reckoning β) : Reckoning γ :=
  ⟨x.units ++ y.units, x.value.bind fun a ↦ y.value.map (f a)⟩

/-- The reckoning that comes to no value. -/
def fail : Reckoning α := ⟨[], none⟩

/-- Rounds to a number of places, half to even. -/
def round (x : Rat) (places : Int) : Reckoning Rat :=
  let n := nearestEven (x * (10 : Rat) ^ places)
  ⟨[n], some (n * (10 : Rat) ^ (-places))⟩

/-- No integer that was rounded to is too long to be written out. -/
def Fits (x : Reckoning α) : Prop := ∀ n ∈ x.units, Numeral.isOverlong n.natAbs = false

theorem Fits.of_bind {x : Reckoning α} {f : α → Reckoning β} (h : (x >>= f).Fits) : x.Fits := by
  intro n hn
  refine h n ?_
  cases hx : x.value with
  | none => rwa [bind_of_value_eq_none hx]
  | some a =>
    rw [bind_of_value_eq_some hx]
    exact List.mem_append_left _ hn

/-- A reckoning comes to a value, and no integer that was rounded to is too long. -/
def Yields (x : Reckoning α) (a : α) : Prop := x.Fits ∧ x.value = some a

theorem yields_pure (a : α) : (pure a : Reckoning α).Yields a := ⟨by simp [Fits, pure], rfl⟩

theorem Yields.bind {x : Reckoning α} {a : α} (h : x.Yields a) {f : α → Reckoning β} {b : β}
    (hf : (f a).Yields b) : (x >>= f).Yields b := by
  obtain ⟨units, value⟩ := x
  obtain ⟨hfits, hvalue⟩ := h
  cases hvalue
  exact ⟨fun n hn ↦ (List.mem_append.1 hn).elim (hfits n) (hf.1 n), hf.2⟩

theorem Yields.map {x : Reckoning α} {a : α} (h : x.Yields a) (f : α → β) :
    (f <$> x).Yields (f a) :=
  h.bind (yields_pure (f a))

/-- A number that has no more places than asked for is rounded to itself. -/
theorem yields_round {x : Rat} {places n : Int} (h : x * (10 : Rat) ^ places = n)
    (hn : Numeral.isOverlong n.natAbs = false) : (round x places).Yields x := by
  have hnearest : nearestEven (x * (10 : Rat) ^ places) = n := by rw [h, nearestEven_intCast]
  refine ⟨fun m hm ↦ ?_, ?_⟩
  · rw [List.mem_singleton.1 hm, hnearest]
    exact hn
  · have hvalue : (n : Rat) * (10 : Rat) ^ (-places) = x := by
      rw [← h, Decimal.mul_zpow_mul_zpow_neg]
    rw [round, hnearest, hvalue]

end Reckoning

/-- What an operator makes of two numbers. -/
def Operator.reckon (scale : Int) (op : Operator) (x y : Rat) : Reckoning Rat :=
  match op with
  | .plus => pure (x + y)
  | .minus => pure (x - y)
  | .times => pure (x * y)
  | .divide => if y = 0 then .fail else .round (x / y) (scale + guardPlaces)
  | .remainder => if y = 0 then .fail else pure (x - y * truncate (x / y))

/-! ## Agreement -/

/-- A fault says that something was to be divided by zero. -/
def Fault.IsByZero (e : Fault) : Prop := e = .divisionByZero ∨ e = .remainderByZero

/-- A computation has the value of a reckoning or, if that has none, a division by zero for its
fault. -/
def Settles {α β : Type} (f : α → β) (x : Except Fault α) : Option β → Prop
  | some b => x.map f = .ok b
  | none => ∃ e, x = .error e ∧ e.IsByZero

/-- A computation has the outcome of a reckoning, unless an integer that was rounded to is too
long. -/
def Agrees {α β : Type} (f : α → β) (x : Except Fault α) (y : Reckoning β) : Prop :=
  y.Fits → Settles f x y.value

theorem Agrees.of_yields {α β : Type} {f : α → β} {x : Except Fault α} {y : Reckoning β} {b : β}
    (h : Agrees f x y) (hy : y.Yields b) : ∃ a, x = .ok a ∧ f a = b := by
  have hsettles := h hy.1
  rw [hy.2] at hsettles
  exact Outcome.map_eq_ok_iff.1 hsettles

/-- A fault is a division by zero where no integer is too long. -/
theorem Agrees.isByZero {α β : Type} {f : α → β} {x : Except Fault α} {y : Reckoning β} {e : Fault}
    (h : Agrees f x y) (hfits : y.Fits) (hx : x = .error e) : e.IsByZero := by
  have hsettles := h hfits
  subst hx
  cases hvalue : y.value with
  | none =>
    rw [hvalue] at hsettles
    obtain ⟨e', he, hzero⟩ := hsettles
    cases he
    exact hzero
  | some b =>
    rw [hvalue] at hsettles
    cases hsettles

namespace Agrees

variable {α β γ δ : Type} {f : α → β} {g : γ → δ} {x : Except Fault α} {y : Reckoning β}

theorem pure (f : α → β) (a : α) : Agrees f (.ok a) (Pure.pure (f a)) := fun _ ↦ rfl

/-- Agreement goes on from one computation to the next. -/
theorem bind (h : Agrees f x y) {k : α → Except Fault γ} {l : β → Reckoning δ}
    (hk : ∀ a, Agrees g (k a) (l (f a))) : Agrees g (x.bind k) (y >>= l) := by
  obtain ⟨units, value⟩ := y
  intro hfits
  cases value with
  | none =>
    obtain ⟨e, rfl, he⟩ := h hfits
    exact ⟨e, rfl, he⟩
  | some b =>
    have hunits : ∀ n ∈ units ++ (l b).units, Numeral.isOverlong n.natAbs = false := hfits
    obtain ⟨a, rfl, rfl⟩ :=
      Outcome.map_eq_ok_iff.1 (h fun n hn ↦ hunits n (List.mem_append_left _ hn))
    exact hk a fun n hn ↦ hunits n (List.mem_append_right _ hn)

/-- Agreement is kept when both results are used in the same way. -/
theorem map (h : Agrees f x y) {k : α → γ} {l : β → δ} (hk : ∀ a, g (k a) = l (f a)) :
    Agrees g (x.map k) (l <$> y) := by
  have hbind : Agrees g (x.bind fun a ↦ .ok (k a)) (y >>= fun b ↦ Pure.pure (l b)) := by
    refine h.bind fun a ↦ ?_
    rw [← hk]
    exact Agrees.pure g (k a)
  cases x <;> exact hbind

/-- Agreement is kept when two computations are done and their results put together. -/
theorem both {ε ζ : Type} (hx : Agrees f x y) {z : Except Fault γ} {w : Reckoning δ}
    (hz : Agrees g z w) {k : α → γ → ε} {l : β → δ → ζ} {m : ε → ζ}
    (hk : ∀ a c, m (k a c) = l (f a) (g c)) :
    Agrees m (x.bind fun a ↦ z.map (k a)) (.both l y w) := by
  intro hfits
  have hy := hx fun n hn ↦ hfits n (List.mem_append_left _ hn)
  have hw := hz fun n hn ↦ hfits n (List.mem_append_right _ hn)
  rw [Reckoning.both]
  cases hyvalue : y.value with
  | none =>
    rw [hyvalue] at hy
    obtain ⟨e, rfl, he⟩ := hy
    exact ⟨e, rfl, he⟩
  | some b =>
    rw [hyvalue] at hy
    obtain ⟨a, rfl, rfl⟩ := Outcome.map_eq_ok_iff.1 hy
    cases hwvalue : w.value with
    | none =>
      rw [hwvalue] at hw
      obtain ⟨e, rfl, he⟩ := hw
      exact ⟨e, rfl, he⟩
    | some d =>
      rw [hwvalue] at hw
      obtain ⟨c, rfl, rfl⟩ := Outcome.map_eq_ok_iff.1 hw
      exact congrArg Except.ok (hk a c)

/-- A result may be put in another form that stands for the same. -/
theorem map_left (h : Agrees f x y) {k : α → γ} {g : γ → β} (hk : ∀ a, g (k a) = f a) :
    Agrees g (x.map k) y := by
  intro hfits
  have hsettles := h hfits
  cases hvalue : y.value with
  | none =>
    rw [hvalue] at hsettles
    obtain ⟨e, rfl, he⟩ := hsettles
    exact ⟨e, rfl, he⟩
  | some b =>
    rw [hvalue] at hsettles
    obtain ⟨a, rfl, rfl⟩ := Outcome.map_eq_ok_iff.1 hsettles
    exact congrArg Except.ok (hk a)

end Agrees

/-! ## Operations on literals -/

/-- The number that a literal writes. -/
def Operand.toRat (x : Operand) : Rat := x.1.value.toRat

theorem Operand.toRat_ofDecimal (d : Decimal) :
    toRat ⟨d.toLiteral, d.isProper_toLiteral⟩ = d.toRat :=
  Decimal.toRat_value_toLiteral d

/-- The answer that a number is given as: the nearest decimal with the places of the scale, and
whether that is another number. -/
def Answer.ofRat (scale : Int) (x : Rat) : Answer :=
  let value := Decimal.ofUnits (nearestEven (x * (10 : Rat) ^ scale)) (-scale)
  ⟨value, decide (value.toRat ≠ x)⟩

/-- A text has a value if it is a literal and rounding it does not take too many digits. -/
theorem conclude_eq_ok_iff {scale : Int} {t : Text} {a : Answer} :
    conclude scale t = .ok a ↔
      ∃ l, Literal.ofText? t = some l ∧
        Numeral.isOverlong (nearestEven (l.value.toRat * (10 : Rat) ^ scale)).natAbs = false ∧
        a = .ofRat scale l.value.toRat := by
  rw [conclude]
  cases hl : Literal.ofText? t with
  | none => simp
  | some l =>
    dsimp only
    by_cases hlong :
        Numeral.isOverlong (nearestEven (l.value.toRat * (10 : Rat) ^ scale)).natAbs = true
    · rw [Decimal.round?, if_pos hlong]
      simp [hlong]
    · rw [Bool.not_eq_true] at hlong
      rw [Decimal.round?_eq_some hlong]
      constructor
      · rintro h
        cases h
        exact ⟨l, rfl, hlong, rfl⟩
      · rintro ⟨l', hl', -, rfl⟩
        cases hl'
        rfl

/-- A literal that is left stands for the number that it writes, rounded. -/
theorem conclude_text {scale : Int} {x : Operand}
    (h : Numeral.isOverlong (nearestEven (x.toRat * (10 : Rat) ^ scale)).natAbs = false) :
    conclude scale x.1.text = .ok (.ofRat scale x.toRat) :=
  conclude_eq_ok_iff.2 ⟨x.1, Literal.ofText?_text x.2, h, rfl⟩

namespace Operator

variable {scale : Int}

/-- A quotient of decimals is rounded as the quotient of the numbers is. -/
theorem agrees_quotient (scale : Int) (a b : Decimal) :
    Agrees Decimal.toRat (quotient scale a b) (divide.reckon scale a.toRat b.toRat) := by
  rw [quotient, reckon]
  by_cases hb : b.isZero = true
  · rw [if_pos hb, if_pos ((Decimal.isZero_iff b).1 hb)]
    exact fun _ ↦ ⟨_, rfl, .inl rfl⟩
  · rw [if_neg hb, if_neg fun h ↦ hb ((Decimal.isZero_iff b).2 h)]
    intro hfits
    have hlong : Numeral.isOverlong
        (nearestEven (a.toRat / b.toRat * (10 : Rat) ^ (scale + guardPlaces))).natAbs = false :=
      hfits _ List.mem_cons_self
    rw [Decimal.round?_eq_some hlong]
    exact congrArg Except.ok (Decimal.toRat_ofUnits _ _)

/-- An operator does to decimals what it does to the numbers. -/
theorem agrees_apply (op : Operator) (a b : Decimal) :
    Agrees Decimal.toRat (op.apply scale a b) (op.reckon scale a.toRat b.toRat) := by
  cases op with
  | divide =>
    rw [apply]
    exact agrees_quotient scale a b
  | times => exact fun _ ↦ congrArg Except.ok (Decimal.toRat_mul a b)
  | plus => exact fun _ ↦ congrArg Except.ok (Decimal.toRat_add a b)
  | minus => exact fun _ ↦ congrArg Except.ok (Decimal.toRat_sub a b)
  | remainder =>
    rw [apply, reckon]
    by_cases hb : b.isZero = true
    · rw [if_pos hb, if_pos ((Decimal.isZero_iff b).1 hb)]
      exact fun _ ↦ ⟨_, rfl, .inr rfl⟩
    · rw [if_neg hb, if_neg fun h ↦ hb ((Decimal.isZero_iff b).2 h)]
      exact fun _ ↦ congrArg Except.ok (Decimal.toRat_rem a b)

end Operator

/-- An operation on literals agrees with the one on the numbers that they write. -/
theorem Operand.agrees_apply (scale : Int) (op : Operator) (x y : Operand) :
    Agrees toRat (apply scale op x y) (op.reckon scale x.toRat y.toRat) :=
  (Operator.agrees_apply op x.1.value y.1.value).map_left toRat_ofDecimal

/-! ## Rows -/

namespace Row

variable {scale : Int}

/-- Working off an operator in a row of literals agrees with doing so in the row of the numbers. -/
theorem agrees_workOff (op : Operator) (x : Operand) (rest : List (Joint × Operand)) :
    Agrees (Row.map Operand.toRat) (workOff (Operand.apply scale op) op x rest)
      (workOff (op.reckon scale) op x.toRat (rest.map fun (j, y) ↦ (j, y.toRat))) := by
  induction rest generalizing x with
  | nil => exact .pure _ (⟨x, []⟩ : Row Operand)
  | cons p rest ih =>
    obtain ⟨j, y⟩ := p
    rw [List.map_cons, workOff, workOff]
    by_cases hop : j.operator = op
    · rw [if_pos hop, if_pos hop]
      exact (Operand.agrees_apply scale op x y).bind ih
    · rw [if_neg hop, if_neg hop]
      exact (ih y).map fun r ↦ rfl

theorem agrees_workOffAll (ops : List Operator) (r : Row Operand) :
    Agrees (Row.map Operand.toRat) (workOffAll (Operand.apply scale) ops r)
      (workOffAll (Operator.reckon scale) ops (r.map Operand.toRat)) := by
  induction ops generalizing r with
  | nil => exact .pure _ r
  | cons op ops ih => exact (agrees_workOff op r.first r.rest).bind ih

/-- What a row of literals comes to agrees with what the row of the numbers does. -/
theorem agrees_value (r : Row Operand) :
    Agrees Operand.toRat (r.value (Operand.apply scale))
      ((r.map Operand.toRat).value (Operator.reckon scale)) :=
  (agrees_workOffAll Operator.all r).map fun _ ↦ rfl

end Row
end Reckon
