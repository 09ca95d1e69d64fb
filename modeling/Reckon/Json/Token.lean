import Reckon.Binary64.Shortest
import Reckon.Decimal.Reader
import Reckon.Json.Value

/-!
# The tokens of a JSON text

`tokens` cuts a text into the marks, keywords, numbers and strings of JSON, dropping the white space
between them.  It never fails: where nothing can be recognised it puts the token `bad` and stops,
and a whole number too long to be read is the token `overlong`.  So whoever reads the tokens meets
each fault where it stands in the text, after everything that comes before it.  The same goes for
the room that containers take: `limited` cuts tokens off at the first container that would be inside
too many others, and puts the token `tooDeep` there.

Beyond the standard, `NaN`, `Infinity` and `-Infinity` are numbers.
-/

set_option autoImplicit false

namespace Reckon
namespace Json

/-- What holds other values. -/
inductive Container where
  | array
  | object
deriving DecidableEq, Repr

/-- A token of a JSON text. -/
inductive Token where
  | openArray
  | closeArray
  | openObject
  | closeObject
  | colon
  | comma
  | null
  | bool (b : Bool)
  | integer (z : Int)
  | float (x : Binary64)
  | string (points : List Point)
  /-- A whole number of so many digits that it is not read. -/
  | overlong (digits : Nat)
  /-- The beginning of a container for which there is no room. -/
  | tooDeep (container : Container)
  /-- Something that is no token. -/
  | bad

/-- White space between tokens: space, tab, line feed and carriage return. -/
def isGap (c : Char) : Bool := c = ' ' || c = '\t' || c = '\n' || c = '\r'

/-! ## Strings -/

/-- The value of a hexadecimal digit. -/
def hexDigit? (c : Char) : Option Nat :=
  if '0' ≤ c ∧ c ≤ '9' then some (c.toNat - '0'.toNat)
  else if 'a' ≤ c ∧ c ≤ 'f' then some (c.toNat - 'a'.toNat + 10)
  else if 'A' ≤ c ∧ c ≤ 'F' then some (c.toNat - 'A'.toNat + 10)
  else none

/-- The number that four hexadecimal digits write. -/
def hexUnit? (a b c d : Char) : Option Nat := do
  let a ← hexDigit? a
  let b ← hexDigit? b
  let c ← hexDigit? c
  let d ← hexDigit? d
  some (4096 * a + 256 * b + 16 * c + d)

/-- Whether a unit is the first half of a character beyond the first 65536. -/
def isHighHalf (n : Nat) : Bool := 0xd800 ≤ n && n ≤ 0xdbff

/-- Whether a unit is the second half of a character beyond the first 65536. -/
def isLowHalf (n : Nat) : Bool := 0xdc00 ≤ n && n ≤ 0xdfff

/-- The point that a unit writes alone. -/
def unitPoint (n : Nat) : Point :=
  if isHighHalf n || isLowHalf n then .half n else .char (Char.ofNat n)

/-- The character that two halves write. -/
def pairChar (high low : Nat) : Char :=
  Char.ofNat (0x10000 + 1024 * (high - 0xd800) + (low - 0xdc00))

/-- The character that a backslash and one more character write. -/
def shortEscape? (c : Char) : Option Char :=
  if c = '"' ∨ c = '\\' ∨ c = '/' then some c
  else if c = 'b' then some '\x08'
  else if c = 'f' then some '\x0c'
  else if c = 'n' then some '\n'
  else if c = 'r' then some '\r'
  else if c = 't' then some '\t'
  else none

/-- The points of a string from behind its opening quote on, and what follows the closing one.
Control characters have to be escaped. -/
def scanString? : Text → Option (List Point × Text)
  | [] => none
  | '"' :: s => some ([], s)
  | '\\' :: 'u' :: a :: b :: c :: d :: '\\' :: 'u' :: e :: f :: g :: h :: s =>
    match hexUnit? a b c d, hexUnit? e f g h with
    | some high, some low =>
      if isHighHalf high && isLowHalf low then
        (scanString? s).map fun (t, rest) ↦ (.char (pairChar high low) :: t, rest)
      else
        (scanString? ('\\' :: 'u' :: e :: f :: g :: h :: s)).map fun (t, rest) ↦
          (unitPoint high :: t, rest)
    | _, _ => none
  | '\\' :: 'u' :: a :: b :: c :: d :: s =>
    match hexUnit? a b c d with
    | some n => (scanString? s).map fun (t, rest) ↦ (unitPoint n :: t, rest)
    | none => none
  | '\\' :: c :: s =>
    match shortEscape? c with
    | some e => (scanString? s).map fun (t, rest) ↦ (.char e :: t, rest)
    | none => none
  | c :: s =>
    if c = '\\' ∨ c.toNat < 0x20 then none
    else (scanString? s).map fun (t, rest) ↦ (.char c :: t, rest)

/-! ## Numbers -/

/-- The whole part of a number without its sign: a zero alone, or digits that do not begin with one,
and what follows them. -/
def scanWhole? : Text → Option (Text × Text)
  | '0' :: s => some (['0'], s)
  | s =>
    if (s.takeWhile Char.isDigit).isEmpty then none
    else some (s.takeWhile Char.isDigit, s.dropWhile Char.isDigit)

/-- The places of a number, with their point, and what follows them.  There are none where no digit
follows the point. -/
def scanPlaces : Text → Text × Text
  | '.' :: s =>
    if (s.takeWhile Char.isDigit).isEmpty then ([], '.' :: s)
    else ('.' :: s.takeWhile Char.isDigit, s.dropWhile Char.isDigit)
  | s => ([], s)

/-- A sign at the head of a text, and what follows it. -/
def scanSign : Text → Text × Text
  | '+' :: s => (['+'], s)
  | '-' :: s => (['-'], s)
  | s => ([], s)

/-- The power of ten of a number, with its letter, and what follows it.  There is none where no
digit follows the letter and the sign. -/
def scanPower : Text → Text × Text
  | [] => ([], [])
  | c :: s =>
    let (sign, t) := scanSign s
    if (c = 'e' ∨ c = 'E') ∧ ¬ (t.takeWhile Char.isDigit).isEmpty then
      (c :: sign ++ t.takeWhile Char.isDigit, t.dropWhile Char.isDigit)
    else ([], c :: s)

/-- The token of a whole number. -/
def integerToken (negative : Bool) (whole : Text) : Token :=
  if Numeral.maxDigits < whole.length then .overlong whole.length
  else .integer (if negative then -(Numeral.ofDigits whole : Int) else Numeral.ofDigits whole)

/-- The token of a number with places or a power of ten. -/
def floatToken (s : Text) : Token :=
  match Binary64.ofText? s with
  | some x => .float x
  | none => .bad

/-- A number at the head of a text, given its sign, and what follows it. -/
def scanNumber? (negative : Bool) (s : Text) : Option (Token × Text) :=
  match scanWhole? s with
  | none => none
  | some (whole, s) =>
    let (places, s) := scanPlaces s
    let (power, s) := scanPower s
    if places.isEmpty && power.isEmpty then some (integerToken negative whole, s)
    else some (floatToken (Literal.signText negative ++ (whole ++ (places ++ power))), s)

/-! ## Tokens -/

/-- The keywords and what they mean. -/
def keywords : List (Text × Token) :=
  [("null".toList, .null), ("true".toList, .bool true), ("false".toList, .bool false),
    ("NaN".toList, .float .nan), ("Infinity".toList, .float (.infinite false)),
    ("-Infinity".toList, .float (.infinite true))]

/-- What follows `front` in a text that begins with it. -/
def dropFront? : Text → Text → Option Text
  | [], s => some s
  | c :: front, d :: s => if c = d then dropFront? front s else none
  | _ :: _, [] => none

/-- A keyword at the head of a text, and what follows it. -/
def scanKeyword? (s : Text) : Option (Token × Text) :=
  keywords.findSome? fun (word, token) ↦ (dropFront? word s).map fun rest ↦ (token, rest)

/-- The token at the head of a text, and what follows it. -/
def scanToken? : Text → Option (Token × Text)
  | [] => none
  | '[' :: s => some (.openArray, s)
  | ']' :: s => some (.closeArray, s)
  | '\x7b' :: s => some (.openObject, s)
  | '\x7d' :: s => some (.closeObject, s)
  | ':' :: s => some (.colon, s)
  | ',' :: s => some (.comma, s)
  | '"' :: s => (scanString? s).map fun (t, rest) ↦ (.string t, rest)
  | c :: s =>
    match scanKeyword? (c :: s) with
    | some found => some found
    | none => if c = '-' then scanNumber? true s else scanNumber? false (c :: s)

/-! ## What is left gets shorter -/

theorem length_rest_scanString? {s rest : Text} {t : List Point}
    (h : scanString? s = some (t, rest)) :
    rest.length < s.length := by
  fun_induction scanString? s generalizing t <;>
    simp_all [Option.map_eq_some_iff] <;> grind

theorem length_dropWhile_le (p : Char → Bool) (s : Text) : (s.dropWhile p).length ≤ s.length :=
  (List.dropWhile_suffix p).length_le

theorem length_rest_scanPlaces (s : Text) : (scanPlaces s).2.length ≤ s.length := by
  unfold scanPlaces
  split
  · next s =>
    have := length_dropWhile_le Char.isDigit s
    split
    · exact Nat.le_refl _
    · exact Nat.le_succ_of_le this
  · exact Nat.le_refl _

theorem length_rest_scanPower (s : Text) : (scanPower s).2.length ≤ s.length := by
  unfold scanPower
  split
  · simp
  · next c s =>
    have hsign : (scanSign s).2.length ≤ s.length := by
      unfold scanSign
      split <;> simp
    have := length_dropWhile_le Char.isDigit (scanSign s).2
    dsimp only
    split
    · exact Nat.le_succ_of_le (Nat.le_trans this hsign)
    · exact Nat.le_refl _

theorem length_rest_scanWhole? {s whole rest : Text} (h : scanWhole? s = some (whole, rest)) :
    rest.length < s.length := by
  unfold scanWhole? at h
  split at h
  · cases h; simp
  · split at h
    · cases h
    · next hne =>
      cases h
      have hlen :=
        congrArg List.length (List.takeWhile_append_dropWhile (p := Char.isDigit) (l := s))
      have hpos : 0 < (s.takeWhile Char.isDigit).length :=
        List.length_pos_iff.2 fun hnil ↦ hne (List.isEmpty_iff.2 hnil)
      rw [List.length_append] at hlen
      omega

theorem length_rest_scanNumber? {negative : Bool} {s rest : Text} {token : Token}
    (h : scanNumber? negative s = some (token, rest)) : rest.length < s.length := by
  unfold scanNumber? at h
  split at h
  · cases h
  · next whole s' hwhole =>
    have h₁ := length_rest_scanWhole? hwhole
    have h₂ := length_rest_scanPlaces s'
    have h₃ := length_rest_scanPower (scanPlaces s').2
    dsimp only at h
    split at h
    · cases h; omega
    · cases h; omega

theorem length_rest_dropFront? {front s rest : Text} (h : dropFront? front s = some rest) :
    rest.length + front.length = s.length := by
  fun_induction dropFront? front s with
  | case1 s =>
    cases h
    rfl
  | case2 c front s ih =>
    have hlen := ih h
    rw [List.length_cons, List.length_cons]
    omega
  | case3 => cases h
  | case4 => cases h

theorem length_rest_scanKeyword? {s rest : Text} {token : Token}
    (h : scanKeyword? s = some (token, rest)) : rest.length < s.length := by
  obtain ⟨⟨word, token'⟩, hmem, hword⟩ := List.exists_of_findSome?_eq_some h
  obtain ⟨rest', hdrop, heq⟩ := Option.map_eq_some_iff.1 hword
  cases heq
  have hlen := length_rest_dropFront? hdrop
  have hpos : 0 < word.length := by
    simp only [keywords, List.mem_cons, Prod.mk.injEq, List.not_mem_nil, or_false] at hmem
    rcases hmem with h | h | h | h | h | h <;> rw [h.1] <;> decide
  omega

theorem length_rest_scanToken? {s rest : Text} {token : Token}
    (h : scanToken? s = some (token, rest)) : rest.length < s.length := by
  unfold scanToken? at h
  split at h
  · cases h
  iterate 6
    · cases h
      simp
  · obtain ⟨⟨t, rest'⟩, hscan, heq⟩ := Option.map_eq_some_iff.1 h
    cases heq
    have := length_rest_scanString? hscan
    simp only [List.length_cons]
    omega
  · next c s _ _ _ _ _ _ _ =>
    split at h
    · next hk => cases h; exact length_rest_scanKeyword? hk
    · split at h
      · have := length_rest_scanNumber? h
        simp only [List.length_cons]
        omega
      · exact length_rest_scanNumber? h

/-! ## Texts -/

/-- The tokens of a text. -/
def tokens (s : Text) : List Token :=
  match _hgap : s.dropWhile isGap with
  | [] => []
  | c :: t =>
    match _htoken : scanToken? (c :: t) with
    | none => [.bad]
    | some (token, rest) => token :: tokens rest
termination_by s.length
decreasing_by
  have h₁ := length_rest_scanToken? _htoken
  have h₂ := length_dropWhile_le isGap s
  rw [_hgap] at h₂
  omega

/-- The container that a token begins, if it begins one. -/
def Token.opens? : Token → Option Container
  | .openArray => some .array
  | .openObject => some .object
  | _ => none

/-- Whether a token ends a container. -/
def Token.closes : Token → Bool
  | .closeArray | .closeObject => true
  | _ => false

/-- Tokens up to the first that begins a container although there is no more room; a container takes
room for one until it ends. -/
def limited (room : Nat) : List Token → List Token
  | [] => []
  | t :: ts =>
    match t.opens?, room with
    | some container, 0 => [.tooDeep container]
    | some _, room + 1 => t :: limited room ts
    | none, room => t :: limited (if t.closes then room + 1 else room) ts

end Json
end Reckon
