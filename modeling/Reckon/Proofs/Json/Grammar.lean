import Mathlib.Data.Nat.Digits.Defs
import Reckon.Json.Token
import Reckon.Proofs.Binary64.Nearest

/-!
# What a JSON document is

A document is described here without saying how it is read.  There are two levels.  Below, a text
is a row of lexemes with white space around them, and each `Lexeme` writes one token (`Layout`).
Above, the tokens of a value have the structure of the value: a `Phrase` is what a part of them
stands for, and `Derives` has one rule for each way in which a phrase is put together.  A `Document`
is a text that lays out the tokens of one value.

What a lexeme means is said by itself too.  Digits have their values by their places, a number with
places or a power of ten is the binary number nearest to it (`Binary64.Rounds`), and characters that
are escaped are given by their numbers.  The members of an object are those of its keys in the order
in which the keys come up first, each with the value that is given last (`Gathers`).

A whole number with too many digits has a lexeme, but no rule makes a value of it, so a text with
one in it is no document.  What can be said of such a text is that it begins as a document does and
then comes to a number of that kind (`MeetsOverlong`).  In the same way a text comes to a container
that is inside too many others (`MeetsTooDeep`), but such a text may still be a document.

Nothing is said about which lexeme to choose where one is the beginning of another.  There is no
choice in a document, since a number is always followed by a mark or by nothing.
-/

set_option autoImplicit false

namespace Reckon
namespace Json

/-! ## Strings -/

/-- A backslash and the first character write the second. -/
inductive ShortEscape : Char → Char → Prop
  | quote : ShortEscape '"' '"'
  | backslash : ShortEscape '\\' '\\'
  | slash : ShortEscape '/' '/'
  | backspace : ShortEscape 'b' '\x08'
  | formFeed : ShortEscape 'f' '\x0c'
  | lineFeed : ShortEscape 'n' '\n'
  | carriageReturn : ShortEscape 'r' '\r'
  | tabulator : ShortEscape 't' '\t'

/-- A hexadecimal digit, with a letter of either case, and its value. -/
def IsHexDigit (c : Char) (n : Nat) : Prop :=
  n < 16 ∧ (c = Nat.digitChar n ∨ c = (Nat.digitChar n).toUpper)

/-- Four hexadecimal digits and the number that they write. -/
def IsHexUnit (a b c d : Char) (n : Nat) : Prop :=
  ∃ w x y z, IsHexDigit a w ∧ IsHexDigit b x ∧ IsHexDigit c y ∧ IsHexDigit d z ∧
    n = Nat.ofDigits 16 [z, y, x, w]

/-- A number of the first half of a character beyond the first 65536. -/
def IsHighHalf (n : Nat) : Prop := 0xd800 ≤ n ∧ n ≤ 0xdbff

/-- A number of the second half of a character beyond the first 65536. -/
def IsLowHalf (n : Nat) : Prop := 0xdc00 ≤ n ∧ n ≤ 0xdfff

/-- A text begins with the escape of a second half of a character. -/
def StartsLowHalf (s : Text) : Prop :=
  ∃ a b c d n rest, s = '\\' :: 'u' :: a :: b :: c :: d :: rest ∧ IsHexUnit a b c d n ∧ IsLowHalf n

/-- What stands between the quotes of a string, and the points that it writes.  Two halves next to
each other are one character, so a first half is a point of its own only where no second half
follows. -/
inductive Inside : Text → List Point → Prop
  | nil : Inside [] []
  | plain {c : Char} {s : Text} {points : List Point} (hquote : c ≠ '"') (hescape : c ≠ '\\')
      (hcontrol : 0x20 ≤ c.toNat) : Inside s points → Inside (c :: s) (.char c :: points)
  | short {c e : Char} {s : Text} {points : List Point} (h : ShortEscape c e) :
      Inside s points → Inside ('\\' :: c :: s) (.char e :: points)
  | unit {a b c d e : Char} {s : Text} {points : List Point} (h : IsHexUnit a b c d e.toNat) :
      Inside s points → Inside ('\\' :: 'u' :: a :: b :: c :: d :: s) (.char e :: points)
  | half {a b c d : Char} {n : Nat} {s : Text} {points : List Point} (h : IsHexUnit a b c d n)
      (hhalf : IsHighHalf n ∧ ¬ StartsLowHalf s ∨ IsLowHalf n) : Inside s points →
      Inside ('\\' :: 'u' :: a :: b :: c :: d :: s) (.half n :: points)
  | pair {a b c d e f g h i : Char} {high low : Nat} {s : Text} {points : List Point}
      (hfirst : IsHexUnit a b c d high) (hsecond : IsHexUnit e f g h low) (hhigh : IsHighHalf high)
      (hlow : IsLowHalf low)
      (hchar : i.toNat = 0x10000 + 0x400 * (high - 0xd800) + (low - 0xdc00)) : Inside s points →
      Inside ('\\' :: 'u' :: a :: b :: c :: d :: '\\' :: 'u' :: e :: f :: g :: h :: s)
        (.char i :: points)

/-! ## Numbers -/

/-- One or more digits. -/
structure IsDigits (s : Text) : Prop where
  ne_nil : s ≠ []
  isDigit : ∀ c ∈ s, c.isDigit = true

/-- The number that digits write. -/
def digitsValue (s : Text) : Nat := Nat.ofDigits 10 (s.reverse.map fun c ↦ c.toNat - '0'.toNat)

/-- The digits before the point: a zero alone, or digits that do not begin with one. -/
structure IsWhole (s : Text) : Prop extends IsDigits s where
  tidy : s = ['0'] ∨ s.head? ≠ some '0'

/-- The point and the digits behind it, or nothing, and the fraction that they write. -/
inductive IsPlaces : Text → Rat → Prop
  | none : IsPlaces [] 0
  | some {s : Text} : IsDigits s → IsPlaces ('.' :: s) (digitsValue s / 10 ^ s.length)

/-- A power of ten, which may have a sign, or nothing, and its exponent. -/
inductive IsPower : Text → Int → Prop
  | none : IsPower [] 0
  | unsigned {c : Char} {s : Text} : c = 'e' ∨ c = 'E' → IsDigits s →
      IsPower (c :: s) (digitsValue s)
  | plus {c : Char} {s : Text} : c = 'e' ∨ c = 'E' → IsDigits s →
      IsPower (c :: '+' :: s) (digitsValue s)
  | minus {c : Char} {s : Text} : c = 'e' ∨ c = 'E' → IsDigits s →
      IsPower (c :: '-' :: s) (-digitsValue s)

/-! ## Lexemes -/

/-- The words that are tokens. -/
inductive Keyword : Text → Token → Prop
  | null : Keyword "null".toList .null
  | true : Keyword "true".toList (.bool true)
  | false : Keyword "false".toList (.bool false)
  | nan : Keyword "NaN".toList (.float .nan)
  | infinity : Keyword "Infinity".toList (.float (.infinite false))
  | minusInfinity : Keyword "-Infinity".toList (.float (.infinite true))

/-- How tokens are written. -/
inductive Lexeme : Text → Token → Prop
  | openArray : Lexeme ['['] .openArray
  | closeArray : Lexeme [']'] .closeArray
  | openObject : Lexeme ['\x7b'] .openObject
  | closeObject : Lexeme ['\x7d'] .closeObject
  | colon : Lexeme [':'] .colon
  | comma : Lexeme [','] .comma
  | keyword {s : Text} {t : Token} : Keyword s t → Lexeme s t
  | string {s : Text} {points : List Point} : Inside s points →
      Lexeme ('"' :: (s ++ ['"'])) (.string points)
  | integer (negative : Bool) {whole : Text} : IsWhole whole → whole.length ≤ 4300 →
      Lexeme (Literal.signText negative ++ whole)
        (.integer (if negative then -digitsValue whole else digitsValue whole))
  | overlong (negative : Bool) {whole : Text} : IsWhole whole → 4300 < whole.length →
      Lexeme (Literal.signText negative ++ whole) (.overlong whole.length)
  | float (negative : Bool) {whole places power : Text} {fraction : Rat} {e : Int} {x : Binary64} :
      IsWhole whole → IsPlaces places fraction → IsPower power e → (places ≠ [] ∨ power ≠ []) →
      Binary64.Rounds negative ((digitsValue whole + fraction) * 10 ^ e) x →
      Lexeme (Literal.signText negative ++ (whole ++ (places ++ power))) (.float x)

/-- White space: spaces, tabulators, line feeds and carriage returns. -/
def IsGap (s : Text) : Prop := ∀ c ∈ s, c = ' ' ∨ c = '\t' ∨ c = '\n' ∨ c = '\r'

/-- A text that lays out tokens: their lexemes with white space around them. -/
inductive Layout : Text → List Token → Prop
  | nil {gap : Text} : IsGap gap → Layout gap []
  | cons {gap u s : Text} {t : Token} {ts : List Token} : IsGap gap → Lexeme u t → Layout s ts →
      Layout (gap ++ (u ++ s)) (t :: ts)

/-! ## Values -/

/-- Among keys and values, the last value of a key. -/
def BindsLast (ms : List (List Point × Json)) (key : List Point) (v : Json) : Prop :=
  ∃ front back, ms = front ++ (key, v) :: back ∧ ∀ m ∈ back, m.1 ≠ key

/-- The members of an object in which keys and values stand like this: the keys in the order in
which they come up first, each with its last value. -/
structure Gathers (ms : List (List Point × Json)) (members : Members) : Prop where
  keys : members.map Prod.fst = (ms.map Prod.fst).eraseDups
  last : ∀ m ∈ members, BindsLast ms m.1 m.2

/-- What a part of a document stands for. -/
inductive Phrase where
  /-- A value. -/
  | value (v : Json)
  /-- One or more items of an array. -/
  | items (vs : List Json)
  /-- One or more keys and values of an object. -/
  | members (ms : List (List Point × Json))

/-- The tokens of a phrase. -/
inductive Derives : Phrase → List Token → Prop
  | null : Derives (.value .null) [.null]
  | bool (b : Bool) : Derives (.value (.bool b)) [.bool b]
  | integer (z : Int) : Derives (.value (.integer z)) [.integer z]
  | float (x : Binary64) : Derives (.value (.float x)) [.float x]
  | string (s : Text) : Derives (.value (.string s)) [.string (Point.ofText s)]
  | broken {points : List Point} : (∀ s, points ≠ Point.ofText s) →
      Derives (.value (.broken points)) [.string points]
  | emptyArray : Derives (.value (.array [])) [.openArray, .closeArray]
  | array {vs : List Json} {ts : List Token} : Derives (.items vs) ts →
      Derives (.value (.array vs)) (.openArray :: (ts ++ [.closeArray]))
  | emptyObject : Derives (.value (.object [])) [.openObject, .closeObject]
  | object {ms : List (List Point × Json)} {members : Members} {ts : List Token} :
      Derives (.members ms) ts → Gathers ms members →
      Derives (.value (.object members)) (.openObject :: (ts ++ [.closeObject]))
  | item {v : Json} {ts : List Token} : Derives (.value v) ts → Derives (.items [v]) ts
  | items {vs : List Json} {v : Json} {ts us : List Token} : Derives (.items vs) ts →
      Derives (.value v) us → Derives (.items (vs ++ [v])) (ts ++ .comma :: us)
  | member (key : List Point) {v : Json} {ts : List Token} : Derives (.value v) ts →
      Derives (.members [(key, v)]) (.string key :: .colon :: ts)
  | members {ms : List (List Point × Json)} (key : List Point) {v : Json} {ts us : List Token} :
      Derives (.members ms) ts → Derives (.value v) us →
      Derives (.members (ms ++ [(key, v)])) (ts ++ .comma :: .string key :: .colon :: us)

/-! ## Documents -/

/-- A text is a document with this value. -/
def Document (s : Text) (v : Json) : Prop := ∃ ts, Layout s ts ∧ Derives (.value v) ts

/-- A text that a number could go on with. -/
inductive ContinuesNumber : Text → Prop
  | digit {c : Char} {s : Text} : c.isDigit = true → ContinuesNumber (c :: s)
  | places {c : Char} {s : Text} : c.isDigit = true → ContinuesNumber ('.' :: c :: s)
  | power {e c : Char} {s : Text} : e = 'e' ∨ e = 'E' → c.isDigit = true →
      ContinuesNumber (e :: c :: s)
  | signedPower {e sign c : Char} {s : Text} : e = 'e' ∨ e = 'E' → sign = '+' ∨ sign = '-' →
      c.isDigit = true → ContinuesNumber (e :: sign :: c :: s)

/-- Whether a token is a number, which might go on. -/
def Token.isNumber : Token → Bool
  | .integer _ | .float _ | .overlong _ => true
  | _ => false

/-- A text begins with these tokens as a document does, up to a place for a value, and the token
that stands there is `t`. -/
def ComesTo (s : Text) (ts : List Token) (t : Token) : Prop :=
  ∃ front u rest : Text, ∃ us : List Token, ∃ v : Json,
    s = front ++ (u ++ rest) ∧ Layout front ts ∧ Derives (.value v) (ts ++ .null :: us) ∧
      Lexeme u t ∧ (t.isNumber = true → ¬ ContinuesNumber rest)

/-- A text begins as a document does, up to a place for a value, and a whole number of so many
digits, too many to be read, stands there. -/
def MeetsOverlong (s : Text) (digits : Nat) : Prop := ∃ ts, ComesTo s ts (.overlong digits)

/-! ## Nesting -/

/-- By how much a token changes the number of containers that are open. -/
def Token.level : Token → Int
  | .openArray | .openObject => 1
  | .closeArray | .closeObject => -1
  | _ => 0

/-- At no place among these tokens are more containers open than the limit. -/
def Nests (limit : Int) (ts : List Token) : Prop :=
  ∀ us, us <+: ts → (us.map Token.level).sum ≤ limit

/-- The token that begins a container. -/
def Container.opening : Container → Token
  | .array => .openArray
  | .object => .openObject

/-- A text begins as a document does, up to a place for a value, and begins a container there that
is inside as many others as the limit allows to be open at all. -/
def MeetsTooDeep (limit : Nat) (s : Text) (container : Container) : Prop :=
  ∃ ts, ComesTo s ts container.opening ∧ Nests limit ts ∧ ¬ Nests limit (ts ++ [container.opening])

end Json
end Reckon
