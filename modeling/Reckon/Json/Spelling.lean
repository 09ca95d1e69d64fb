import Reckon.Binary64.Shortest
import Reckon.Json.Value
import Reckon.Text.Printable

/-!
# How a value is spelled in a message

Messages spell values in their own way: `None`, `True` and `False` for the keywords, brackets with a
comma and a space between items, and quotes that suit the string, single ones unless it holds single
quotes and no double ones.  Inside quotes, printable characters stand for themselves.

`spelled` is the spelling inside a message, and `shown` that of a value on its own, where a string
goes without quotes.  `typeName` is what messages call the kind of a value.
-/

set_option autoImplicit false

namespace Reckon
namespace Json

/-! ## Strings -/

/-- A number in hexadecimal digits, with zeros in front up to a width. -/
def hexText (width n : Nat) : Text := Decimal.padded width (Nat.toDigits 16 n)

/-- The escape of an unprintable character, as short as its code point allows. -/
def codeEscape (c : Char) : Text :=
  let n := c.toNat
  if n < 0x100 then '\\' :: 'x' :: hexText 2 n
  else if n < 0x10000 then '\\' :: 'u' :: hexText 4 n
  else '\\' :: 'U' :: hexText 8 n

/-- The quote that suits a string. -/
def quoteFor (s : Text) : Char := if s.contains '\'' && !s.contains '"' then '"' else '\''

/-- A character between quotes of one kind. -/
def quotedChar (quote c : Char) : Text :=
  if c = quote ∨ c = '\\' then ['\\', c]
  else if c = '\t' then ['\\', 't']
  else if c = '\n' then ['\\', 'n']
  else if c = '\r' then ['\\', 'r']
  else if Text.isPrintable c then [c]
  else codeEscape c

/-- A point between quotes of one kind. -/
def quotedPoint (quote : Char) : Point → Text
  | .char c => quotedChar quote c
  | .half unit => '\\' :: 'u' :: hexText 4 unit

/-- Points in quotes. -/
def quotedPoints (ps : List Point) : Text :=
  let quote := quoteFor (Point.replaced ps)
  quote :: (ps.flatMap (quotedPoint quote) ++ [quote])

/-- A text in quotes. -/
def quoted (s : Text) : Text := quotedPoints (Point.ofText s)

/-! ## Values -/

mutual

/-- A value inside a message. -/
def spelled : Json → Text
  | .null => "None".toList
  | .bool true => "True".toList
  | .bool false => "False".toList
  | .integer z => Numeral.ofInt z
  | .float x => x.text
  | .string s => quoted s
  | .broken ps => quotedPoints ps
  | .array [] => ['[', ']']
  | .array (v :: vs) => '[' :: (spelled v ++ spelledItems vs)
  | .object [] => ['\x7b', '\x7d']
  | .object ((k, v) :: ms) =>
    '\x7b' :: (quotedPoints k ++ (':' :: ' ' :: (spelled v ++ spelledMembers ms)))

/-- The items behind the first one, and the bracket that closes them. -/
def spelledItems : List Json → Text
  | [] => [']']
  | v :: vs => ',' :: ' ' :: (spelled v ++ spelledItems vs)

/-- The members behind the first one, and the brace that closes them. -/
def spelledMembers : List (List Point × Json) → Text
  | [] => ['\x7d']
  | (k, v) :: ms =>
    ',' :: ' ' :: (quotedPoints k ++ (':' :: ' ' :: (spelled v ++ spelledMembers ms)))

end

/-- A value on its own.  Of a broken string, what is no text is replaced. -/
def shown : Json → Text
  | .string s => s
  | .broken ps => Point.replaced ps
  | v => spelled v

/-- What the kind of a value is called. -/
def typeName : Json → Text
  | .null => "NoneType".toList
  | .bool _ => "bool".toList
  | .integer _ => "int".toList
  | .float _ => "float".toList
  | .string _ | .broken _ => "str".toList
  | .array _ => "list".toList
  | .object _ => "dict".toList

end Json
end Reckon
