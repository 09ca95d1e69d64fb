import Reckon.Binary64.Shortest
import Reckon.Json.Value

/-!
# Writing a JSON document

`write` lays a value out over lines: each item and each member on a line of its own, indented by
four spaces for every container around it, and an empty container on one line with what surrounds
it.  Everything outside printable ASCII is escaped, characters beyond the first 65536 in two halves.
`obstacle?` finds what a value cannot be written for: a whole number in it that is too long, or a
container inside too many others.
-/

set_option autoImplicit false

namespace Reckon
namespace Json

/-! ## Strings -/

/-- A unit of sixteen bits as four hexadecimal digits. -/
def unitText (n : Nat) : Text :=
  [Nat.digitChar (n / 4096 % 16), Nat.digitChar (n / 256 % 16), Nat.digitChar (n / 16 % 16),
    Nat.digitChar (n % 16)]

/-- The escape of a character that has no shorter one. -/
def longEscape (c : Char) : Text :=
  let n := c.toNat
  if n < 0x10000 then '\\' :: 'u' :: unitText n
  else
    let m := n - 0x10000
    '\\' :: 'u' :: unitText (0xd800 + m / 1024) ++ '\\' :: 'u' :: unitText (0xdc00 + m % 1024)

/-- A character as it stands in a string. -/
def charText (c : Char) : Text :=
  if c = '"' then ['\\', '"']
  else if c = '\\' then ['\\', '\\']
  else if c = '\n' then ['\\', 'n']
  else if c = '\r' then ['\\', 'r']
  else if c = '\t' then ['\\', 't']
  else if c = '\x0c' then ['\\', 'f']
  else if c = '\x08' then ['\\', 'b']
  else if ' ' ≤ c ∧ c ≤ '~' then [c]
  else longEscape c

/-- A point as it stands in a string. -/
def pointText : Point → Text
  | .char c => charText c
  | .half unit => '\\' :: 'u' :: unitText unit

/-- Points as a string, with its quotes. -/
def pointsText (ps : List Point) : Text := '"' :: (ps.flatMap pointText ++ ['"'])

/-- A text as a string, with its quotes. -/
def stringText (s : Text) : Text := pointsText (Point.ofText s)

/-! ## Numbers -/

/-- A binary number; those that are not finite go by their names. -/
def floatText : Binary64 → Text
  | .nan => "NaN".toList
  | .infinite negative => Literal.signText negative ++ "Infinity".toList
  | x => x.text

/-! ## Values -/

/-- A new line inside `depth` containers. -/
def lineStart (depth : Nat) : Text := '\n' :: List.replicate (4 * depth) ' '

mutual

/-- A value inside `depth` containers. -/
def writeAt (depth : Nat) : Json → Text
  | .null => "null".toList
  | .bool true => "true".toList
  | .bool false => "false".toList
  | .integer z => Numeral.ofInt z
  | .float x => floatText x
  | .string s => stringText s
  | .broken ps => pointsText ps
  | .array [] => ['[', ']']
  | .array (v :: vs) =>
    '[' :: (lineStart (depth + 1) ++ (writeAt (depth + 1) v ++ writeItems depth vs))
  | .object [] => ['\x7b', '\x7d']
  | .object ((k, v) :: ms) =>
    '\x7b' :: (lineStart (depth + 1) ++ (pointsText k ++ (':' :: ' ' ::
      (writeAt (depth + 1) v ++ writeMembers depth ms))))

/-- The items behind the first one, and the end of their array. -/
def writeItems (depth : Nat) : List Json → Text
  | [] => lineStart depth ++ [']']
  | v :: vs =>
    ',' :: (lineStart (depth + 1) ++ (writeAt (depth + 1) v ++ writeItems depth vs))

/-- The members behind the first one, and the end of their object. -/
def writeMembers (depth : Nat) : List (List Point × Json) → Text
  | [] => lineStart depth ++ ['\x7d']
  | (k, v) :: ms =>
    ',' :: (lineStart (depth + 1) ++ (pointsText k ++ (':' :: ' ' ::
      (writeAt (depth + 1) v ++ writeMembers depth ms))))

end

/-- A value as a document. -/
def write (v : Json) : Text := writeAt 0 v

/-! ## Limits -/

/-- Why a value is not written. -/
inductive WriteFault where
  /-- A whole number has more digits than are written. -/
  | overlong
  /-- A container is inside too many others. -/
  | tooDeep
deriving DecidableEq, Repr

mutual

/-- What a value cannot be written for, with room for so many containers inside one another; the
first thing on the way counts. -/
def obstacle? (room : Nat) : Json → Option WriteFault
  | .integer z => if Numeral.isOverlong z.natAbs then some .overlong else none
  | .array vs =>
    match room with
    | 0 => some .tooDeep
    | room + 1 => obstacleItems? room vs
  | .object ms =>
    match room with
    | 0 => some .tooDeep
    | room + 1 => obstacleMembers? room ms
  | .null | .bool _ | .float _ | .string _ | .broken _ => none

/-- What one of the items cannot be written for. -/
def obstacleItems? (room : Nat) : List Json → Option WriteFault
  | [] => none
  | v :: vs => (obstacle? room v).or (obstacleItems? room vs)

/-- What one of the members cannot be written for. -/
def obstacleMembers? (room : Nat) : List (List Point × Json) → Option WriteFault
  | [] => none
  | (_, v) :: ms => (obstacle? room v).or (obstacleMembers? room ms)

end

end Json
end Reckon
