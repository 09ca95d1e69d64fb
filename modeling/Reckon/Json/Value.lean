import Reckon.Binary64.Basic

/-!
# JSON values

The values a settings file may hold.  Whole numbers and binary numbers are told apart, as `2` and
`2.0` are in the file.  An object lists its members in order; `Members.set` is how one is built, and
it keeps the keys apart: a key that is there already keeps its place and gets the new value.

A character beyond the first 65536 may be written in two halves, and a string may have one of them
without the other.  Such a string is no `Text`, so it is a value of its own, `broken`, which keeps
its points as they are.  Keys are kept as points throughout.
-/

set_option autoImplicit false

namespace Reckon

/-- What strings are made of. -/
inductive Point where
  /-- A character. -/
  | char (c : Char)
  /-- Half a character, by the unit that it is. -/
  | half (unit : Nat)
deriving DecidableEq, Repr

namespace Point

/-- The character that a point is, if it is a whole one. -/
def char? : Point → Option Char
  | .char c => some c
  | .half _ => none

/-- The text that points make, if all of them are characters. -/
def text? : List Point → Option Text
  | [] => some []
  | p :: ps =>
    match p.char?, text? ps with
    | some c, some s => some (c :: s)
    | _, _ => none

/-- The points of a text. -/
def ofText (s : Text) : List Point := s.map .char

/-- The text that points make when each half of a character is replaced. -/
def replaced (ps : List Point) : Text := ps.map fun p ↦ p.char?.getD '\ufffd'

end Point

/-- A JSON value. -/
inductive Json where
  | null
  | bool (b : Bool)
  | integer (z : Int)
  | float (x : Binary64)
  | string (s : Text)
  | broken (points : List Point)
  | array (items : List Json)
  | object (members : List (List Point × Json))
deriving Inhabited

/-- The members of an object, in order. -/
abbrev Members := List (List Point × Json)

namespace Members

/-- The value of a key. -/
def get? (ms : Members) (key : List Point) : Option Json := ms.lookup key

/-- Gives a key a value: at the place of the key where it is there, and at the end otherwise. -/
def set (key : List Point) (value : Json) : Members → Members
  | [] => [(key, value)]
  | (k, v) :: ms => if k = key then (key, value) :: ms else (k, v) :: set key value ms

/-- Gives each key of `news` its value, from the left. -/
def overlay (ms news : Members) : Members := news.foldl (fun ms (k, v) ↦ ms.set k v) ms

/-- The members that a list of keys and values makes, the last value of a key being the one. -/
def ofList (ms : List (List Point × Json)) : Members := overlay [] ms

end Members
end Reckon
