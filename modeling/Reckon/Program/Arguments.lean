import Reckon.Numeral
import Reckon.Text.DecimalDigit

/-!
# The arguments of the command line

The program takes an expression, an option `--scale` with a whole number, and an option for help.
Since expressions may begin with a minus sign, it matters what counts as an option: an argument does
if it begins with `-`, is longer than that, and is neither a negative number nor a text with a space
in it.  Long options may be cut short as long as they stay unique, and may have their value behind
an equals sign.  Everything behind a bare `--` is no option.

Arguments are sorted first (`sort`) and then gone through from the left (`gather`).  Going through
them stops at a request for help; arguments that are unknown or too many are found out only at the
end, so that help is given even with those in front.
-/

set_option autoImplicit false

namespace Reckon
namespace Program

/-! ## Whole numbers -/

/-- White space around a number: blanks, and the spaces beyond ASCII. -/
def isMargin (c : Char) : Bool := Text.isBlank c || (Text.isSpace c && 0x80 ≤ c.toNat)

/-- The number that digits of any script write, with a low line between any two of them. -/
def digitsValue? : Nat → Text → Option Nat
  | n, [] => some n
  | n, '_' :: c :: s => (Text.digitValue? c).bind fun d ↦ digitsValue? (10 * n + d) s
  | n, c :: s => (Text.digitValue? c).bind fun d ↦ digitsValue? (10 * n + d) s

/-- The number that one or more digits write; it may not have too many of them. -/
def natural? (s : Text) : Option Nat :=
  if Numeral.maxDigits < (s.filter (· ≠ '_')).length then none
  else
    match s with
    | [] => none
    | c :: s => (Text.digitValue? c).bind fun d ↦ digitsValue? d s

/-- The whole number that a text writes, with a sign and white space around it allowed. -/
def integer? (s : Text) : Option Int :=
  let s := ((s.dropWhile isMargin).reverse.dropWhile isMargin).reverse
  match s with
  | '-' :: s => (natural? s).map fun n ↦ -(n : Int)
  | '+' :: s => (natural? s).map Int.ofNat
  | s => (natural? s).map Int.ofNat

/-! ## Sorting arguments -/

/-- An argument by what it is to the program. -/
inductive Argument where
  /-- A text that is no option. -/
  | plain (s : Text)
  /-- The option for the scale, with its value if that is part of the argument. -/
  | scale (value : Option Text)
  /-- The option for help. -/
  | help
  /-- The option for help with something that does not belong to it. -/
  | badHelp
  /-- An option that does not exist. -/
  | unknown
  /-- The mark behind which there are no more options. -/
  | mark
deriving DecidableEq, Repr

/-- The option for help. -/
def helpOption : Text := "--help".toList

/-- The option for the scale. -/
def scaleOption : Text := "--scale".toList

/-- A text cut at its first equals sign, and the text behind that. -/
def splitEquals (s : Text) : Text × Option Text :=
  match s.dropWhile (· ≠ '=') with
  | [] => (s, none)
  | _ :: value => (s.takeWhile (· ≠ '='), some value)

/-- The option for help with or without a value, which it cannot have. -/
def helpArgument : Option Text → Argument
  | none => .help
  | some _ => .badHelp

/-- The short option for help with what follows it in the argument: it may be given more than once,
and nothing else may stand there. -/
def shortHelp (s : Text) : Argument := if s.all (· = 'h') then .help else .badHelp

/-- Whether all of a text, apart from a line feed at its end, are digits, at least one. -/
def isDigits (s : Text) : Bool :=
  let s := if s.getLast? = some '\n' then s.dropLast else s
  !s.isEmpty && s.all fun c ↦ (Text.digitValue? c).isSome

/-- Whether what stands behind a minus sign makes it a negative number. -/
def isUnsigned (s : Text) : Bool :=
  isDigits s ||
    match s.dropWhile fun c ↦ (Text.digitValue? c).isSome with
    | '.' :: places => isDigits places
    | _ => false

/-- What an argument that begins with `-`, but with no known option, is. -/
def other (s : Text) : Argument :=
  if isUnsigned s.tail || s.contains ' ' then .plain s else .unknown

/-- What an argument is; nothing where it could be either of the long options. -/
def classify? (s : Text) : Option Argument :=
  match s with
  | '-' :: '-' :: _ =>
    let (name, value) := splitEquals s
    match name.isPrefixOf helpOption, name.isPrefixOf scaleOption with
    | true, true => none
    | true, false => some (helpArgument value)
    | false, true => some (.scale value)
    | false, false => some (other s)
  | ['-'] => some (.plain s)
  | '-' :: 'h' :: tail => some (shortHelp tail)
  | '-' :: _ => some (other s)
  | s => some (.plain s)

/-- Sorts arguments; nothing where one of them could be either of the long options. -/
def sort? : List Text → Option (List Argument)
  | [] => some []
  | s :: rest =>
    if s = "--".toList then some (.mark :: rest.map .plain)
    else
      match classify? s, sort? rest with
      | some argument, some arguments => some (argument :: arguments)
      | _, _ => none

/-! ## Gathering the request -/

/-- What the arguments ask for. -/
inductive Request where
  /-- To evaluate an expression, or one that is still to be asked for, at a scale if one is
  given. -/
  | evaluate (expression : Option Text) (scale : Option Int)
  /-- To explain the program. -/
  | help
  /-- Nothing that the program could do. -/
  | invalid
deriving DecidableEq, Repr

/-- What has been gathered so far. -/
structure Gathered where
  /-- The expression. -/
  expression : Option Text := none
  /-- The scale. -/
  scale : Option Int := none
  /-- Whether the place for an expression is taken, be it by none. -/
  taken : Bool := false
  /-- Whether there was an argument too many or one that is unknown. -/
  excess : Bool := false

/-- Goes through the arguments. -/
def gather (g : Gathered) : List Argument → Request
  | [] => if g.excess then .invalid else .evaluate g.expression g.scale
  | .help :: _ => .help
  | .badHelp :: _ => .invalid
  | .unknown :: rest => gather { g with excess := true } rest
  | .scale (some value) :: rest =>
    match integer? value with
    | some scale => gather { g with scale := some scale } rest
    | none => .invalid
  | .scale none :: .plain value :: rest =>
    match integer? value with
    | some scale => gather { g with scale := some scale } rest
    | none => .invalid
  | .scale none :: _ => .invalid
  | .plain s :: .mark :: rest =>
    if g.taken then gather { g with excess := true } rest
    else gather { g with expression := some s, taken := true } rest
  | .mark :: .plain s :: rest =>
    if g.taken then gather { g with excess := true } rest
    else gather { g with expression := some s, taken := true } rest
  | .plain s :: rest =>
    if g.taken then gather { g with excess := true } rest
    else gather { g with expression := some s, taken := true } rest
  | .mark :: rest => gather { g with taken := true, excess := g.excess || g.taken } rest

/-- What a list of arguments asks for. -/
def request (arguments : List Text) : Request :=
  match sort? arguments with
  | some arguments => gather {} arguments
  | none => .invalid

end Program
end Reckon
