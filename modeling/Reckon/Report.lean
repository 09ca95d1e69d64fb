import Reckon.Expression.Fault
import Reckon.Json.Spelling
import Reckon.Settings.Store

/-!
# Reports

A `Report` is what a user is told about a fault: what kind it is, its code, a message, and the
expression it came up in.  The first digit of a code says which part of the program it belongs to,
and the common codes have a heading of their own.  `describe` puts all of it on one line.

There is one kind of fault that the program is not prepared for, that containers in its settings are
inside too many others.  Such a fault is passed on as it is, and belongs to no expression.
-/

set_option autoImplicit false

namespace Reckon

/-- The kind of a report, with what is known about the fault beyond the message. -/
inductive Report.Kind where
  /-- A fault of no particular kind. -/
  | general
  /-- Two numbers without a valid operator between them. -/
  | badBlock (block expression : Option Text)
  /-- A divisor that is zero. -/
  | division
  /-- A reduced text that is no number. -/
  | badResult (result : Option Text)
  /-- An operation that does not exist. -/
  | calculation
  /-- A setting that cannot be used. -/
  | setting
  /-- A fault that is passed on as it is. -/
  | foreign

/-- What a user is told about a fault. -/
structure Report where
  /-- What kind of fault it is. -/
  kind : Report.Kind
  /-- What went wrong. -/
  message : Text
  /-- The code of the fault. -/
  code : Text
  /-- The expression that was to be evaluated, where there was one. -/
  equation : Option Json

namespace Report

/-- The code of a fault nobody foresaw. -/
def unforeseenCode : Text := "9999".toList

/-- The code that reports of a kind have unless they are given another. -/
def Kind.defaultCode : Kind → Text
  | .badBlock _ _ => "3011".toList
  | .division => "3003".toList
  | .badResult _ => "3031".toList
  | .general | .calculation | .setting | .foreign => unforeseenCode

/-! ## Telling a report -/

/-- The codes that have a heading of their own. -/
def headings : List (Text × Text) :=
  [("3003".toList, "Division by Zero".toList), ("3004".toList, "Invalid Operator".toList),
    ("3011".toList, "Invalid block in expression".toList),
    ("3031".toList, "Result cannot be converted to a number".toList),
    ("5001".toList, "Invalid setting value".toList), (unforeseenCode, "Unexpected Error".toList)]

/-- The headings of all other codes, by the first digit. -/
def categories : List (Char × Text) :=
  [('3', "Calculator Error".toList), ('5', "Configuration Error".toList),
    ('9', "Runtime Error".toList)]

/-- The heading of a code. -/
def heading (code : Text) : Text :=
  (headings.lookup code).getD
    ((code.head?.bind fun digit ↦ categories.lookup digit).getD "Unknown error".toList)

/-- The line that tells a fault by its code and what there is to say about it. -/
def line (code detail : Text) : Text :=
  "Error ".toList ++ code ++ ": ".toList ++ heading code ++ " - ".toList ++ detail

/-- The message, with the expression where there is one. -/
def detail (r : Report) : Text :=
  match r.equation with
  | none => r.message
  | some equation => r.message ++ " (expression [".toList ++ equation.shown ++ "])".toList

/-- A report on one line. -/
def describe (r : Report) : Text := line r.code r.detail

/-! ## Reports of faults -/

/-- A report of the given kind, under the code of that kind. -/
def ofKind (kind : Kind) (message : Text) : Report := ⟨kind, message, kind.defaultCode, none⟩

/-- What is told about a fault in an expression. -/
def ofFault (e : Fault) : Report :=
  match e with
  | .badBlock block expression => ofKind (.badBlock (some block) (some expression)) e.message
  | .divisionByZero | .remainderByZero => ofKind .division e.message
  | .unknownOperator _ => ⟨.calculation, e.message, "3004".toList, none⟩
  | .notNumeral result => ofKind (.badResult (some result)) e.message
  | .overlong | .notText _ => ofKind .general e.message

/-- What a container is called. -/
def containerName : Json.Container → Text
  | .array => "array".toList
  | .object => "object".toList

/-- The layout of messages. -/
def layoutText : Text := "%(levelname)s:%(name)s:%(message)s".toList

/-- The styles of layouts, each by its sign, with its name and its layout. -/
def styles : List (Char × Text × Text) :=
  [('%', "PercentStyle".toList, layoutText),
    ('\x7b', "StrFormatStyle".toList, "\x7blevelname\x7d:\x7bname\x7d:\x7bmessage\x7d".toList),
    ('$', "StringTemplateStyle".toList,
      "$\x7blevelname\x7d:$\x7bname\x7d:$\x7bmessage\x7d".toList)]

/-- A style as it is spelled in a message. -/
def styleText : Char × Text × Text → Text
  | (sign, name, layout) =>
    Json.quoted [sign] ++ ": (<class 'logging.".toList ++ name ++ "'>, ".toList ++
      Json.quoted layout ++ ")".toList

/-- The message of a fault in the settings. -/
def settingsMessage : Settings.Fault → Text
  | .notUtf8 explanation => explanation
  | .overlong digits =>
    Fault.overlongText (": value has ".toList ++ Numeral.digits digits ++ " digits".toList)
  | .tooDeep container =>
    "maximum recursion depth exceeded while decoding a JSON ".toList ++ containerName container ++
      " from a unicode string".toList
  | .badScale value => "decimal_places = ".toList ++ value.spelled
  | .levelIsLayout => "Unknown level: ".toList ++ Json.quoted layoutText
  | .levelIsStyles =>
    "Level not an integer or a valid string: \x7b".toList ++
      ", ".toList.intercalate (styles.map styleText) ++ "\x7d".toList

/-- What is told about a fault in the settings. -/
def ofSettings (e : Settings.Fault) : Report :=
  match e with
  | .badScale _ => ⟨.setting, settingsMessage e, "5001".toList, none⟩
  | .tooDeep _ => ofKind .foreign (settingsMessage e)
  | .notUtf8 _ | .overlong _ | .levelIsLayout | .levelIsStyles =>
    ofKind .general (settingsMessage e)

/-- A report with the expression it is about; null counts as none. -/
def about (r : Report) : Json → Report
  | .null => { r with equation := none }
  | equation => { r with equation := some equation }

end Report
end Reckon
