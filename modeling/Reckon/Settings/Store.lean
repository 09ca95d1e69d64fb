import Reckon.Json.Token
import Reckon.Json.Writer

/-!
# Where settings are kept

Settings are kept in one file of JSON.  It is the project's own, unless another place is named, and
that place may turn out to be a file, nothing yet, a directory, or something inside a directory that
does not exist.  A `Store` is the project's own file together with the place that is in use.

What a file is read and written with has limits of its own, and its own words for a file that it
cannot decode; this is the `Host`, of which nothing is assumed.
-/

set_option autoImplicit false

namespace Reckon
namespace Settings

/-- Why settings cannot be read or used. -/
inductive Fault where
  /-- The file is not text in UTF-8; the host explains why. -/
  | notUtf8 (explanation : Text)
  /-- A whole number has more digits than are read. -/
  | overlong (digits : Nat)
  /-- A container is inside more others than are read. -/
  | tooDeep (container : Json.Container)
  /-- The setting for the scale is no whole number. -/
  | badScale (value : Json)
  /-- The log level has the name of the layout of messages. -/
  | levelIsLayout
  /-- The log level has the name of the styles of layouts. -/
  | levelIsStyles

/-- Why settings cannot be kept. -/
inductive SaveFault where
  /-- The file would be in a directory that does not exist. -/
  | noDirectory
  /-- There is a directory where the file should be. -/
  | isDirectory
  /-- There is a value among them that is not written. -/
  | notWritten (e : Json.WriteFault)

/-- The place where settings are looked for and kept. -/
inductive Place where
  /-- The project's own file. -/
  | project
  /-- A file by its content. -/
  | file (content : ByteArray)
  /-- A name for which there is no file yet. -/
  | vacant
  /-- A name inside a directory that does not exist. -/
  | noDirectory
  /-- The name of a directory. -/
  | directory

/-- What files are read and written with. -/
structure Host where
  /-- How many containers may be inside one another in a text that is read. -/
  readable : Nat
  /-- How many containers may be inside one another in a value that is written. -/
  writable : Nat
  /-- What is said about a content that is not text in UTF-8. -/
  explain : ByteArray → Text

/-- The limits that are usual, with the same words for every content. -/
def Host.usual : Host where
  readable := 995
  writable := 995
  explain _ := "the settings are not text in UTF-8".toList

/-- The project's own settings file, the place in use, and the host. -/
structure Store where
  /-- The content of the project's own file. -/
  project : ByteArray
  /-- The place in use. -/
  place : Place
  /-- What files are read and written with. -/
  host : Host

namespace Store

/-- No file yet, and a host with the usual limits. -/
def fresh : Store := ⟨.empty, .vacant, .usual⟩

/-- The content of the file in use, if there is a file. -/
def content? (store : Store) : Option ByteArray :=
  match store.place with
  | .project => some store.project
  | .file content => some content
  | _ => none

/-- Keeps a content in the file in use. -/
def put (store : Store) (content : ByteArray) : Except SaveFault Store :=
  match store.place with
  | .project => .ok { store with project := content }
  | .file _ | .vacant => .ok { store with place := .file content }
  | .noDirectory => .error .noDirectory
  | .directory => .error .isDirectory

end Store

/-! ## Contents as text -/

/-- A text with every line ended by a line feed alone. -/
def unifyLines : Text → Text
  | [] => []
  | '\r' :: '\n' :: s => '\n' :: unifyLines s
  | c :: s => (if c = '\r' then '\n' else c) :: unifyLines s

/-- The text of a file's content, if it is one. -/
def textOf? (content : ByteArray) : Option Text :=
  (String.fromUTF8? content).map fun s ↦ unifyLines s.toList

/-- A text as a file's content. -/
def contentOf (s : Text) : ByteArray := (String.ofList s).toUTF8

/-- Keeps a value as the settings, in place of what was there before.  A value that is not written
to its end is not kept. -/
def save (store : Store) (settings : Json) : Except SaveFault Store :=
  match store.put (contentOf (Json.write settings)), settings.obstacle? store.host.writable with
  | .error e, _ => .error e
  | .ok _, some e => .error (.notWritten e)
  | .ok store, none => .ok store

end Settings
end Reckon
