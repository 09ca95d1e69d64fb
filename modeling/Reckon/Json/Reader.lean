import Reckon.Json.Token

/-!
# Reading a JSON document

A document is read in one walk over its tokens.  What has been read so far is a `Progress`: which
containers are open, each with the values it has got already, and what may come next.  Every token
moves the reader on or is a fault, and a document is complete when its one value is.  How many
containers may be open at the same time is a limit that the reader is given.
-/

set_option autoImplicit false

namespace Reckon
namespace Json

/-- Why a text is no document. -/
inductive ReadFault where
  /-- The text breaks the rules of JSON. -/
  | malformed
  /-- A whole number has more digits than are read. -/
  | overlong (digits : Nat)
  /-- A container is inside too many others. -/
  | tooDeep (container : Container)
deriving DecidableEq, Repr

/-- A container that is still open, with what it holds already. -/
inductive Frame where
  /-- An array and its values. -/
  | array (items : List Json)
  /-- An object, its members, and the points of the key whose value is being read. -/
  | member (members : Members) (key : List Point)

/-- How far a document has been read; of the open containers, the innermost comes first. -/
inductive Progress where
  /-- A value has to come. -/
  | value (frames : List Frame)
  /-- A value has to come, or the end of an array that is still empty. -/
  | firstItem (frames : List Frame)
  /-- A key has to come. -/
  | key (members : Members) (frames : List Frame)
  /-- A key has to come, or the end of an object that is still empty. -/
  | firstKey (frames : List Frame)
  /-- The colon behind a key has to come. -/
  | colon (members : Members) (key : List Point) (frames : List Frame)
  /-- A comma has to come, or the end of an array. -/
  | nextItem (items : List Json) (frames : List Frame)
  /-- A comma has to come, or the end of an object. -/
  | nextMember (members : Members) (frames : List Frame)
  /-- Nothing more may come. -/
  | done (v : Json)

/-- Hands a finished value to the innermost open container. -/
def deliver (v : Json) : List Frame → Progress
  | [] => .done v
  | .array items :: frames => .nextItem (items ++ [v]) frames
  | .member members key :: frames => .nextMember (members.set key v) frames

/-- The value that the points of a string make. -/
def ofPoints (points : List Point) : Json :=
  match Point.text? points with
  | some s => .string s
  | none => .broken points

/-- Reads a token where a value has to come. -/
def readValue (frames : List Frame) : Token → Except ReadFault Progress
  | .null => .ok (deliver .null frames)
  | .bool b => .ok (deliver (.bool b) frames)
  | .integer z => .ok (deliver (.integer z) frames)
  | .float x => .ok (deliver (.float x) frames)
  | .string points => .ok (deliver (ofPoints points) frames)
  | .openArray => .ok (.firstItem frames)
  | .openObject => .ok (.firstKey frames)
  | .overlong digits => .error (.overlong digits)
  | .tooDeep container => .error (.tooDeep container)
  | _ => .error .malformed

/-- Reads a token where a key has to come. -/
def readKey (members : Members) (frames : List Frame) : Token → Except ReadFault Progress
  | .string points => .ok (.colon members points frames)
  | _ => .error .malformed

/-- Reads one token. -/
def Progress.read : Progress → Token → Except ReadFault Progress
  | .value frames, t => readValue frames t
  | .firstItem frames, .closeArray => .ok (deliver (.array []) frames)
  | .firstItem frames, t => readValue (.array [] :: frames) t
  | .key members frames, t => readKey members frames t
  | .firstKey frames, .closeObject => .ok (deliver (.object []) frames)
  | .firstKey frames, t => readKey [] frames t
  | .colon members k frames, .colon => .ok (.value (.member members k :: frames))
  | .nextItem items frames, .comma => .ok (.value (.array items :: frames))
  | .nextItem items frames, .closeArray => .ok (deliver (.array items) frames)
  | .nextMember members frames, .comma => .ok (.key members frames)
  | .nextMember members frames, .closeObject => .ok (deliver (.object members) frames)
  | _, _ => .error .malformed

/-- Reads tokens one after the other. -/
def Progress.readAll (p : Progress) : List Token → Except ReadFault Progress
  | [] => .ok p
  | t :: ts =>
    match p.read t with
    | .ok p => p.readAll ts
    | .error e => .error e

/-- The value of a JSON document in which no more containers than the limit are inside one
another. -/
def read (limit : Nat) (s : Text) : Except ReadFault Json :=
  match (Progress.value []).readAll (limited limit (tokens s)) with
  | .ok (.done v) => .ok v
  | .ok _ => .error .malformed
  | .error e => .error e

end Json
end Reckon
