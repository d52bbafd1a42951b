import DomainDesign.Json.Record
import DomainDesign.Storage.Basic

/-!
# Column types in JSON

A column type is an object with its kind under `type` and its attributes beside it, or an array of
the kind and the attributes in order.  Attributes without a value are left out.
-/

namespace DomainDesign

open Json

/-- The names of the column kinds. -/
def StorageKind.names : List (String × StorageKind) :=
  [("Boolean", .boolean), ("Date", .date), ("DateTime", .dateTime), ("Timestamp", .timestamp),
    ("Integer", .integer), ("Decimal", .decimal), ("Long", .long), ("Double", .double),
    ("Float", .float), ("String", .string), ("Text", .text), ("LongText", .longText),
    ("JSON", .json), ("Reference", .reference)]

/-- The name of a column kind. -/
def StorageKind.name (k : StorageKind) : String :=
  nameOf StorageKind.names k

/-- The names of the cardinalities. -/
def Cardinality.names : List (String × Cardinality) :=
  [("OneToOne", .oneToOne), ("OneToMany", .oneToMany), ("ManyToOne", .manyToOne),
    ("ManyToMany", .manyToMany)]

/-- The name of a cardinality. -/
def Cardinality.name (c : Cardinality) : String :=
  nameOf Cardinality.names c

namespace Storage

/-- The names of the attributes of a kind, in order. -/
def attributes : StorageKind → List String
  | .boolean | .date | .dateTime | .timestamp => ["defaultValue"]
  | .integer | .long | .double | .float => ["defaultValue", "autoIncrement"]
  | .decimal => ["defaultValue", "precision", "scale"]
  | .string => ["defaultValue", "length"]
  | .text | .longText | .json => []
  | .reference => ["target", "targetProperty", "cardinality"]

/-- The column type of a kind with the attributes in the fields. -/
def ofAttributes? (fields : Fields) : StorageKind → Option Storage
  | .boolean => (optional fields "defaultValue" bool?).map .boolean
  | .date => (optional fields "defaultValue" str?).map .date
  | .dateTime => (optional fields "defaultValue" str?).map .dateTime
  | .timestamp => (optional fields "defaultValue" str?).map .timestamp
  | .integer => do
    let d ← optional fields "defaultValue" int64?
    let a ← optional fields "autoIncrement" bool?
    some (.integer d a)
  | .decimal => do
    let d ← optional fields "defaultValue" float?
    let p ← optional fields "precision" word32?
    let s ← optional fields "scale" word32?
    some (.decimal d p s)
  | .long => do
    let d ← optional fields "defaultValue" int64?
    let a ← optional fields "autoIncrement" bool?
    some (.long d a)
  | .double => do
    let d ← optional fields "defaultValue" float?
    let a ← optional fields "autoIncrement" bool?
    some (.double d a)
  | .float => do
    let d ← optional fields "defaultValue" float?
    let a ← optional fields "autoIncrement" bool?
    some (.float d a)
  | .string => do
    let d ← optional fields "defaultValue" str?
    let l ← optional fields "length" word32?
    some (.string d l)
  | .text => some .text
  | .longText => some .longText
  | .json => some .json
  | .reference => do
    let t ← optional fields "target" str?
    let p ← optional fields "targetProperty" str?
    let c ← optional fields "cardinality" (heldChoice? Cardinality.names)
    some (.reference t p c)

/-- The column type whose kind and attributes stand among the fields. -/
def ofFields? (held : Bool) (fields : Fields) : Option Storage :=
  (required fields "type" (tag? held StorageKind.names)).bind (ofAttributes? fields)

/-- The column type written by a value. -/
def ofJson? (held : Bool) : Json → Option Storage
  | .obj fields => ofFields? held fields
  | .arr (tag :: parts) => do
    let k ← tag? held StorageKind.names tag
    let fields ← record? (attributes k) (.arr parts)
    ofAttributes? fields k
  | _ => none

/-- The attributes that have a value. -/
def attributeFields : Storage → Fields
  | .boolean d => fieldSome "defaultValue" .bool d
  | .date d | .dateTime d | .timestamp d => fieldSome "defaultValue" .str d
  | .integer d a | .long d a =>
    fieldSome "defaultValue" ofInt64 d ++ fieldSome "autoIncrement" .bool a
  | .decimal d p s =>
    fieldSome "defaultValue" ofFloat d ++ fieldSome "precision" ofWord32 p
      ++ fieldSome "scale" ofWord32 s
  | .double d a | .float d a =>
    fieldSome "defaultValue" ofFloat d ++ fieldSome "autoIncrement" .bool a
  | .string d l => fieldSome "defaultValue" .str d ++ fieldSome "length" ofWord32 l
  | .text | .longText | .json => []
  | .reference t p c =>
    fieldSome "target" .str t ++ fieldSome "targetProperty" .str p
      ++ fieldSome "cardinality" (fun c => .str c.name) c

/-- The kind and the attributes of a column type. -/
def fields (s : Storage) : Fields :=
  field "type" (.str s.kind.name) ++ s.attributeFields

/-- The value that writes a column type. -/
def toJson (s : Storage) : Json :=
  .obj s.fields

end Storage

end DomainDesign
