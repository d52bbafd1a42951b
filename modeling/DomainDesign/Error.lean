import DomainDesign.Json.Record

/-!
# Errors

Everything that can stop the library.  `Error.message` is the text shown to a reader; the functions
after it name the single causes, so that the wording of each stands in one place.
-/

namespace DomainDesign

open Json

/-- Why the library stopped. -/
inductive Error where
  | identifierMismatch (id uuid : String)
  | schema (detail : String)
  | validation (detail : String)
  | unsupportedReference (id detail : String)
  | memoCollision (uuid : String)
  | ambiguousOverload (method : String)
  | config (detail : String)
  | io (detail : String)
  | serialization (detail : String)
  | internal (detail : String)
deriving DecidableEq, Inhabited, Repr

namespace Error

/-- The text of an error. -/
def message : Error → String
  | .identifierMismatch id uuid => s!"identifier mismatch: node '{id}' declares uuid '{uuid}'"
  | .schema detail => s!"schema error: {detail}"
  | .validation detail => s!"validation error: {detail}"
  | .unsupportedReference id detail => s!"unsupported reference '{id}': {detail}"
  | .memoCollision uuid => s!"generator state already holds a result for '{uuid}'"
  | .ambiguousOverload method =>
    s!"method '{method}' declares two overloads with identical parameters"
  | .config detail => s!"config error: {detail}"
  | .io detail => s!"io error: {detail}"
  | .serialization detail => s!"serialization error: {detail}"
  | .internal detail => s!"internal error: {detail}"

/-- The name of the kind of an error. -/
def kindName : Error → String
  | .identifierMismatch .. => "IdentifierMismatch"
  | .schema _ => "Schema"
  | .validation _ => "Validation"
  | .unsupportedReference .. => "UnsupportedReference"
  | .memoCollision _ => "MemoCollision"
  | .ambiguousOverload _ => "AmbiguousOverload"
  | .config _ => "Config"
  | .io _ => "Io"
  | .serialization _ => "Serde"
  | .internal _ => "Internal"

/-- Whether the structure of a document is at fault. -/
def isStructural : Error → Bool
  | .identifierMismatch .. => true
  | .schema _ => true
  | _ => false

/-! ## Causes -/

/-- A value does not have the shape of what it is read as. -/
def undecodable : Error :=
  .serialization "the value does not have the expected shape"

/-- A node stands under another key than its id. -/
def misplacedNode (key id : String) : Error :=
  .schema s!"snapshot key '{key}' holds node '{id}'"

/-- A child id of a node is no string. -/
def nonTextChild (id item : String) : Error :=
  .schema s!"node '{id}' lists a non-string child id: {item}"

/-- The children of a node are neither a list nor a table. -/
def malformedChildren (id children : String) : Error :=
  .schema s!"node '{id}' has malformed children: {children}"

/-- The properties of a node do not make the part that its kind says. -/
def unreadableNode (id kind : String) : Error :=
  .schema s!"node '{id}' is not a valid {kind}"

/-- A node is of a kind that has no place in a model. -/
def foreignNode (id kind stage : String) : Error :=
  .schema s!"node '{id}' of kind '{kind}' is not allowed in the {stage} model"

/-- A node with the id is there already. -/
def nodeExists (id : String) : Error :=
  .validation s!"node '{id}' already exists"

/-- The node under which another one is to be put is not there. -/
def missingParent (id : String) : Error :=
  .validation s!"parent node '{id}' not found"

/-- A snapshot file is of a kind that cannot be read. -/
def snapshotExtension (extension : String) : Error :=
  .validation s!"unsupported snapshot extension '{extension}'"

/-- A settings file is of a kind that cannot be read. -/
def configExtension (extension : String) : Error :=
  .config s!"unsupported config extension '{extension}'"

/-- A setting that must not be empty is empty. -/
def emptySetting (name : String) : Error :=
  .config s!"{name} must not be empty"

/-- The threshold of the auto-mapper is out of range. -/
def thresholdRange (threshold : String) : Error :=
  .config s!"automap.threshold must be within [0, 1], got {threshold}"

/-- Nothing is stored under an id that a type refers to. -/
def unknownReference (id : String) : Error :=
  .unsupportedReference id "referenced object not found"

/-- A type refers to an object that no data transfer object can carry. -/
def uncarriable (id kind : String) : Error :=
  .unsupportedReference id s!"a {kind} cannot be carried by a DTO"

/-- Artifacts are asked for an entity that is not the root of an aggregation. -/
def notAggregateRoot (name : String) : Error :=
  .validation s!"entity '{name}' is not an aggregate root"

/-- The root of an aggregation has no identifying property. -/
def rootWithoutId (name : String) : Error :=
  .validation s!"aggregate root '{name}' has no identifier property"

/-- The identifying property that an entity names is none of its properties. -/
def missingIdProperty (name : String) : Error :=
  .validation s!"entity '{name}' names a missing identifier property"

/-- Something other than an object was to become the properties of a node. -/
def notAnObject (json : String) : Error :=
  .internal s!"model serialized to a non-object value: {json}"

/-- The object graph goes deeper than the store has objects. -/
def graphTooDeep (uuid : String) : Error :=
  .internal s!"DTO of '{uuid}' nests deeper than the store"

/-- A data transfer object is gone while its properties are being added. -/
def lostDto (uuid : String) : Error :=
  .internal s!"DTO of '{uuid}' left the memo"

/-- The root of an aggregation has no data transfer object. -/
def lostRoot (name : String) : Error :=
  .internal s!"no DTO recorded for aggregate root '{name}'"

/-! ## In JSON -/

/-- The value that writes an error: its kind over its parts. -/
def toJson (e : Error) : Json :=
  let parts : Json := match e with
    | .identifierMismatch id uuid => .obj [("id", .str id), ("uuid", .str uuid)]
    | .schema detail => .obj [("message", .str detail)]
    | .validation detail => .obj [("message", .str detail)]
    | .unsupportedReference id detail => .obj [("id", .str id), ("message", .str detail)]
    | .memoCollision uuid => .obj [("uuid", .str uuid)]
    | .ambiguousOverload method => .obj [("method", .str method)]
    | .config detail => .obj [("message", .str detail)]
    | .io detail => .str detail
    | .serialization detail => .str detail
    | .internal detail => .str detail
  .obj [(e.kindName, parts)]

/-- The error of a kind with its parts in the fields. -/
def ofParts? (kind : String) (fields : Fields) : Option Error :=
  if kind = "IdentifierMismatch" then
    (required fields "id" str?).bind fun id =>
      (required fields "uuid" str?).map (.identifierMismatch id)
  else if kind = "Schema" then (required fields "message" str?).map .schema
  else if kind = "Validation" then (required fields "message" str?).map .validation
  else if kind = "UnsupportedReference" then
    (required fields "id" str?).bind fun id =>
      (required fields "message" str?).map (.unsupportedReference id)
  else if kind = "MemoCollision" then (required fields "uuid" str?).map .memoCollision
  else if kind = "AmbiguousOverload" then (required fields "method" str?).map .ambiguousOverload
  else if kind = "Config" then (required fields "message" str?).map .config
  else none

/-- The error of a kind that has a text as its only part. -/
def ofText? (kind text : String) : Option Error :=
  if kind = "Io" then some (.io text)
  else if kind = "Serde" then some (.serialization text)
  else if kind = "Internal" then some (.internal text)
  else none

/-- The error written by a value. -/
def ofJson? : Json → Option Error
  | .obj [(kind, .obj fields)] => ofParts? kind fields
  | .obj [(kind, .str text)] => ofText? kind text
  | _ => none

end Error

end DomainDesign
