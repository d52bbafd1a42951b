import DomainDesign.Json.Record

/-!
# Naming fields of a compiled document

A compiled part is named like the part it comes from, except that empty texts are gone and that its
metadata is a dictionary.
-/

namespace DomainDesign.Compiled

open Json

/-- The id of a part, its name, and the texts about it. -/
structure Naming where
  uuid : String
  name : String
  title : Option String := none
  description : Option String := none
  metadata : Option (Dict String) := none
deriving DecidableEq, Inhabited, Repr

/-- A field of a source object and the field of a target object that belongs to it, by name. -/
structure FieldPair where
  sourceField : String
  targetField : String
deriving DecidableEq, Inhabited, Repr

/-! ## In JSON -/

/-- The entries of a dictionary of texts. -/
def texts? (j : Json) : Option (Dict String) :=
  (object? j).bind fun fields => fields.mapM fun f => (str? f.2).map fun s => (f.1, s)

/-- The value that writes a dictionary of texts. -/
def textsToJson (d : Dict String) : Json :=
  .obj (d.map fun e => (e.1, .str e.2))

namespace Naming

/-- The naming among the fields of a part. -/
def ofFields? (fields : Fields) : Option Naming := do
  let uuid ← required fields "uuid" str?
  let name ← required fields "name" str?
  let title ← optional fields "title" str?
  let description ← optional fields "description" str?
  let metadata ← optional fields "meta" texts?
  some ⟨uuid, name, title, description, metadata⟩

/-- The fields that write a naming. -/
def fields (n : Naming) : Fields :=
  field "uuid" (.str n.uuid) ++ field "name" (.str n.name) ++ fieldSome "title" .str n.title
    ++ fieldSome "description" .str n.description ++ fieldSome "meta" textsToJson n.metadata

end Naming

namespace FieldPair

/-- The pair written by a value. -/
def ofJson? (j : Json) : Option FieldPair := do
  let fields ← record? ["sourceField", "targetField"] j
  let sourceField ← required fields "sourceField" str?
  let targetField ← required fields "targetField" str?
  some ⟨sourceField, targetField⟩

/-- The value that writes a pair. -/
def toJson (p : FieldPair) : Json :=
  .obj (field "sourceField" (.str p.sourceField) ++ field "targetField" (.str p.targetField))

end FieldPair

end DomainDesign.Compiled
