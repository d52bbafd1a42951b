import DomainDesign.Json.Record

/-!
# Naming fields

What every part of a document has in common: an id, a name, and texts about it.  `Reference` is a
part that names another one by id.
-/

namespace DomainDesign.Model

open Json

/-- A key and a value that the author of a document attached to a part of it. -/
structure MetaEntry where
  key : String := ""
  value : String := ""
deriving DecidableEq, Inhabited, Repr

/-- The id of a part, its name, and the texts about it. -/
structure Naming where
  uuid : String := ""
  name : String := ""
  title : Option String := none
  description : Option String := none
  metadata : Option (List MetaEntry) := none
deriving DecidableEq, Inhabited, Repr

/-- The same naming under another id. -/
def Naming.withUuid (n : Naming) (uuid : String) : Naming :=
  { n with uuid }

/-- Another part, by id. -/
structure Reference where
  referenceId : String := ""
  name : Option String := none
deriving DecidableEq, Inhabited, Repr

/-- The id that a reference names, if it names one. -/
def Reference.target? (r : Reference) : Option String :=
  if r.referenceId.isEmpty then none else some r.referenceId

/-! ## In JSON -/

namespace MetaEntry

/-- The entry written by a value. -/
def ofJson? (j : Json) : Option MetaEntry := do
  let fields ← record? ["key", "value"] j
  let key ← orDefault fields "key" "" str?
  let value ← orDefault fields "value" "" str?
  some ⟨key, value⟩

/-- The value that writes an entry. -/
def toJson (e : MetaEntry) : Json :=
  .obj (field "key" (.str e.key) ++ field "value" (.str e.value))

end MetaEntry

namespace Naming

/-- The naming among the fields of a part. -/
def ofFields? (fields : Fields) : Option Naming := do
  let uuid ← orDefault fields "uuid" "" str?
  let name ← orDefault fields "name" "" str?
  let title ← optional fields "title" str?
  let description ← optional fields "description" str?
  let metadata ← optional fields "meta" (list? MetaEntry.ofJson?)
  some ⟨uuid, name, title, description, metadata⟩

/-- The fields that write a naming. -/
def fields (n : Naming) : Fields :=
  field "uuid" (.str n.uuid) ++ field "name" (.str n.name) ++ fieldSome "title" .str n.title
    ++ fieldSome "description" .str n.description
    ++ fieldSome "meta" (ofList MetaEntry.toJson) n.metadata

/-- The naming written by a value; it may be an array of its fields. -/
def ofJson? (j : Json) : Option Naming := do
  let fields ← record? ["uuid", "name", "title", "description", "meta"] j
  ofFields? fields

/-- The value that writes a naming. -/
def toJson (n : Naming) : Json :=
  .obj n.fields

end Naming

namespace Reference

/-- The reference written by a value. -/
def ofJson? (j : Json) : Option Reference := do
  let fields ← record? ["referenceId", "name"] j
  let referenceId ← orDefault fields "referenceId" "" str?
  let name ← optional fields "name" str?
  some ⟨referenceId, name⟩

/-- The value that writes a reference. -/
def toJson (r : Reference) : Json :=
  .obj (field "referenceId" (.str r.referenceId) ++ fieldSome "name" .str r.name)

end Reference

end DomainDesign.Model
