import DomainDesign.Model.Naming

/-!
# Object mappers

A mapper pairs the fields of a source object with those of a target object.  Objects and fields are
named by id.
-/

namespace DomainDesign.Model

open Json

/-- Which part of a document an object is sought in. -/
inductive ObjectSource where
  | domain
  | struct
  | data
deriving DecidableEq, Inhabited, Repr

/-- One side of a mapper. -/
structure ObjectReference where
  source : Option ObjectSource := none
  referenceId : String := ""
  name : Option String := none
deriving DecidableEq, Inhabited, Repr

/-- A pair of fields. -/
structure FieldMapper where
  uuid : String := ""
  source : Option String := none
  target : Option String := none
deriving DecidableEq, Inhabited, Repr

/-- A mapper between two objects. -/
structure MapperObject extends Naming where
  source : Option ObjectReference := none
  target : Option ObjectReference := none
  mappers : List FieldMapper := []
deriving DecidableEq, Inhabited, Repr

/-- A side of a mapper in full. -/
def ObjectReference.of (source : ObjectSource) (referenceId name : String) : ObjectReference :=
  ⟨some source, referenceId, some name⟩

/-- A pair of fields in full. -/
def FieldMapper.of (uuid source target : String) : FieldMapper :=
  ⟨uuid, some source, some target⟩

/-! ## In JSON -/

/-- The names of the parts of a document. -/
def ObjectSource.names : List (String × ObjectSource) :=
  [("Domain", .domain), ("Struct", .struct), ("Data", .data)]

/-- The value that writes a part of a document. -/
def ObjectSource.toJson (s : ObjectSource) : Json :=
  .str (nameOf ObjectSource.names s)

namespace ObjectReference

/-- The side written by a value. -/
def ofJson? (j : Json) : Option ObjectReference := do
  let fields ← record? ["source", "referenceId", "name"] j
  let source ← optional fields "source" (choice? ObjectSource.names)
  let referenceId ← orDefault fields "referenceId" "" str?
  let name ← optional fields "name" str?
  some ⟨source, referenceId, name⟩

/-- The value that writes a side. -/
def toJson (r : ObjectReference) : Json :=
  .obj (fieldSome "source" ObjectSource.toJson r.source ++ field "referenceId" (.str r.referenceId)
    ++ fieldSome "name" .str r.name)

end ObjectReference

namespace FieldMapper

/-- The pair written by a value. -/
def ofJson? (j : Json) : Option FieldMapper := do
  let fields ← record? ["uuid", "source", "target"] j
  let uuid ← orDefault fields "uuid" "" str?
  let source ← optional fields "source" str?
  let target ← optional fields "target" str?
  some ⟨uuid, source, target⟩

/-- The value that writes a pair. -/
def toJson (f : FieldMapper) : Json :=
  .obj (field "uuid" (.str f.uuid) ++ fieldSome "source" .str f.source
    ++ fieldSome "target" .str f.target)

end FieldMapper

namespace MapperObject

/-- The mapper written by a value. -/
def ofJson? (j : Json) : Option MapperObject := do
  let fields ← object? j
  let naming ← Naming.ofFields? fields
  let source ← optional fields "source" ObjectReference.ofJson?
  let target ← optional fields "target" ObjectReference.ofJson?
  let mappers ← orDefault fields "mappers" [] (list? FieldMapper.ofJson?)
  some { toNaming := naming, source, target, mappers }

/-- The value that writes a mapper. -/
def toJson (m : MapperObject) : Json :=
  .obj (m.toNaming.fields ++ fieldSome "source" ObjectReference.toJson m.source
    ++ fieldSome "target" ObjectReference.toJson m.target
    ++ field "mappers" (ofList FieldMapper.toJson m.mappers))

end MapperObject

end DomainDesign.Model
