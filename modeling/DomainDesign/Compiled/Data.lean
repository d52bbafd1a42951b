import DomainDesign.Compiled.Naming
import DomainDesign.Model.Data

/-!
# Compiled data objects and mappers

Data objects with the kind and the attributes of each column beside its naming, the references
between data objects, and the mappers between objects, all by name.
-/

namespace DomainDesign.Compiled

open Json

/-- A column of a data object. -/
structure DataProperty extends Naming where
  propertyName : Option String := none
  storage : Storage
  notNull : Option Bool := none
  primaryKey : Option Bool := none
deriving DecidableEq, Inhabited

/-- An index of a data object, with the names of the columns it covers. -/
structure DataIndex extends Naming where
  kind : Model.IndexKind
  method : Option Model.IndexMethod := none
  properties : List String
deriving DecidableEq, Inhabited, Repr

/-- A data object. -/
structure DataObject extends Naming where
  tableName : Option String := none
  properties : List DataProperty
  indexes : List DataIndex
deriving DecidableEq, Inhabited

/-- The first column with a name. -/
def DataObject.property? (d : DataObject) (name : String) : Option DataProperty :=
  d.properties.find? fun p => p.name = name

/-- The references of a data object to one other. -/
structure ReferenceTarget where
  target : String
  cardinality : Option Cardinality := none
  pairs : List FieldPair
deriving DecidableEq, Inhabited, Repr

/-- The references of a data object, grouped by the object that they lead to. -/
structure DataReference where
  source : String
  targets : List ReferenceTarget
deriving DecidableEq, Inhabited, Repr

/-- The kinds of objects between which a mapper goes. -/
inductive ObjectKind where
  | entity
  | valueObject
  | dto
  | dataObject
deriving DecidableEq, Inhabited, Repr

/-- One side of a mapper. -/
structure ObjectRef where
  name : String
  /-- The name of the aggregation that the object belongs to. -/
  parent : Option String := none
  kind : ObjectKind
deriving DecidableEq, Inhabited, Repr

/-- A mapper between two objects. -/
structure MapperObject extends Naming where
  source : ObjectRef
  target : ObjectRef
  pairs : List FieldPair
deriving DecidableEq, Inhabited, Repr

/-! ## In JSON -/

namespace DataProperty

/-- The column written by a value. -/
def ofJson? (j : Json) : Option DataProperty := do
  let fields ← object? j
  let naming ← Naming.ofFields? fields
  let propertyName ← optional fields "propertyName" str?
  let storage ← Storage.ofFields? true fields
  let notNull ← optional fields "notNull" bool?
  let primaryKey ← optional fields "primaryKey" bool?
  some { toNaming := naming, propertyName, storage, notNull, primaryKey }

/-- The value that writes a column. -/
def toJson (p : DataProperty) : Json :=
  .obj (p.toNaming.fields ++ fieldSome "propertyName" .str p.propertyName ++ p.storage.fields
    ++ fieldSome "notNull" .bool p.notNull ++ fieldSome "primaryKey" .bool p.primaryKey)

end DataProperty

namespace DataIndex

/-- The index written by a value. -/
def ofJson? (j : Json) : Option DataIndex := do
  let fields ← object? j
  let naming ← Naming.ofFields? fields
  let kind ← required fields "type" (choice? Model.IndexKind.names)
  let method ← optional fields "method" (choice? Model.IndexMethod.names)
  let properties ← required fields "properties" (list? str?)
  some { toNaming := naming, kind, method, properties }

/-- The value that writes an index. -/
def toJson (i : DataIndex) : Json :=
  .obj (i.toNaming.fields ++ field "type" i.kind.toJson
    ++ fieldSome "method" Model.IndexMethod.toJson i.method
    ++ field "properties" (ofTexts i.properties))

end DataIndex

namespace DataObject

/-- The data object written by a value. -/
def ofJson? (j : Json) : Option DataObject := do
  let fields ← object? j
  let naming ← Naming.ofFields? fields
  let tableName ← optional fields "tableName" str?
  let properties ← required fields "properties" (list? DataProperty.ofJson?)
  let indexes ← required fields "indexes" (list? DataIndex.ofJson?)
  some { toNaming := naming, tableName, properties, indexes }

/-- The value that writes a data object. -/
def toJson (d : DataObject) : Json :=
  .obj (d.toNaming.fields ++ fieldSome "tableName" .str d.tableName
    ++ field "properties" (ofList DataProperty.toJson d.properties)
    ++ field "indexes" (ofList DataIndex.toJson d.indexes))

end DataObject

namespace ReferenceTarget

/-- The references written by a value. -/
def ofJson? (j : Json) : Option ReferenceTarget := do
  let fields ← record? ["target", "cardinality", "mapper"] j
  let target ← required fields "target" str?
  let cardinality ← optional fields "cardinality" (choice? Cardinality.names)
  let pairs ← required fields "mapper" (list? FieldPair.ofJson?)
  some ⟨target, cardinality, pairs⟩

/-- The value that writes the references. -/
def toJson (t : ReferenceTarget) : Json :=
  .obj (field "target" (.str t.target)
    ++ fieldSome "cardinality" (fun c => .str c.name) t.cardinality
    ++ field "mapper" (ofList FieldPair.toJson t.pairs))

end ReferenceTarget

namespace DataReference

/-- The references written by a value. -/
def ofJson? (j : Json) : Option DataReference := do
  let fields ← record? ["source", "targets"] j
  let source ← required fields "source" str?
  let targets ← required fields "targets" (list? ReferenceTarget.ofJson?)
  some ⟨source, targets⟩

/-- The value that writes the references. -/
def toJson (r : DataReference) : Json :=
  .obj (field "source" (.str r.source)
    ++ field "targets" (ofList ReferenceTarget.toJson r.targets))

end DataReference

namespace ObjectKind

/-- The names of the kinds of objects. -/
def names : List (String × ObjectKind) :=
  [("Entity", .entity), ("ValueObject", .valueObject), ("DTO", .dto), ("DataObject", .dataObject)]

/-- The name of a kind of objects. -/
def name (k : ObjectKind) : String :=
  nameOf names k

end ObjectKind

namespace ObjectRef

/-- The side written by a value. -/
def ofJson? (j : Json) : Option ObjectRef := do
  let fields ← record? ["name", "parent", "type"] j
  let name ← required fields "name" str?
  let parent ← optional fields "parent" str?
  let kind ← required fields "type" (choice? ObjectKind.names)
  some ⟨name, parent, kind⟩

/-- The value that writes a side. -/
def toJson (r : ObjectRef) : Json :=
  .obj (field "name" (.str r.name) ++ fieldSome "parent" .str r.parent
    ++ field "type" (.str r.kind.name))

end ObjectRef

namespace MapperObject

/-- The mapper written by a value. -/
def ofJson? (j : Json) : Option MapperObject := do
  let fields ← object? j
  let naming ← Naming.ofFields? fields
  let source ← required fields "source" ObjectRef.ofJson?
  let target ← required fields "target" ObjectRef.ofJson?
  let pairs ← required fields "mapper" (list? FieldPair.ofJson?)
  some { toNaming := naming, source, target, pairs }

/-- The value that writes a mapper. -/
def toJson (m : MapperObject) : Json :=
  .obj (m.toNaming.fields ++ field "source" m.source.toJson ++ field "target" m.target.toJson
    ++ field "mapper" (ofList FieldPair.toJson m.pairs))

end MapperObject

end DomainDesign.Compiled
