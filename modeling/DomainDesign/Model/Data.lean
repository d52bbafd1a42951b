import DomainDesign.Model.Naming
import DomainDesign.Storage.Codec

/-!
# Data objects

A data object is a table: its columns and its indexes.  An index lists the columns it covers by id.
-/

namespace DomainDesign.Model

open Json

/-- A column of a data object. -/
structure DataProperty extends Naming where
  propertyName : Option String := none
  type : Storage
  notNull : Option Bool := none
  primaryKey : Option Bool := none
deriving DecidableEq, Inhabited

/-- What an index is for. -/
inductive IndexKind where
  | normal
  | unique
  | fullText
  | primary
deriving DecidableEq, Inhabited, Repr

/-- How an index is kept. -/
inductive IndexMethod where
  | tree
  | hash
deriving DecidableEq, Inhabited, Repr

/-- An index of a data object. -/
structure DataIndex extends Naming where
  kind : IndexKind := .normal
  properties : List String := []
  method : Option IndexMethod := none
deriving DecidableEq, Inhabited

/-- A data object. -/
structure DataObject extends Naming where
  tableName : Option String := none
  properties : List DataProperty := []
  indexes : List DataIndex := []
deriving DecidableEq, Inhabited

/-- The column as the primary key. -/
def DataProperty.asPrimaryKey (p : DataProperty) : DataProperty :=
  { p with primaryKey := some true, notNull := some true }

/-- Whether a column belongs to the primary key. -/
def DataProperty.isPrimaryKey (p : DataProperty) : Bool :=
  p.primaryKey.getD false

/-- The first column with a uuid. -/
def DataObject.property? (d : DataObject) (uuid : String) : Option DataProperty :=
  d.properties.find? fun p => p.uuid = uuid

/-- A data object with one more column. -/
def DataObject.withProperty (d : DataObject) (p : DataProperty) : DataObject :=
  { d with properties := d.properties ++ [p] }

/-! ## In JSON -/

/-- The names of the kinds of indexes. -/
def IndexKind.names : List (String × IndexKind) :=
  [("Normal", .normal), ("Unique", .unique), ("FullText", .fullText), ("Primary", .primary)]

/-- The value that writes a kind of index. -/
def IndexKind.toJson (k : IndexKind) : Json :=
  .str (nameOf IndexKind.names k)

/-- The names of the methods of an index. -/
def IndexMethod.names : List (String × IndexMethod) :=
  [("BTREE", .tree), ("HASH", .hash)]

/-- The value that writes the method of an index. -/
def IndexMethod.toJson (m : IndexMethod) : Json :=
  .str (nameOf IndexMethod.names m)

namespace DataProperty

/-- The column written by a value. -/
def ofJson? (j : Json) : Option DataProperty := do
  let fields ← object? j
  let naming ← Naming.ofFields? fields
  let propertyName ← optional fields "propertyName" str?
  let type ← required fields "type" (Storage.ofJson? false)
  let notNull ← optional fields "notNull" bool?
  let primaryKey ← optional fields "primaryKey" bool?
  some { toNaming := naming, propertyName, type, notNull, primaryKey }

/-- The value that writes a column. -/
def toJson (p : DataProperty) : Json :=
  .obj (p.toNaming.fields ++ fieldSome "propertyName" .str p.propertyName
    ++ field "type" p.type.toJson ++ fieldSome "notNull" .bool p.notNull
    ++ fieldSome "primaryKey" .bool p.primaryKey)

end DataProperty

namespace DataIndex

/-- The index written by a value. -/
def ofJson? (j : Json) : Option DataIndex := do
  let fields ← object? j
  let naming ← Naming.ofFields? fields
  let kind ← orDefault fields "type" .normal (choice? IndexKind.names)
  let properties ← orDefault fields "properties" [] (list? str?)
  let method ← optional fields "method" (choice? IndexMethod.names)
  some { toNaming := naming, kind, properties, method }

/-- The value that writes an index. -/
def toJson (i : DataIndex) : Json :=
  .obj (i.toNaming.fields ++ field "type" i.kind.toJson ++ field "properties" (ofTexts i.properties)
    ++ fieldSome "method" IndexMethod.toJson i.method)

end DataIndex

namespace DataObject

/-- The data object written by a value. -/
def ofJson? (j : Json) : Option DataObject := do
  let fields ← object? j
  let naming ← Naming.ofFields? fields
  let tableName ← optional fields "tableName" str?
  let properties ← orDefault fields "properties" [] (list? DataProperty.ofJson?)
  let indexes ← orDefault fields "indexes" [] (list? DataIndex.ofJson?)
  some { toNaming := naming, tableName, properties, indexes }

/-- The value that writes a data object. -/
def toJson (d : DataObject) : Json :=
  .obj (d.toNaming.fields ++ fieldSome "tableName" .str d.tableName
    ++ field "properties" (ofList DataProperty.toJson d.properties)
    ++ field "indexes" (ofList DataIndex.toJson d.indexes))

end DataObject

end DomainDesign.Model
