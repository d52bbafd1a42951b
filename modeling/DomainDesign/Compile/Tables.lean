import DomainDesign.Compile.Rendering
import DomainDesign.Compiled.Document
import DomainDesign.Register
import DomainDesign.Tree.Walk

/-!
# Compiling the data model

The data objects of a tree are registered when they are visited and compiled when all of them have
been, so a column may refer to a column of any of them.  A column that refers to another one gets
the bare kind of that one; if there is no such column it is left out with a warning.  The columns of
the primary key make one more index.

The references of a data object to others are grouped by the name of the object they lead to.
-/

namespace DomainDesign.Compile

open Compiled

/-- A data object as it was visited. -/
structure Table where
  naming : Naming
  object : Model.DataObject

/-- The data object with an id, among those that were visited. -/
def object? (tables : Register Table) (id : String) : Option Model.DataObject :=
  (tables.get? id).map (·.object)

/-- The column that a column refers to, with its data object. -/
def referred? (tables : Register Table) (p : Model.DataProperty) :
    Option (Model.DataObject × Model.DataProperty) :=
  match p.type with
  | .reference (some target) (some property) _ => do
    let d ← object? tables target
    let q ← d.property? property
    some (d, q)
  | _ => none

/-! ## Columns -/

/-- The type of a compiled column. -/
def columnStorage? (tables : Register Table) (p : Model.DataProperty) : Option Storage :=
  match p.type with
  | .reference .. => (referred? tables p).map fun found => .ofKind found.2.type.kind
  | other => some other.withoutEmptyDefault

/-- A column, unless it refers to one that is not there. -/
def column? (tables : Register Table) (p : Model.DataProperty) : Option DataProperty :=
  (columnStorage? tables p).map fun storage =>
    { toNaming := naming p.toNaming, propertyName := Text.nonEmpty p.propertyName, storage,
      notNull := if p.isPrimaryKey then some true else p.notNull, primaryKey := p.primaryKey }

/-! ## Indexes -/

/-- An index, with the names of the columns it covers. -/
def index (object : Model.DataObject) (i : Model.DataIndex) : DataIndex :=
  { toNaming := naming i.toNaming, kind := i.kind, method := i.method,
    properties := i.properties.filterMap fun id => (object.property? id).map (·.name) }

/-- The index of the primary key, if there is one. -/
def primaryIndex (uuid : String) (columns : List DataProperty) : List DataIndex :=
  let keys := (columns.filter fun p => p.primaryKey = some true).map (·.name)
  if keys.isEmpty then []
  else [{ uuid := uuid ++ "-primary-key", name := "primaryKeys", kind := .primary,
          properties := keys }]

/-- A data object. -/
def dataObject (tables : Register Table) (t : Table) : DataObject :=
  let columns := t.object.properties.filterMap (column? tables)
  { toNaming := t.naming, tableName := Text.nonEmpty t.object.tableName, properties := columns,
    indexes := t.object.indexes.map (index t.object) ++ primaryIndex t.naming.uuid columns }

/-! ## References -/

/-- What a column adds to the references of its data object: the name of the object it leads to, and
the pair of fields.  A column that leads to its own object adds nothing. -/
def link? (tables : Register Table) (t : Table) (p : Model.DataProperty) : Option ReferenceTarget :=
  match p.type with
  | .reference (some target) _ cardinality =>
    if target = t.naming.uuid then none
    else (referred? tables p).map fun found =>
      { target := found.1.name, cardinality, pairs := [⟨p.name, found.2.name⟩] }
  | _ => none

/-- Adds what a column leads to, joining it with what leads to an object of the same name. -/
def addLink (link : ReferenceTarget) : List ReferenceTarget → List ReferenceTarget
  | [] => [link]
  | t :: rest =>
    if t.target = link.target then
      { t with cardinality := t.cardinality.or link.cardinality, pairs := t.pairs ++ link.pairs }
        :: rest
    else t :: addLink link rest

/-- The references of a data object, if it has any. -/
def references? (tables : Register Table) (t : Table) : Option DataReference :=
  let links := t.object.properties.filterMap (link? tables t)
  if links.isEmpty then none
  else some ⟨t.naming.name, links.foldl (fun targets link => addLink link targets) []⟩

/-! ## The whole -/

/-- A visited node of a data tree. -/
inductive DataPart where
  | object (id : String) (table : Table)
  | skipped (warnings : List Warning)

/-- The part that a node is. -/
def dataPart (t : Tree) (c : Config) (n : Node) : Except Error DataPart :=
  match n.kind with
  | .dataObject => do
    let d ← n.read Model.DataObject.ofJson?
    .ok (.object n.id ⟨nodeNaming n d.toNaming, d⟩)
  | _ => (foreign t c "data" n).map .skipped

/-- The warnings that columns refer to columns that are not there. -/
def columnWarnings (tables : Register Table) (t : Table) : List Warning :=
  (t.object.properties.filter fun p => (column? tables p).isNone).map fun p =>
    .missingColumn t.naming.uuid p.name

/-- What has been visited and compiled of a data tree. -/
structure DataState where
  tables : Register Table := {}
  compiled : List DataObject := []
  references : List DataReference := []
  warnings : List Warning := []

namespace DataState

/-- Compiles the data object at a place. -/
def finish (place : Nat) (s : DataState) : DataState :=
  match s.tables.items[place]? with
  | some t =>
    { s with compiled := s.compiled ++ [dataObject s.tables t]
             references := s.references ++ (references? s.tables t).toList
             warnings := s.warnings ++ columnWarnings s.tables t }
  | none => s

/-- The data model of what has been compiled. -/
def report (s : DataState) : Report DataModel :=
  { result := ⟨s.compiled, s.references⟩, warnings := s.warnings }

end DataState

namespace DataPart

/-- Takes in a part when it is visited. -/
def enter (part : DataPart) (s : DataState) : DataState :=
  match part with
  | .object id table => { s with tables := s.tables.push id table }
  | .skipped warnings => { s with warnings := s.warnings ++ warnings }

/-- The changes that a part puts off, where `s` is the state before it is taken in. -/
def later (part : DataPart) (s : DataState) : List (DataState → DataState) :=
  match part with
  | .object _ _ => [DataState.finish s.tables.items.length]
  | .skipped _ => []

end DataPart

/-- How a data tree is taken in. -/
def dataCollector : Tree.Collector DataState DataPart :=
  ⟨DataPart.enter, DataPart.later⟩

/-- Compiles a data tree. -/
def dataModel (t : Tree) (c : Config) : Except Error (Report DataModel) :=
  (t.collect (dataPart t c) dataCollector {}).map DataState.report

end DomainDesign.Compile
