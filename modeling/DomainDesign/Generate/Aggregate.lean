import DomainDesign.Generate.Carrier
import DomainDesign.Model.Data
import DomainDesign.Model.Mapper
import DomainDesign.Storage.Projection

/-!
# Artifacts of an aggregation

What can be made from the root of an aggregation: a query for one object and a query for a page of
them, the data transfer objects they answer with, a data object to keep the root in, and the mappers
from the root and from its data transfer object to the data object.

The ids are drawn in the order in which the artifacts are made.
-/

namespace DomainDesign

open Model Json

/-- The artifacts of an aggregation. -/
structure Artifacts where
  detailQuery : Query
  pageQuery : Query
  dtos : List Dto
  dataObject : DataObject
  mapper : MapperObject
  dtoMapper : MapperObject
deriving DecidableEq, Inhabited

variable {σ : Type} [IdSource σ]

namespace Artifacts

/-- Adds a column for each property that has one. -/
def addColumns (store : Store) (idUuid : String) :
    List Property → DataObject → MakingFrom σ DataObject
  | [], d => pure d
  | p :: rest, d =>
    match project? (some store.get?) p.type with
    | none => addColumns store idUuid rest d
    | some type => do
      let uuid ← Making.nextId
      let column : DataProperty :=
        { uuid, name := p.name, title := p.title, description := p.description, type }
      addColumns store idUuid rest
        (d.withProperty (if p.uuid = idUuid then column.asPrimaryKey else column))

/-- The data object to keep a root in. -/
def makeDataObject (store : Store) (root : Entity) : MakingFrom σ DataObject := do
  let uuid ← Making.nextId
  addColumns store root.idUuid root.properties
    { uuid, name := root.name ++ "DO", title := root.title, description := root.description }

/-- Pairs each property with the first column of its name. -/
def pairColumns (columns : List DataProperty) : List Property → MakingFrom σ (List FieldMapper)
  | [] => pure []
  | p :: rest =>
    match columns.find? fun column => column.name = p.name with
    | none => pairColumns columns rest
    | some column => do
      let uuid ← Making.nextId
      let others ← pairColumns columns rest
      pure (FieldMapper.of uuid p.uuid column.uuid :: others)

/-- The mapper from a class to the columns of the same names. -/
def makeMapper (part : ObjectSource) (c : ClassBody) (d : DataObject) :
    MakingFrom σ MapperObject := do
  let mappers ← pairColumns d.properties c.properties
  let uuid ← Making.nextId
  pure
    { uuid, name := c.name ++ "To" ++ d.name, source := some (.of part c.uuid c.name),
      target := some (.of .data d.uuid d.name), mappers }

/-- The property that asks for one object. -/
def makeIdInput (store : Store) (p : Property) : MakingFrom σ Property := do
  let uuid ← Making.nextId
  let type ← Carrier.carry store (Carrier.ofClass store) p.type
  pure { toNaming := p.toNaming.withUuid uuid, type }

/-- Makes the artifacts of a root with an identifying property. -/
def make (store : Store) (root : Entity) (idProperty : Property) : MakingFrom σ Artifacts := do
  let answer ← Carrier.ofClass store root.toClassBody
  let idInput ← makeIdInput store idProperty
  let detailId ← Making.nextId
  let pageId ← Making.nextId
  let dataObject ← makeDataObject store root
  let mapper ← makeMapper .domain root.toClassBody dataObject
  match (← get).memo.get? root.uuid with
  | none => throw (.lostRoot root.name)
  | some rootDto =>
    let dtoMapper ← makeMapper .struct rootDto.toClassBody dataObject
    let dtos := (← get).memo.toList
    pure
      { detailQuery :=
          { uuid := detailId, name := root.name ++ "Query", properties := [idInput],
            result := some answer }
        pageQuery :=
          { uuid := pageId, name := root.name ++ "PageQuery", pagination := true,
            result := some answer }
        dtos, dataObject, mapper, dtoMapper }

/-- Makes the artifacts of an entity, which has to be a root with an identifying property. -/
def ofRoot (store : Store) (root : Entity) : MakingFrom σ Artifacts :=
  if root.isAggregationRoot then
    match root.idProperty? with
    | none => throw (.rootWithoutId root.name)
    | some p => make store root p
  else throw (.notAggregateRoot root.name)

/-- The value that writes the artifacts. -/
def toJson (a : Artifacts) : Json :=
  .obj (field "query" (.obj (field "detailQuery" a.detailQuery.toJson
      ++ field "pageQuery" a.pageQuery.toJson))
    ++ field "dtos" (ofList Dto.toJson a.dtos) ++ field "dataObject" a.dataObject.toJson
    ++ field "mapper" a.mapper.toJson ++ field "dtoMapper" a.dtoMapper.toJson)

end Artifacts

/-- Makes the artifacts of an entity with ids from a source.  The second component is the source
afterwards, also when nothing could be made. -/
def generateFrom (store : Store) (root : Entity) (ids : σ) : Except Error Artifacts × σ :=
  match (Artifacts.ofRoot store root).run { ids } with
  | .ok a w => (.ok a, w.ids)
  | .error e w => (.error e, w.ids)

/-- Makes the artifacts of an entity with ids that are counted. -/
abbrev generate (store : Store) (root : Entity) (ids : IdSupply) :
    Except Error Artifacts × IdSupply :=
  generateFrom store root ids

end DomainDesign
