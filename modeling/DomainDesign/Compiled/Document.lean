import DomainDesign.Compiled.Behaviour
import DomainDesign.Compiled.Data
import DomainDesign.Json.Printer

/-!
# Compiled documents

A compiled document has a domain model, a query model, a data model and, if the document maps
objects, an object mapper.
-/

namespace DomainDesign.Compiled

open Json

/-- An aggregation with everything that belongs to it. -/
structure Aggregate extends Naming where
  root : Option Entity := none
  entities : List Entity
  valueObjects : List ValueObject
  enums : List Enumeration
  commands : List Command
deriving DecidableEq, Inhabited

/-- The domain model: the aggregations. -/
structure DomainModel where
  aggregates : List Aggregate := []
deriving DecidableEq, Inhabited

/-- The query model: the queries and what they answer with. -/
structure QueryModel where
  queries : List Query := []
  dtos : List Dto := []
deriving DecidableEq, Inhabited

/-- The data model: the data objects and the references between them. -/
structure DataModel where
  dataObjects : List DataObject := []
  references : List DataReference := []
deriving DecidableEq, Inhabited

/-- The object mapper: the mappers. -/
structure ObjectMapper where
  mappers : List MapperObject := []
deriving DecidableEq, Inhabited

/-- A compiled document. -/
structure BusinessDomain where
  domainModel : DomainModel := {}
  queryModel : QueryModel := {}
  dataModel : DataModel := {}
  objectMapper : Option ObjectMapper := none
  vision : Option String := none
deriving DecidableEq, Inhabited

/-- The first aggregation with a name. -/
def DomainModel.aggregate? (m : DomainModel) (name : String) : Option Aggregate :=
  m.aggregates.find? fun a => a.name = name

/-- The first query with a name. -/
def QueryModel.query? (m : QueryModel) (name : String) : Option Query :=
  m.queries.find? fun q => q.name = name

/-- The first data object with a name. -/
def DataModel.dataObject? (m : DataModel) (name : String) : Option DataObject :=
  m.dataObjects.find? fun d => d.name = name

/-! ## In JSON -/

namespace Aggregate

/-- The aggregation written by a value. -/
def ofJson? (j : Json) : Option Aggregate := do
  let fields ← object? j
  let naming ← Naming.ofFields? fields
  let root ← optional fields "root" Entity.ofJson?
  let entities ← required fields "entities" (list? Entity.ofJson?)
  let valueObjects ← required fields "valueObjects" (list? ValueObject.ofJson?)
  let enums ← required fields "enums" (list? Enumeration.ofJson?)
  let commands ← required fields "commands" (list? Command.ofJson?)
  some { toNaming := naming, root, entities, valueObjects, enums, commands }

/-- The value that writes an aggregation. -/
def toJson (a : Aggregate) : Json :=
  .obj (a.toNaming.fields ++ fieldSome "root" Entity.toJson a.root
    ++ field "entities" (ofList Entity.toJson a.entities)
    ++ field "valueObjects" (ofList ValueObject.toJson a.valueObjects)
    ++ field "enums" (ofList Enumeration.toJson a.enums)
    ++ field "commands" (ofList Command.toJson a.commands))

end Aggregate

namespace DomainModel

/-- The domain model written by a value. -/
def ofJson? (j : Json) : Option DomainModel := do
  let fields ← record? ["aggregates"] j
  let aggregates ← required fields "aggregates" (list? Aggregate.ofJson?)
  some ⟨aggregates⟩

/-- The value that writes a domain model. -/
def toJson (m : DomainModel) : Json :=
  .obj (field "aggregates" (ofList Aggregate.toJson m.aggregates))

end DomainModel

namespace QueryModel

/-- The query model written by a value. -/
def ofJson? (j : Json) : Option QueryModel := do
  let fields ← record? ["queries", "dtos"] j
  let queries ← required fields "queries" (list? Query.ofJson?)
  let dtos ← required fields "dtos" (list? Dto.ofJson?)
  some ⟨queries, dtos⟩

/-- The value that writes a query model. -/
def toJson (m : QueryModel) : Json :=
  .obj (field "queries" (ofList Query.toJson m.queries) ++ field "dtos" (ofList Dto.toJson m.dtos))

end QueryModel

namespace DataModel

/-- The data model written by a value. -/
def ofJson? (j : Json) : Option DataModel := do
  let fields ← record? ["dataObjects", "references"] j
  let dataObjects ← required fields "dataObjects" (list? DataObject.ofJson?)
  let references ← required fields "references" (list? DataReference.ofJson?)
  some ⟨dataObjects, references⟩

/-- The value that writes a data model. -/
def toJson (m : DataModel) : Json :=
  .obj (field "dataObjects" (ofList DataObject.toJson m.dataObjects)
    ++ field "references" (ofList DataReference.toJson m.references))

end DataModel

namespace ObjectMapper

/-- The object mapper written by a value. -/
def ofJson? (j : Json) : Option ObjectMapper := do
  let fields ← record? ["mappers"] j
  let mappers ← required fields "mappers" (list? MapperObject.ofJson?)
  some ⟨mappers⟩

/-- The value that writes an object mapper. -/
def toJson (m : ObjectMapper) : Json :=
  .obj (field "mappers" (ofList MapperObject.toJson m.mappers))

end ObjectMapper

namespace BusinessDomain

/-- The field names, in order. -/
def names : List String :=
  ["domainModel", "queryModel", "dataModel", "objectMapper", "vision"]

/-- The document written by a value. -/
def ofJson? (j : Json) : Option BusinessDomain := do
  let fields ← record? names j
  let domainModel ← required fields "domainModel" DomainModel.ofJson?
  let queryModel ← required fields "queryModel" QueryModel.ofJson?
  let dataModel ← required fields "dataModel" DataModel.ofJson?
  let objectMapper ← optional fields "objectMapper" ObjectMapper.ofJson?
  let vision ← optional fields "vision" str?
  some ⟨domainModel, queryModel, dataModel, objectMapper, vision⟩

/-- The value that writes a document. -/
def toJson (b : BusinessDomain) : Json :=
  .obj (field "domainModel" b.domainModel.toJson ++ field "queryModel" b.queryModel.toJson
    ++ field "dataModel" b.dataModel.toJson
    ++ fieldSome "objectMapper" ObjectMapper.toJson b.objectMapper
    ++ fieldSome "vision" .str b.vision)

/-- The text of a document. -/
def text (b : BusinessDomain) : String :=
  b.toJson.render

end BusinessDomain

end DomainDesign.Compiled
