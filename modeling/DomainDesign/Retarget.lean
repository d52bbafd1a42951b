import DomainDesign.IdSupply
import DomainDesign.Model.Behaviour
import DomainDesign.Storage.Projection
import DomainDesign.Text.LowerCase

/-!
# Turning an object into one of another kind

An entity, value object, data transfer object, query or command can be copied, or turned into an
object of another kind with the same name and properties.  Everything in the result has a fresh id,
drawn in the order of the parts: the object, its properties, its methods with their parameters, its
class properties and its class methods.
-/

namespace DomainDesign

open Model Json

/-- An object that can be copied or turned into another kind. -/
inductive Pattern where
  | entity (e : Entity)
  | valueObject (v : ValueObject)
  | dto (d : Dto)
  | query (q : Query)
  | command (c : Command)
deriving DecidableEq, Inhabited

/-- The kinds that an object can be turned into. -/
inductive PatternKind where
  | entity
  | valueObject
  | dto
  | query
  | command
  | dataObject
deriving DecidableEq, Inhabited, Repr

/-- What an object was copied or turned into; a data object cannot be turned any further. -/
inductive Retargeted where
  | pattern (p : Pattern)
  | dataObject (d : DataObject)
deriving DecidableEq, Inhabited

namespace Pattern

/-- The naming of an object. -/
def naming : Pattern → Naming
  | .entity e => e.toNaming
  | .valueObject v => v.toNaming
  | .dto d => d.toNaming
  | .query q => q.toNaming
  | .command c => c.toNaming

/-- The properties of an object. -/
def properties : Pattern → List Property
  | .entity e => e.properties
  | .valueObject v => v.properties
  | .dto d => d.properties
  | .query q => q.properties
  | .command c => c.properties

/-- The kind of an object. -/
def kind : Pattern → PatternKind
  | .entity _ => .entity
  | .valueObject _ => .valueObject
  | .dto _ => .dto
  | .query _ => .query
  | .command _ => .command

/-- The uuid of the identifying property of an entity. -/
def idUuid? : Pattern → Option String
  | .entity e => some e.idUuid
  | _ => none

end Pattern

namespace Retargeted

/-- The kind of an object. -/
def kind : Retargeted → PatternKind
  | .pattern p => p.kind
  | .dataObject _ => .dataObject

/-- The uuid of an object. -/
def uuid : Retargeted → String
  | .pattern p => p.naming.uuid
  | .dataObject d => d.uuid

end Retargeted

/-! ## Fresh ids -/

/-- A computation that draws ids from a source. -/
abbrev MintingFrom (σ : Type) := StateM σ

/-- A computation that draws ids that are counted. -/
abbrev Minting := MintingFrom IdSupply

variable {σ : Type} [IdSource σ]

/-- Draws an id. -/
def Minting.nextId : MintingFrom σ String :=
  modifyGet IdSource.next

/-- The naming under a fresh id. -/
def Model.Naming.freshen (n : Naming) : MintingFrom σ Naming := do
  let uuid ← Minting.nextId
  pure (n.withUuid uuid)

/-- The property under a fresh id. -/
def Model.Property.freshen (p : Property) : MintingFrom σ Property := do
  let naming ← p.toNaming.freshen
  pure { p with toNaming := naming }

/-- The parameter under a fresh id. -/
def Model.Parameter.freshen (p : Parameter) : MintingFrom σ Parameter := do
  let naming ← p.toNaming.freshen
  pure { p with toNaming := naming }

/-- The method and its parameters under fresh ids. -/
def Model.Method.freshen (m : Method) : MintingFrom σ Method := do
  let naming ← m.toNaming.freshen
  let parameters ← m.parameters.mapM Parameter.freshen
  pure { m with toNaming := naming, parameters }

/-- The body with everything in it under fresh ids. -/
def Model.ClassBody.freshen (c : ClassBody) : MintingFrom σ ClassBody := do
  let naming ← c.toNaming.freshen
  let properties ← c.properties.mapM Property.freshen
  let methods ← c.methods.mapM Method.freshen
  let classProperties ← c.classProperties.mapM Property.freshen
  let classMethods ← c.classMethods.mapM Method.freshen
  pure { c with toNaming := naming, properties, methods, classProperties, classMethods }

namespace Pattern

/-! ## Copies -/

/-- The copy of an entity.  The property that identifies the copy is the one at the place of the
property that identifies the entity. -/
def cloneEntity (e : Entity) : MintingFrom σ (Except Error Entity) := do
  let body ← e.toClassBody.freshen
  let place := e.properties.findIdx fun p => p.uuid = e.idUuid
  match body.properties[place]? with
  | some p => pure (.ok { e with toClassBody := body, idUuid := p.uuid })
  | none => pure (.error (.missingIdProperty e.name))

/-- The copy of an object with everything in it under fresh ids.  An entity that names no property
of its own as the identifying one has no copy. -/
def clone : Pattern → MintingFrom σ (Except Error Pattern)
  | .entity e => do
    let copy ← cloneEntity e
    pure (copy.map .entity)
  | .valueObject v => do
    let body ← v.toClassBody.freshen
    pure (.ok (.valueObject ⟨body⟩))
  | .dto d => do
    let body ← d.toClassBody.freshen
    pure (.ok (.dto ⟨body⟩))
  | .query q => do
    let naming ← q.toNaming.freshen
    let properties ← q.properties.mapM Property.freshen
    pure (.ok (.query { q with toNaming := naming, properties }))
  | .command c => do
    let naming ← c.toNaming.freshen
    let properties ← c.properties.mapM Property.freshen
    let eventProperties ← c.eventProperties.mapM Property.freshen
    pure (.ok (.command { c with toNaming := naming, properties, eventProperties }))

/-! ## Other kinds -/

/-- A body with the naming and the properties of an object. -/
def shellBody (p : Pattern) : MintingFrom σ ClassBody := do
  let naming ← p.naming.freshen
  let properties ← p.properties.mapM Property.freshen
  pure { toNaming := naming, properties }

/-- Whether a text has `id` in it. -/
def hasId : List Char → Bool
  | 'i' :: 'd' :: _ => true
  | _ :: rest => hasId rest
  | [] => false

/-- Whether a name has `id` in it, in upper or lower case. -/
def speaksOfId (name : String) : Bool :=
  hasId (Text.lowerCase name).toList

/-- The identifying property to be: the first with `id` in its name, or else the first. -/
def pickId? (ps : List Property) : Option Property :=
  (ps.find? fun p => speaksOfId p.name).or ps.head?

/-- An identifying property for an entity without properties. -/
def idProperty (uuid : String) : Property :=
  { uuid, name := "id", title := some "Entity unique identifier", type := some (.base "Long") }

/-- The entity with the naming and properties of an object. -/
def toEntity (p : Pattern) : MintingFrom σ Entity := do
  let body ← p.shellBody
  match pickId? body.properties with
  | some id => pure { toClassBody := body, idUuid := id.uuid }
  | none =>
    let uuid ← Minting.nextId
    pure { toClassBody := { body with properties := idProperty uuid :: body.properties }
           idUuid := uuid }

/-- The query with the naming and properties of an object. -/
def toQuery (p : Pattern) : MintingFrom σ Query := do
  let naming ← p.naming.freshen
  let properties ← p.properties.mapM Property.freshen
  pure { toNaming := naming, properties }

/-- The command with the naming and properties of an object. -/
def toCommand (p : Pattern) : MintingFrom σ Command := do
  let naming ← p.naming.freshen
  let properties ← p.properties.mapM Property.freshen
  pure { toNaming := naming, properties, repository := .modify }

/-- The columns for the properties that have one. -/
def columns (find : Option Lookup) (idUuid : Option String) :
    List Property → MintingFrom σ (List DataProperty)
  | [] => pure []
  | p :: rest =>
    match project? find p.type with
    | none => columns find idUuid rest
    | some type => do
      let naming ← p.toNaming.freshen
      let others ← columns find idUuid rest
      let column : DataProperty := { toNaming := naming, type }
      pure ((if idUuid = some p.uuid then column.asPrimaryKey else column) :: others)

/-- The data object with the naming of an object and a column for each property that has one. -/
def toDataObject (find : Option Lookup) (p : Pattern) : MintingFrom σ DataObject := do
  let naming ← p.naming.freshen
  let properties ← columns find p.idUuid? p.properties
  pure { toNaming := naming, properties }

/-- The object of a kind with the naming and properties of an object. -/
def retarget (find : Option Lookup) (p : Pattern) : PatternKind → MintingFrom σ Retargeted
  | .entity => do
    let e ← p.toEntity
    pure (.pattern (.entity e))
  | .valueObject => do
    let body ← p.shellBody
    pure (.pattern (.valueObject ⟨body⟩))
  | .dto => do
    let body ← p.shellBody
    pure (.pattern (.dto ⟨body⟩))
  | .query => do
    let q ← p.toQuery
    pure (.pattern (.query q))
  | .command => do
    let c ← p.toCommand
    pure (.pattern (.command c))
  | .dataObject => do
    let d ← p.toDataObject find
    pure (.dataObject d)

end Pattern

/-! ## In JSON -/

namespace PatternKind

/-- The names of the kinds. -/
def names : List (String × PatternKind) :=
  [("Entity", .entity), ("ValueObject", .valueObject), ("DTO", .dto), ("Query", .query),
    ("Command", .command), ("DataObject", .dataObject)]

/-- The name of a kind. -/
def name (k : PatternKind) : String :=
  nameOf names k

end PatternKind

namespace Retargeted

/-- The object of a kind that a value writes. -/
def ofValue? (kind : PatternKind) (j : Json) : Option Retargeted :=
  match kind with
  | .entity => (Entity.ofJson? j).map fun e => .pattern (.entity e)
  | .valueObject => (ValueObject.ofJson? j).map fun v => .pattern (.valueObject v)
  | .dto => (Dto.ofJson? j).map fun d => .pattern (.dto d)
  | .query => (Query.ofJson? j).map fun q => .pattern (.query q)
  | .command => (Command.ofJson? j).map fun c => .pattern (.command c)
  | .dataObject => (DataObject.ofJson? j).map .dataObject

/-- The object written by a value: its kind and itself, in an object or in an array of the two.  In
an object the kind is a choice, in an array it is a tag. -/
def ofJson? : Json → Option Retargeted
  | .obj fields => do
    let kind ← required fields "kind" (choice? PatternKind.names)
    required fields "value" (ofValue? kind)
  | .arr [tag, value] => (tag? false PatternKind.names tag).bind fun kind => ofValue? kind value
  | _ => none

/-- The value that writes an object without its kind. -/
def valueJson : Retargeted → Json
  | .pattern (.entity e) => e.toJson
  | .pattern (.valueObject v) => v.toJson
  | .pattern (.dto d) => d.toJson
  | .pattern (.query q) => q.toJson
  | .pattern (.command c) => c.toJson
  | .dataObject d => d.toJson

/-- The value that writes an object. -/
def toJson (r : Retargeted) : Json :=
  .obj (field "kind" (.str r.kind.name) ++ field "value" r.valueJson)

end Retargeted

end DomainDesign
