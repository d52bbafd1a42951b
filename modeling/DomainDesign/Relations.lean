import DomainDesign.Model.Data
import DomainDesign.Model.Dependencies
import DomainDesign.Tree.Walk

/-!
# Relations between the objects of a document

Which objects depend on, are associated with, or belong to which others, over all trees of a
document.

Every visited node gives a `Finding` by itself; the findings with one id make the relations of the
object with that id.  Only ids of visited nodes are kept in the relations of an object, and an
object that refers to another id is flagged.  `View.edges` are the relations as arrows between
different objects.
-/

namespace DomainDesign

open Model Json

/-- How one object is related to another. -/
inductive Relationship where
  | dependency
  | association
  | aggregation
deriving DecidableEq, Inhabited, Repr

/-- A relation as an arrow. -/
structure Edge where
  source : String
  target : String
  relationship : Relationship
deriving DecidableEq, Inhabited, Repr

/-- The relations of one object. -/
structure ObjectRelations where
  id : String
  kind : String
  dependencies : List String
  associations : List String
  aggregations : List String
  /-- Whether the object refers to something that is not there. -/
  hasReferencesError : Bool
deriving DecidableEq, Inhabited, Repr

/-- What a visited node says about itself and about others. -/
structure Finding where
  id : String
  kind : String
  dependencies : List String := []
  associations : List String := []
  /-- Owners and what belongs to them. -/
  links : List (String × String) := []
deriving DecidableEq, Inhabited, Repr

/-! ## Single nodes -/

namespace Finding

/-- A finding without relations. -/
def bare (n : Node) : Finding :=
  { id := n.id, kind := n.kind.name }

/-- What a class at a node refers to. -/
def ofDependencies (n : Node) (d : Dependencies) : Finding :=
  { bare n with dependencies := d.dependencies, associations := d.associations }

/-- The link that makes a node belong to what a reference leads to. -/
def linkTo (n : Node) (r : Option Reference) : List (String × String) :=
  match r.bind Reference.target? with
  | some owner => [(owner, n.id)]
  | none => []

/-- The ids of the data objects that the columns of a data object refer to. -/
def columnTargets (d : DataObject) : List String :=
  unique (d.properties.filterMap fun p =>
    match p.type with
    | .reference (some target) _ _ => some target
    | _ => none)

/-- What a node says; the root says nothing. -/
def ofNode (t : Tree) (n : Node) : Except Error (Option Finding) :=
  match n.kind with
  | .root => .ok none
  | .entity => do
    let e ← n.read Entity.ofJson?
    .ok (some (ofDependencies n e.toClassBody.dependencies))
  | .valueObject => do
    let v ← n.read ValueObject.ofJson?
    .ok (some (ofDependencies n v.toClassBody.dependencies))
  | .dto => do
    let d ← n.read Dto.ofJson?
    .ok (some (ofDependencies n d.toClassBody.dependencies))
  | .command => do
    let c ← n.read Command.ofJson?
    .ok (some { bare n with associations := c.associations, links := linkTo n c.aggregation })
  | .query => do
    let q ← n.read Query.ofJson?
    .ok (some (ofDependencies n q.dependencies))
  | .rule => do
    let r ← n.read Rule.ofJson?
    .ok (some { bare n with links := linkTo n r.aggregator })
  | .aggregation =>
    .ok (some { bare n with links := (t.children n).map fun child => (n.id, child.id) })
  | .dataObject => do
    let d ← n.read DataObject.ofJson?
    .ok (some { bare n with associations := columnTargets d })
  | _ => .ok (some (bare n))

/-- What the nodes of a tree say. -/
def ofTree (t : Tree) : Except Error (List Finding) := do
  let found ← t.survey (ofNode t)
  .ok (found.filterMap fun f => f)

/-- What the nodes of trees say, tree by tree. -/
def ofTrees : List Tree → Except Error (List Finding)
  | [] => .ok []
  | t :: rest => do
    let here ← ofTree t
    let others ← ofTrees rest
    .ok (here ++ others)

end Finding

/-! ## Objects -/

/-- The relations of the object with an id, where `found` is everything that was said. -/
def ObjectRelations.of (found : List Finding) (id : String) : ObjectRelations :=
  let known (i : String) : Bool := found.any fun f => f.id = i
  let own := found.filter fun f => f.id = id
  let dependencies := unique (own.flatMap (·.dependencies))
  let associations := unique (own.flatMap (·.associations))
  let members := ((found.flatMap (·.links)).filter fun l => l.1 = id).map (·.2)
  { id, kind := (own.getLast?.map (·.kind)).getD ""
    dependencies := dependencies.filter known
    associations := associations.filter known
    aggregations := (unique members).filter known
    hasReferencesError := !(dependencies.all known && associations.all known) }

/-- The arrows from an object to others. -/
def ObjectRelations.edges (o : ObjectRelations) : List Edge :=
  let arrows (r : Relationship) (targets : List String) : List Edge :=
    targets.map fun target => ⟨o.id, target, r⟩
  (arrows .dependency o.dependencies ++ arrows .association o.associations
    ++ arrows .aggregation o.aggregations).filter fun e => e.target ≠ o.id

/-- The relations of all objects, in the order of their ids. -/
structure View where
  objects : List ObjectRelations
deriving DecidableEq, Inhabited

namespace View

/-- The relations of the objects of trees. -/
def ofTrees (trees : List Tree) : Except Error View := do
  let found ← Finding.ofTrees trees
  .ok ⟨(orderedTexts (found.map (·.id))).map (ObjectRelations.of found)⟩

/-- The relations of the object with an id. -/
def object? (v : View) (id : String) : Option ObjectRelations :=
  v.objects.find? fun o => o.id = id

/-- The arrows between objects. -/
def edges (v : View) : List Edge :=
  v.objects.flatMap ObjectRelations.edges

/-- The ids of the other objects that depend on or are associated with an id. -/
def dependentsOf (v : View) (id : String) : List String :=
  (v.objects.filter fun o =>
    o.id ≠ id && (o.dependencies.contains id || o.associations.contains id)).map (·.id)

/-- The ids of the objects that refer to something that is not there. -/
def referenceErrors (v : View) : List String :=
  (v.objects.filter (·.hasReferencesError)).map (·.id)

end View

/-! ## In JSON -/

/-- The name of a relationship. -/
def Relationship.name : Relationship → String
  | .dependency => "dependency"
  | .association => "association"
  | .aggregation => "aggregation"

/-- The value that writes an arrow. -/
def Edge.toJson (e : Edge) : Json :=
  .obj (field "id" (.str (e.source ++ "->" ++ e.target)) ++ field "source" (.str e.source)
    ++ field "target" (.str e.target) ++ field "type" (.str e.relationship.name))

/-- The value that writes the relations of an object. -/
def ObjectRelations.toJson (o : ObjectRelations) : Json :=
  .obj (field "id" (.str o.id) ++ field "kind" (.str o.kind)
    ++ field "dependencies" (ofTexts o.dependencies)
    ++ field "associations" (ofTexts o.associations)
    ++ field "aggregations" (ofTexts o.aggregations)
    ++ field "hasReferencesError" (.bool o.hasReferencesError))

/-- The value that writes the relations of all objects. -/
def View.toJson (v : View) : Json :=
  .obj (field "objects" (.obj (v.objects.map fun o => (o.id, o.toJson)))
    ++ field "edges" (ofList Edge.toJson v.edges))

end DomainDesign
