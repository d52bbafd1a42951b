import DomainDesign.Error
import DomainDesign.Json.Printer

/-!
# Nodes

A node of a document tree: its id, its place in the tree, its kind and its properties.  The kind is
kept among the properties too, under `__node_name__`.
-/

namespace DomainDesign

/-- What a node stands for. -/
inductive Kind where
  | root
  | aggregation
  | entity
  | valueObject
  | enumeration
  | command
  | rule
  | query
  | dto
  | dataObject
  | mapperObject
  | other (name : String)
deriving DecidableEq, Inhabited, Repr

namespace Kind

/-- The kinds with a name of their own. -/
def names : List (String × Kind) :=
  [("__ROOT__", .root), ("aggregation", .aggregation), ("entity", .entity),
    ("value-object", .valueObject), ("enum", .enumeration), ("command", .command), ("rule", .rule),
    ("query", .query), ("dto", .dto), ("dataObject", .dataObject), ("mapperObject", .mapperObject)]

/-- The kind with a name. -/
def ofName (name : String) : Kind :=
  (names.lookup name).getD (.other name)

/-- The name of a kind. -/
def name : Kind → String
  | .root => "__ROOT__"
  | .aggregation => "aggregation"
  | .entity => "entity"
  | .valueObject => "value-object"
  | .enumeration => "enum"
  | .command => "command"
  | .rule => "rule"
  | .query => "query"
  | .dto => "dto"
  | .dataObject => "dataObject"
  | .mapperObject => "mapperObject"
  | .other name => name

end Kind

/-- A node of a document tree. -/
structure Node where
  id : String
  parentId : Option String := none
  childIds : List String := []
  kind : Kind
  properties : Dict Json
  /-- The ids of the children are in order, each once. -/
  childOrder : childIds.Pairwise (· < ·) := by exact List.Pairwise.nil
deriving DecidableEq

instance : Inhabited Node := ⟨{ id := "", kind := default, properties := [] }⟩

namespace Node

/-- The property that holds the name of a node's kind. -/
def kindKey : String := "__node_name__"

/-- A node on its own.  Its kind is put among its properties; anything but an object gives it no
others. -/
def make (id : String) (kind : Kind) (properties : Json) : Node :=
  let bag := match properties with
    | .obj fields => fields
    | _ => []
  { id, kind, properties := Dict.insert kindKey (.str kind.name) bag }

/-- A node with one more child. -/
def withChild (n : Node) (id : String) : Node :=
  { n with
    childIds := insertText id n.childIds
    childOrder := pairwise_insertText id n.childOrder }

/-- The text of a property, if it is a string. -/
def text? (n : Node) (key : String) : Option String :=
  (n.properties.lookup key).bind Json.str?

/-- The uuid that a node declares, if it declares one. -/
def declaredUuid? (n : Node) : Option String :=
  (n.text? "uuid").filter (!·.isEmpty)

/-- The name that a node declares. -/
def name? (n : Node) : Option String :=
  n.text? "name"

/-- A node that declares a uuid declares its own id. -/
def checkIdentity (n : Node) : Except Error Unit :=
  match n.declaredUuid? with
  | some uuid => if uuid = n.id then .ok () else .error (.identifierMismatch n.id uuid)
  | none => .ok ()

/-- Reads the properties of a node as a part of a document. -/
def read {α : Type} (ofJson? : Json → Option α) (n : Node) : Except Error α :=
  match ofJson? (.obj n.properties) with
  | some a => .ok a
  | none => .error (.unreadableNode n.id n.kind.name)

end Node

/-- The properties that write a part of a document. -/
def toProperties (j : Json) : Except Error (Dict Json) :=
  match j.sorted with
  | .obj fields => .ok fields
  | other => .error (.notAnObject other.render)

end DomainDesign
