import DomainDesign.Compiled.Data
import DomainDesign.Model.Behaviour
import DomainDesign.Model.Enumeration
import DomainDesign.Tree.Basic

/-!
# Object stores

A store holds the entities, value objects, enumerations, data transfer objects and data objects that
references may lead to, each with the aggregation it belongs to.  The first object under an id
stays.

Objects are found by their ids and listed in the order in which they were put in.  A store keeps an
account of each, and carries the proof that the two are in step.

`Store.ofTrees` loads the objects of trees under the ids of their nodes, tree by tree and each tree
in the order of its ids.  `Store.insert` puts an object under its own uuid.
-/

namespace DomainDesign

open Model

/-- An object that references may lead to. -/
inductive StoredObject where
  | entity (e : Entity)
  | valueObject (v : ValueObject)
  | enumeration (e : Enumeration)
  | dto (d : Dto)
  | dataObject (d : DataObject)
deriving DecidableEq, Inhabited

namespace StoredObject

/-- The kind of node that an object comes from. -/
def kind : StoredObject → Kind
  | .entity _ => .entity
  | .valueObject _ => .valueObject
  | .enumeration _ => .enumeration
  | .dto _ => .dto
  | .dataObject _ => .dataObject

/-- The kind that a mapper sees; enumerations are not mapped. -/
def mapperKind? : StoredObject → Option Compiled.ObjectKind
  | .entity _ => some .entity
  | .valueObject _ => some .valueObject
  | .enumeration _ => none
  | .dto _ => some .dto
  | .dataObject _ => some .dataObject

/-- The naming of an object. -/
def naming : StoredObject → Naming
  | .entity e => e.toNaming
  | .valueObject v => v.toNaming
  | .enumeration e => e.toNaming
  | .dto d => d.toNaming
  | .dataObject d => d.toNaming

/-- The uuid of an object. -/
def uuid (o : StoredObject) : String :=
  o.naming.uuid

/-- The name of an object. -/
def name (o : StoredObject) : String :=
  o.naming.name

/-- The body of an object that has one. -/
def body? : StoredObject → Option ClassBody
  | .entity e => some e.toClassBody
  | .valueObject v => some v.toClassBody
  | .dto d => some d.toClassBody
  | _ => none

/-- The name of the property, column or member with a uuid. -/
def fieldName? (o : StoredObject) (uuid : String) : Option String :=
  match o with
  | .enumeration e => (e.members.find? fun m => m.uuid = uuid).map (·.name)
  | .dataObject d => (d.property? uuid).map (·.name)
  | o => o.body?.bind fun c => (c.properties.find? fun p => p.uuid = uuid).map (·.name)

/-- The object that a value of a kind writes. -/
def ofJson? (kind : Kind) (j : Json) : Option StoredObject :=
  match kind with
  | .entity => (Entity.ofJson? j).map .entity
  | .valueObject => (ValueObject.ofJson? j).map .valueObject
  | .enumeration => (Enumeration.ofJson? j).map .enumeration
  | .dto => (Dto.ofJson? j).map .dto
  | .dataObject => (DataObject.ofJson? j).map .dataObject
  | _ => none

/-- Whether there are objects of a kind. -/
def isKind : Kind → Bool
  | .entity | .valueObject | .enumeration | .dto | .dataObject => true
  | _ => false

end StoredObject

/-- What is found under an id: an object, and the aggregation that it belongs to. -/
structure StoreEntry where
  id : String
  object : StoredObject
  parent : Option Naming := none
deriving DecidableEq, Inhabited

/-- A way to find objects by their ids. -/
abbrev Lookup := String → Option StoreEntry

/-- The base type that stands for a reference to an enumeration; no other reference has one. -/
def Lookup.referenceStorage? (find : Lookup) (id : String) : Option TypeExpr :=
  match find id with
  | some ⟨_, .enumeration e, _⟩ => some e.storageType
  | _ => none

/-- What a store keeps under an id. -/
structure StoreSlot where
  object : StoredObject
  parent : Option Naming
deriving DecidableEq, Inhabited

/-- A store of objects: what there is under the ids, and the ids in the order in which they were
taken. -/
structure Store where
  slots : Dict StoreSlot
  order : List String
  sorted : slots.Sorted
  /-- The ids that are taken are listed, each once. -/
  listed : order.Perm slots.keys
deriving DecidableEq

namespace Store

/-- The store without objects. -/
def empty : Store where
  slots := []
  order := []
  sorted := .nil
  listed := .refl _

instance : EmptyCollection Store :=
  ⟨empty⟩

instance : Inhabited Store :=
  ⟨empty⟩

/-- The object under an id. -/
def get? (s : Store) (id : String) : Option StoreEntry :=
  (s.slots.lookup id).map fun slot => ⟨id, slot.object, slot.parent⟩

/-- A store is a way to find objects by their ids. -/
instance : Coe Store Lookup := ⟨get?⟩

/-- Whether there is an object under an id. -/
def contains (s : Store) (id : String) : Bool :=
  Dict.has id s.slots

/-- How many objects there are. -/
def size (s : Store) : Nat :=
  s.slots.length

/-- The objects, in the order in which they were put in. -/
def objects (s : Store) : List StoreEntry :=
  s.order.filterMap s.get?

/-- The store with one object more, under an id that is free. -/
def add (s : Store) (id : String) (slot : StoreSlot) (free : ¬ s.contains id) : Store where
  slots := Dict.insert id slot s.slots
  order := s.order ++ [id]
  sorted := Dict.sorted_insert id slot s.sorted
  listed := by
    have hnone : s.slots.lookup id = none := Option.not_isSome_iff_eq_none.mp free
    have hkeys : (Dict.insert id slot s.slots).keys.Perm (id :: s.slots.keys) :=
      (Dict.perm_insert slot hnone).map Prod.fst
    have horder := List.perm_append_singleton id s.order
    exact horder.trans ((s.listed.cons id).trans hkeys.symm)

/-- Puts an object under an id unless there is one already.  The first component says whether it was
put in. -/
def insertAs (s : Store) (id : String) (object : StoredObject) (parent : Option Naming) :
    Bool × Store :=
  if h : s.contains id then (false, s) else (true, s.add id ⟨object, parent⟩ h)

/-- Puts an object under its own uuid unless there is one already. -/
def insert (s : Store) (object : StoredObject) (parent : Option Naming) : Bool × Store :=
  s.insertAs object.uuid object parent

/-- Puts a member of an aggregation in under its own uuid.  Data transfer objects and data objects
belong to no aggregation. -/
def insertMember (s : Store) (object : StoredObject) (parent : Option Naming) : Store :=
  match object with
  | .dto _ => (s.insert object none).2
  | .dataObject _ => (s.insert object none).2
  | _ => (s.insert object parent).2

/-- The base type that stands for a reference to an object of a store, if there is one. -/
def referenceStorage? (s : Store) : String → Option TypeExpr :=
  Lookup.referenceStorage? s.get?

/-! ## Loading trees -/

/-- The naming of the aggregation that a node stands under, if it stands under one. -/
def parentNaming (t : Tree) (n : Node) : Except Error (Option Naming) :=
  match t.parent? n with
  | some p =>
    if p.kind = .aggregation then (p.read Aggregation.ofJson?).map fun a => some a.toNaming
    else .ok none
  | none => .ok none

/-- The entry that a node makes; nodes of other kinds make none. -/
def nodeEntry (t : Tree) (n : Node) : Except Error (Option StoreEntry) :=
  if StoredObject.isKind n.kind then do
    let object ← n.read (StoredObject.ofJson? n.kind)
    let parent ← parentNaming t n
    .ok (some ⟨n.id, object, parent⟩)
  else .ok none

/-- Loads the nodes of a tree. -/
def addNodes (t : Tree) : List Node → Store → Except Error Store
  | [], s => .ok s
  | n :: rest, s => do
    match ← nodeEntry t n with
    | some e => addNodes t rest (s.insertAs e.id e.object e.parent).2
    | none => addNodes t rest s

/-- Loads trees into a store. -/
def addTrees : List Tree → Store → Except Error Store
  | [], s => .ok s
  | t :: rest, s => do
    let s ← addNodes t t.nodeList s
    addTrees rest s

/-- The store of the objects of trees. -/
def ofTrees (trees : List Tree) : Except Error Store :=
  addTrees trees .empty

end Store

end DomainDesign
