import DomainDesign.Tree.Node

/-!
# Trees

A tree is a set of nodes under their ids, one of which is the root by its id.  A tree as it is
loaded may be any graph: children that are not there, shared children, cycles, no root.  A tree that
is built by `addChild` is a tree in the strict sense.
-/

namespace DomainDesign

/-- The id of the root of a tree unless something else is said. -/
def defaultRootId : String := "__ROOT__"

/-- A document tree. -/
structure Tree where
  rootId : String
  nodes : Dict Node
  /-- Every node stands under its own id. -/
  keyed : ∀ e ∈ nodes, e.2.id = e.1
  /-- The ids are in order, each once. -/
  sorted : nodes.Sorted
deriving DecidableEq

namespace Tree

/-- A tree with only a root. -/
def empty (rootId : String := defaultRootId) : Tree :=
  { rootId
    nodes := [(rootId, .make rootId .root .null)]
    keyed := by simp [Node.make]
    sorted := List.pairwise_singleton .. }

instance : Inhabited Tree := ⟨empty⟩

/-- The tree of the nodes, the last one with an id winning. -/
def ofNodes (rootId : String) (nodes : List Node) : Tree :=
  { rootId
    nodes := Dict.ofEntries (nodes.map fun n => (n.id, n))
    keyed := by
      intro e he
      obtain ⟨n, -, rfl⟩ := List.mem_map.mp (Dict.mem_of_mem_ofEntries he)
      rfl
    sorted := Dict.sorted_ofEntries _ }

/-- The node with an id. -/
def get? (t : Tree) (id : String) : Option Node :=
  t.nodes.lookup id

/-- Whether there is a node with an id. -/
def contains (t : Tree) (id : String) : Bool :=
  (t.get? id).isSome

/-- The root. -/
def root? (t : Tree) : Option Node :=
  t.get? t.rootId

/-- How many nodes there are. -/
def size (t : Tree) : Nat :=
  t.nodes.length

/-- The nodes in the order of their ids. -/
def nodeList (t : Tree) : List Node :=
  t.nodes.map (·.2)

/-- The children of a node that are in the tree. -/
def children (t : Tree) (n : Node) : List Node :=
  n.childIds.filterMap t.get?

/-- The parent of a node, unless that is the root or is not in the tree. -/
def parent? (t : Tree) (n : Node) : Option Node :=
  match n.parentId with
  | some id => if id = t.rootId then none else t.get? id
  | none => none

/-- The same nodes under another root. -/
def withRootId (t : Tree) (rootId : String) : Tree :=
  { t with rootId }

/-- The tree with a node under another one. -/
def wire (t : Tree) (parentId : String) (n : Node) : Tree :=
  { t with
    nodes := Dict.insert n.id { n with parentId := some parentId }
      (Dict.modify parentId (·.withChild n.id) t.nodes)
    keyed := by
      intro e he
      rcases Dict.mem_of_mem_insert he with rfl | he
      · rfl
      · obtain ⟨f, hf, rfl⟩ := List.mem_map.mp he
        have hid := t.keyed f hf
        split <;> exact hid
    sorted := Dict.sorted_insert _ _
      (Dict.sorted_of_keys_eq (Dict.keys_modify ..) t.sorted) }

/-- Adds a node under another one.  The second component is the tree afterwards, also when the node
cannot be added. -/
def addChild (t : Tree) (parentId : String) (n : Node) : Except Error Unit × Tree :=
  if t.contains n.id then (.error (.nodeExists n.id), t)
  else if t.contains parentId then (.ok (), t.wire parentId n)
  else (.error (.missingParent parentId), t)

/-- Adds a node under the root. -/
def addRootChild (t : Tree) (n : Node) : Except Error Unit × Tree :=
  t.addChild t.rootId n

end Tree

end DomainDesign
