import DomainDesign.SourceFile
import DomainDesign.Tree.Basic

/-!
# Snapshots of trees

A snapshot is a tree as it stands in JSON or YAML: a table of raw nodes under their ids.  A raw node
has an `id`, perhaps a `parent`, its `children` as a list or as the keys of a table, and its
`properties`.

`Tree.toJson` writes a tree and `Tree.ofJson` reads it back.  Reading is in two steps: first every
raw node must have the right shape, then the nodes are checked in the order of their keys.
-/

namespace DomainDesign

open Json

/-- A node as it stands in a snapshot. -/
structure RawNode where
  id : String
  parent : Option String := none
  children : Json := .null
  properties : Dict Json := []
deriving DecidableEq, Inhabited

namespace RawNode

/-- The field names of a raw node, in order. -/
def names : List String :=
  ["id", "parent", "children", "properties"]

/-- The raw node written by a value. -/
def ofJson? (j : Json) : Option RawNode := do
  let fields ← record? names j
  let id ← required fields "id" str?
  let parent ← optional fields "parent" str?
  let children ← orDefault fields "children" .null some
  let properties ← orDefault fields "properties" [] object?
  some ⟨id, parent, children, properties⟩

/-- The raw node written by an outline, in which `depth` lists and tables may stand inside one
another. -/
def ofOutline? (depth : Nat) (o : Outline) : Option RawNode := do
  let fields ← o.record? names
  let id ← (fields.lookup "id").bind Outline.text?
  let parent ← Outline.fieldOr fields "parent" Outline.optionalText? none
  let children ← Outline.fieldOr fields "children" (Outline.toJson? (depth - 1)) .null
  let properties ← Outline.fieldOr fields "properties" (Outline.object? (depth - 1)) []
  some ⟨id, parent, children, properties⟩

/-- The child ids that a list of items names. -/
def childTexts (id : String) : List Json → Except Error (List String)
  | [] => .ok []
  | .str child :: rest => do
    let others ← childTexts id rest
    .ok (child :: others)
  | item :: _ => .error (.nonTextChild id item.render)

/-- The child ids of a raw node. -/
def childIds (raw : RawNode) : Except Error (List String) :=
  match raw.children with
  | .null => .ok []
  | .obj fields => .ok (orderedTexts (fields.map (·.1)))
  | .arr items => (childTexts raw.id items).map orderedTexts
  | other => .error (.malformedChildren raw.id other.render)

/-- The kind that the properties of a raw node name. -/
def kind (raw : RawNode) : Kind :=
  match (raw.properties.lookup Node.kindKey).bind str? with
  | some name => Kind.ofName name
  | none => .other ""

theorem pairwise_childIds {raw : RawNode} {ids : List String} (h : raw.childIds = .ok ids) :
    ids.Pairwise (· < ·) := by
  simp only [childIds] at h
  split at h
  · cases h; exact List.Pairwise.nil
  · cases h; exact pairwise_orderedTexts _
  · cases hitems : childTexts raw.id ‹_› with
    | error e => rw [hitems] at h; cases h
    | ok texts => rw [hitems] at h; cases h; exact pairwise_orderedTexts _
  · cases h

/-- The node that a raw node stands for. -/
def toNode (raw : RawNode) : Except Error Node :=
  match h : raw.childIds with
  | .ok childIds =>
    .ok { id := raw.id, parentId := raw.parent, childIds, kind := raw.kind,
          properties := raw.properties, childOrder := pairwise_childIds h }
  | .error e => .error e

theorem id_of_toNode {raw : RawNode} {n : Node} (h : raw.toNode = .ok n) : n.id = raw.id := by
  simp only [toNode] at h
  split at h
  · cases h; rfl
  · cases h

/-- The raw node that stands for a node. -/
def ofNode (n : Node) : RawNode :=
  { id := n.id, parent := n.parentId, children := .obj (n.childIds.map fun id => (id, .ofNat 1)),
    properties := n.properties }

/-- The value that writes a raw node. -/
def toJson (raw : RawNode) : Json :=
  .obj (field "id" (.str raw.id) ++ fieldSome "parent" .str raw.parent
    ++ field "children" raw.children ++ field "properties" (.obj raw.properties))

end RawNode

namespace Tree

/-- The nodes of a snapshot, checked in the order of their keys. -/
def checkedNodes : Dict RawNode → Except Error (Dict Node)
  | [] => .ok []
  | (key, raw) :: rest =>
    if key = raw.id then do
      let node ← raw.toNode
      let nodes ← checkedNodes rest
      .ok ((key, node) :: nodes)
    else .error (.misplacedNode key raw.id)

theorem keyed_of_checkedNodes {raw : Dict RawNode} {nodes : Dict Node}
    (h : checkedNodes raw = .ok nodes) : nodes.keys = raw.keys ∧ ∀ e ∈ nodes, e.2.id = e.1 := by
  induction raw generalizing nodes with
  | nil => cases h; simp [Dict.keys]
  | cons e rest ih =>
      obtain ⟨key, raw⟩ := e
      simp only [checkedNodes] at h
      split at h
      case isFalse => cases h
      case isTrue hkey =>
        cases hnode : raw.toNode with
        | error e => rw [hnode] at h; cases h
        | ok node =>
            cases hrest : checkedNodes rest with
            | error e => rw [hnode, hrest] at h; cases h
            | ok others =>
                rw [hnode, hrest] at h
                cases h
                obtain ⟨hkeys, hids⟩ := ih hrest
                refine ⟨by simpa [Dict.keys] using hkeys, fun e he => ?_⟩
                rcases List.mem_cons.mp he with rfl | he
                · exact (RawNode.id_of_toNode hnode).trans hkey.symm
                · exact hids e he

/-- The tree of a snapshot with its keys in order. -/
def ofRaw (rootId : String) (raw : Dict RawNode) (hraw : raw.Sorted) : Except Error Tree :=
  match h : checkedNodes raw with
  | .ok nodes =>
    .ok { rootId, nodes
          keyed := (keyed_of_checkedNodes h).2
          sorted := Dict.sorted_of_keys_eq (keyed_of_checkedNodes h).1 hraw }
  | .error e => .error e

/-- The entries of a table of raw nodes. -/
def rawEntries? : List (String × Json) → Option (List (String × RawNode))
  | [] => some []
  | (key, j) :: rest => do
    let raw ← RawNode.ofJson? j
    let others ← rawEntries? rest
    some ((key, raw) :: others)

/-- The tree written by a value. -/
def ofJson (rootId : String) (j : Json) : Except Error Tree :=
  match (object? j).bind rawEntries? with
  | some raw => ofRaw rootId (Dict.ofEntries raw) (Dict.sorted_ofEntries raw)
  | none => .error .undecodable

/-- The entries of a table of raw nodes in an outline. -/
def outlineEntries? (depth : Nat) : List (Option String × Outline) →
    Option (List (String × RawNode))
  | [] => some []
  | (none, _) :: _ => none
  | (some key, o) :: rest => do
    let raw ← RawNode.ofOutline? depth o
    let others ← outlineEntries? depth rest
    some ((key, raw) :: others)

/-- The tree written by an outline of at most `depth` lists and tables inside one another. -/
def ofOutline (depth : Nat) (o : Outline) : Except Error Tree :=
  match o.table?.bind (outlineEntries? (depth - 1)) with
  | some raw => ofRaw defaultRootId (Dict.ofEntries raw) (Dict.sorted_ofEntries raw)
  | none => .error .undecodable

/-- The tree written by a text. -/
def ofText (format : Format) (text : String) : Except Error Tree :=
  match format.outline? text with
  | some o => ofOutline format.maxDepth o
  | none => .error .undecodable

/-- The tree in a file. -/
def ofFile (f : SourceFile) : Except Error Tree :=
  f.load ofText .snapshotExtension

/-- The value that writes a tree. -/
def toJson (t : Tree) : Json :=
  .obj (t.nodes.map fun e => (e.1, (RawNode.ofNode e.2).toJson))

/-- The JSON text that writes a tree, the properties of each node in key order. -/
def toText (t : Tree) : String :=
  (Json.obj (t.nodes.map fun e =>
    let raw := RawNode.ofNode e.2
    (e.1, { raw with properties := Dict.ofEntries (sortedFields raw.properties) }.toJson))).render

end Tree

end DomainDesign
