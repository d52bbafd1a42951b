import DomainDesign.Proofs.Walks
import Mathlib.Data.List.Perm.Basic

/-!
# Trees of a root and leaves

`Tree.plant` puts nodes under the root of a fresh tree, one after the other.

**Growing.**  `Planted t nodes` says what such a tree holds.  `Planted.grow` is the step: a node
with a new id can be put in, and changes nothing but the list of the children of the root.
`plant_ok` is the run.

**Walking.**  A walk visits the root and then the leaves, each once, in the order of their ids:
`Planted.visitOrder_eq`.
-/

namespace DomainDesign

/-- A new text is put in, and the others stay. -/
lemma perm_insertText {text : String} {texts : List String} (h : text ∉ texts) :
    (insertText text texts).Perm (text :: texts) := by
  induction texts with
  | nil => exact .refl _
  | cons t rest ih =>
      obtain ⟨hne, hrest⟩ := not_or.mp (mt List.mem_cons.mpr h)
      rw [insertText]
      by_cases hlt : text < t
      · rw [if_pos hlt]
      · rw [if_neg hlt, if_neg hne]
        exact ((ih hrest).cons t).trans (.swap text t rest)

namespace Tree

/-- A node under the root of a fresh tree. -/
def underRoot (n : Node) : Node :=
  { n with parentId := some defaultRootId }

@[simp] lemma id_underRoot (n : Node) : (underRoot n).id = n.id :=
  rfl

/-- The tree that an addition leaves, if the addition goes through. -/
def ifAdded (made : Except Error Unit × Tree) : Except Error Tree :=
  made.1.map fun _ => made.2

lemma ifAdded_eq_ok_iff {made : Except Error Unit × Tree} {t : Tree} :
    ifAdded made = .ok t ↔ made = (.ok (), t) := by
  obtain ⟨outcome, t'⟩ := made
  rw [ifAdded, map_ok_iff, Prod.mk.injEq]
  exact ⟨fun ⟨_, houtcome, ht⟩ => ⟨houtcome, ht⟩, fun ⟨houtcome, ht⟩ => ⟨(), houtcome, ht⟩⟩

/-- The tree that has the nodes under its root. -/
def plant (nodes : List Node) : Except Error Tree :=
  nodes.foldlM (fun t n => ifAdded (t.addRootChild n)) .empty

lemma get?_wire (t : Tree) (parentId : String) (n : Node) (id : String) :
    (t.wire parentId n).get? id
      = if id = n.id then some { n with parentId := some parentId }
        else if id = parentId then (t.get? id).map (·.withChild n.id) else t.get? id := by
  rw [get?, wire, Dict.lookup_insert, Dict.lookup_modify, ← get?]

/-- What a tree holds that has the nodes under its root. -/
structure Planted (t : Tree) (nodes : List Node) : Prop where
  rootId : t.rootId = defaultRootId
  root : ∃ r, t.get? defaultRootId = some r ∧ r.kind = .root
    ∧ r.properties = [(Node.kindKey, .str Kind.root.name)] ∧ r.childIds.Perm (nodes.map (·.id))
  leaf : ∀ n ∈ nodes, t.get? n.id = some (underRoot n)
  none_else : ∀ id, id ≠ defaultRootId → id ∉ nodes.map (·.id) → t.get? id = none

namespace Planted

variable {t : Tree} {nodes : List Node}

lemma start : Planted .empty [] := by
  refine ⟨rfl, ⟨_, rfl, rfl, rfl, .refl _⟩, by simp, fun id hid _ => ?_⟩
  rw [get?, empty, Dict.lookup_cons_ite, if_neg hid]
  rfl

/-- **A node with a new id can be put in.** -/
lemma grow {n : Node} (h : Planted t nodes) (hroots : ∀ m ∈ nodes, m.id ≠ defaultRootId)
    (hroot : n.id ≠ defaultRootId) (hnew : n.id ∉ nodes.map (·.id)) :
    ∃ t', t.addRootChild n = (.ok (), t') ∧ Planted t' (nodes ++ [n]) := by
  obtain ⟨r, hr, hkind, hproperties, hchildren⟩ := h.root
  have hfree : t.contains n.id = false := by rw [contains, h.none_else n.id hroot hnew]; rfl
  have hthere : t.contains t.rootId = true := by rw [contains, h.rootId, hr]; rfl
  refine ⟨t.wire t.rootId n, ?_, h.rootId, ⟨r.withChild n.id, ?_, hkind, hproperties, ?_⟩,
    fun m hm => ?_, fun id hid hother => ?_⟩
  · rw [addRootChild, addChild, hfree, hthere]
    rfl
  -- the root gets a child more and stays what it is
  · rw [get?_wire, if_neg (Ne.symm hroot), h.rootId, if_pos rfl, hr, Option.map_some]
  · have hnewChild : n.id ∉ r.childIds := fun hmem => hnew (hchildren.mem_iff.mp hmem)
    rw [List.map_append, List.map_singleton]
    exact (perm_insertText hnewChild).trans
      ((hchildren.cons _).trans (List.perm_append_singleton _ _).symm)
  -- the leaves that were there are left alone
  · rw [get?_wire, h.rootId]
    rcases List.mem_append.mp hm with hm | hm
    · have hne : m.id ≠ n.id := fun heq => hnew (heq ▸ List.mem_map_of_mem hm)
      rw [if_neg hne, if_neg (hroots m hm), h.leaf m hm]
    · obtain rfl := List.mem_singleton.mp hm
      rw [if_pos rfl]
      rfl
  · rw [List.map_append, List.mem_append, not_or] at hother
    have hne : id ≠ n.id := by simpa using hother.2
    rw [get?_wire, h.rootId, if_neg hne, if_neg hid]
    exact h.none_else id hid hother.1

lemma grow_all {before : List Node} (h : Planted t before) (nodes : List Node)
    (hroot : ∀ n ∈ before ++ nodes, n.id ≠ defaultRootId)
    (hnodup : ((before ++ nodes).map (·.id)).Nodup) :
    ∃ t', nodes.foldlM (fun t n => ifAdded (t.addRootChild n)) t = .ok t'
      ∧ Planted t' (before ++ nodes) := by
  induction nodes generalizing t before with
  | nil => exact ⟨t, rfl, by rwa [List.append_nil]⟩
  | cons n rest ih =>
      have hnew : n.id ∉ before.map (·.id) := key_notMem_before hnodup
      have hsplit : before ++ n :: rest = before ++ [n] ++ rest := by simp
      rw [hsplit] at hnodup hroot ⊢
      obtain ⟨t₁, hstep, hplanted⟩ :=
        h.grow (fun m hm => hroot m (by simp [hm])) (hroot n (by simp)) hnew
      obtain ⟨t', hrest, hall⟩ := ih hplanted hroot hnodup
      exact ⟨t', bind_ok_iff.mpr ⟨t₁, ifAdded_eq_ok_iff.mpr hstep, hrest⟩, hall⟩

end Planted

/-- **Nodes with different ids can be put under a root**, if none has the id of the root. -/
theorem plant_ok {nodes : List Node} (hroot : ∀ n ∈ nodes, n.id ≠ defaultRootId)
    (hnodup : (nodes.map (·.id)).Nodup) : ∃ t, plant nodes = .ok t ∧ Planted t nodes :=
  Planted.start.grow_all nodes hroot hnodup

/-! ## Walking -/

/-- There are no more nodes to visit than there are in the tree. -/
lemma length_visitOrder_le (t : Tree) : t.visitOrder.length ≤ t.size := by
  have hsubset : t.visitOrder.map (·.id) ⊆ t.nodes.map (·.1) := by
    intro id hid
    obtain ⟨n, hn, rfl⟩ := List.mem_map.mp hid
    exact List.mem_map_of_mem (mem_nodes_of_mem_visitOrder hn)
  have hlength := (List.subperm_of_subset t.nodup_ids_visitOrder hsubset).length_le
  rwa [List.length_map, List.length_map] at hlength

/-- A node that is found is visited, and then its children. -/
lemma visitFrom_cons {id : String} {rest : List String} {unvisited : Dict Node} {n : Node}
    (h : unvisited.lookup id = some n) :
    visitFrom (id :: rest) unvisited
      = n :: visitFrom (n.childIds ++ rest) (Dict.erase id unvisited) := by
  rw [visitFrom]
  split
  next hnone => rw [h] at hnone; cases hnone
  next m hm =>
    obtain rfl := Option.some.inj (h.symm.trans hm)
    rfl

/-- Leaves are visited one after the other. -/
lemma visitFrom_leaves {leaves : List Node} {unvisited : Dict Node}
    (hlook : ∀ n ∈ leaves, unvisited.lookup n.id = some n ∧ n.childIds = [])
    (hnodup : (leaves.map (·.id)).Nodup) : visitFrom (leaves.map (·.id)) unvisited = leaves := by
  induction leaves generalizing unvisited with
  | nil => rw [List.map_nil, visitFrom]
  | cons n rest ih =>
      obtain ⟨hn, hleaf⟩ := hlook n List.mem_cons_self
      rw [List.map_cons, List.nodup_cons] at hnodup
      -- a leaf puts nothing on the stack, and the rest has not been visited by it
      rw [List.map_cons, visitFrom_cons hn, hleaf, List.nil_append, ih (fun m hmem => ?_) hnodup.2]
      obtain ⟨hlookup, hchildren⟩ := hlook m (List.mem_cons_of_mem _ hmem)
      have hne : m.id ≠ n.id := fun heq => hnodup.1 (heq ▸ List.mem_map_of_mem hmem)
      rw [Dict.lookup_erase, if_neg hne]
      exact ⟨hlookup, hchildren⟩

/-- **A walk visits the root and then the leaves.** -/
theorem Planted.visitOrder_eq {t : Tree} {nodes : List Node} (h : Planted t nodes)
    (hroot : ∀ n ∈ nodes, n.id ≠ defaultRootId) (hnodup : (nodes.map (·.id)).Nodup)
    (hleaf : ∀ n ∈ nodes, n.childIds = []) :
    ∃ (r : Node) (order : List Node), t.visitOrder = r :: order.map underRoot ∧ order.Perm nodes
      ∧ r.kind = .root ∧ r.checkIdentity = .ok () := by
  obtain ⟨r, hr, hkind, hproperties, hchildren⟩ := h.root
  obtain ⟨order, hids, horder⟩ := exists_order_of_perm hchildren
  refine ⟨r, order, ?_, horder, hkind, ?_⟩
  · have hlook : ∀ m ∈ order.map underRoot,
        (Dict.erase defaultRootId t.nodes).lookup m.id = some m ∧ m.childIds = [] := by
      intro m hm
      obtain ⟨n, hn, rfl⟩ := List.mem_map.mp hm
      have hmem := horder.mem_iff.mp hn
      rw [Dict.lookup_erase, id_underRoot, if_neg (hroot n hmem)]
      exact ⟨h.leaf n hmem, hleaf n hmem⟩
    have hsame : (order.map underRoot).map (·.id) = r.childIds := by
      rw [hids, List.map_map]
      rfl
    have hdistinct : ((order.map underRoot).map (·.id)).Nodup := by
      rw [hsame]
      exact hchildren.nodup_iff.mpr hnodup
    -- the first step visits the root and puts its children on the stack
    rw [visitOrder, h.rootId, visitFrom_cons hr, List.append_nil, ← hsame,
      visitFrom_leaves hlook hdistinct]
  · simp [Node.checkIdentity, Node.declaredUuid?, Node.text?, hproperties, Node.kindKey,
      Dict.lookup_cons_ite]

end Tree

end DomainDesign
