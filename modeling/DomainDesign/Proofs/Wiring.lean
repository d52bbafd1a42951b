import DomainDesign.Proofs.Loading
import DomainDesign.Proofs.PlantedTrees

/-!
# Trees whose parents and children agree

A tree as it is loaded may list a node as the child of several others, while the node points to one
parent or to none.  `Wired t` says that this does not happen in `t`.

**Building.**  Adding nodes to a root keeps the stronger invariant `Linked`, so trees that are built
are wired: `Built.wired`.

**Walking.**  In a wired tree a node is led to by its parent only.  So the children of a visited
node are visited after it (`Wired.sublist_of_child`), none of them from anywhere else, and hence in
the order of their ids: `Wired.filter_after`.
-/

namespace DomainDesign

namespace Tree

variable {t : Tree} {a b m n : Node}

/-- Whatever a node lists as a child, if it is in the tree, is not the root and points back. -/
def Wired (t : Tree) : Prop :=
  ∀ n ∈ t.nodeList, ∀ m ∈ t.children n, m.id ≠ t.rootId ∧ m.parentId = some n.id

instance (t : Tree) : Decidable t.Wired :=
  inferInstanceAs (Decidable (∀ n ∈ t.nodeList, ∀ m ∈ t.children n, _))

/-! ## Building -/

/-- A tree that is built by adding nodes, each without children when it is added. -/
inductive Built : Tree → Prop
  | start (rootId : String) : Built (.empty rootId)
  | add {t t' : Tree} {parentId : String} {n : Node} (built : Built t) (leaf : n.childIds = [])
      (added : t.addChild parentId n = (.ok (), t')) : Built t'

/-- There is a root, and whatever a node lists as a child is in the tree, is not the root and points
back. -/
structure Linked (t : Tree) : Prop where
  root : t.contains t.rootId = true
  child : ∀ n id, t.get? n.id = some n → id ∈ n.childIds →
    id ≠ t.rootId ∧ ∃ m, t.get? id = some m ∧ m.parentId = some n.id

lemma Linked.wired (h : Linked t) : t.Wired := by
  intro n hn m hm
  obtain ⟨id, hid, hget⟩ := List.mem_filterMap.mp hm
  obtain ⟨hroot, m', hm', hparent⟩ := h.child n id (mem_nodeList.mp hn) hid
  rw [hget] at hm'
  cases hm'
  rw [id_of_get? hget]
  exact ⟨hroot, hparent⟩

/-- What is in a tree is still there under its id when a node is added, and points where it did. -/
lemma get?_wire_of_get? {id : String} (parentId : String) (h : t.get? id = some m)
    (hne : id ≠ n.id) :
    ∃ m', (t.wire parentId n).get? id = some m' ∧ m'.parentId = m.parentId := by
  rw [get?_wire, if_neg hne, h]
  by_cases hid : id = parentId
  · exact ⟨m.withChild n.id, if_pos hid, rfl⟩
  · exact ⟨m, if_neg hid, rfl⟩

lemma Linked.wire {parentId : String} (h : Linked t) (hnew : t.get? n.id = none)
    (hparent : t.contains parentId = true) (hleaf : n.childIds = []) :
    Linked (t.wire parentId n) := by
  have hne : ∀ {id k}, t.get? id = some k → id ≠ n.id := by
    rintro id k hk rfl
    rw [hnew] at hk
    cases hk
  obtain ⟨r, hr⟩ := Option.isSome_iff_exists.mp h.root
  obtain ⟨p, hp⟩ := Option.isSome_iff_exists.mp hparent
  -- what was listed before is listed still
  have hold : ∀ {q id}, t.get? q.id = some q → id ∈ q.childIds → id ≠ t.rootId
      ∧ ∃ m, (t.wire parentId n).get? id = some m ∧ m.parentId = some q.id := by
    intro q id hq hid
    obtain ⟨hroot, m, hm, hpoints⟩ := h.child q id hq hid
    obtain ⟨m', hm', hsame⟩ := get?_wire_of_get? parentId hm (hne hm)
    exact ⟨hroot, m', hm', hsame.trans hpoints⟩
  refine ⟨?_, fun q id hq hid => ?_⟩
  · obtain ⟨r', hr', -⟩ := get?_wire_of_get? parentId hr (hne hr)
    exact Option.isSome_iff_exists.mpr ⟨r', hr'⟩
  · rw [get?_wire] at hq
    split at hq
    · cases hq
      rw [hleaf] at hid
      simp at hid
    · split at hq
      next hqp =>
        rw [hqp, hp] at hq
        cases hq
        rcases mem_insertText.mp hid with rfl | hid
        · refine ⟨(hne hr).symm, { n with parentId := some parentId }, ?_, congrArg some hqp.symm⟩
          rw [get?_wire, if_pos rfl]
        · exact hold (q := p) (by rwa [id_of_get? hp]) hid
      next => exact hold hq hid

/-- When a call goes through. -/
lemma addChild_eq_ok {t' : Tree} {parentId : String} :
    t.addChild parentId n = (.ok (), t')
      ↔ (t.contains n.id = false ∧ t.contains parentId = true) ∧ t.wire parentId n = t' := by
  rw [addChild]
  by_cases hid : t.contains n.id = true <;> by_cases hparent : t.contains parentId = true <;>
    simp [hid, hparent]

lemma Built.linked (h : Built t) : Linked t := by
  induction h with
  | start rootId =>
      have hempty : (Tree.empty rootId).get? rootId = some (.make rootId .root .null) := by
        rw [get?, empty, Dict.lookup_cons_ite, if_pos rfl]
      refine ⟨Option.isSome_iff_exists.mpr ⟨_, hempty⟩, fun n id hn hid => ?_⟩
      rw [get?, empty, Dict.lookup_cons_ite] at hn
      split at hn
      · cases hn
        simp [Node.make] at hid
      · cases hn
  | @add t t' parentId n built leaf added ih =>
      obtain ⟨⟨hnew, hparent⟩, rfl⟩ := addChild_eq_ok.mp added
      exact ih.wire (by simpa [contains] using hnew) hparent leaf

lemma Built.wired (h : Built t) : t.Wired :=
  h.linked.wired

/-! ## Walking -/

variable {before after : List Node}

lemma nodup_children (t : Tree) (n : Node) : ((t.children n).map (·.id)).Nodup := by
  refine List.pairwise_map.mpr ((t.pairwise_children n).imp ?_)
  intro a b hlt heq
  exact String.lt_irrefl _ (heq ▸ hlt)

lemma Wired.of_visited (h : t.Wired) (ha : a ∈ t.visitOrder) (hb : b ∈ t.children a) :
    b.id ≠ t.rootId ∧ b.parentId = some a.id :=
  h a (mem_nodeList.mpr (get?_of_mem_visitOrder a ha)) b hb

/-- What leads to a node is what the node points to. -/
lemma Wired.eq_of_child {d : Node} (h : t.Wired) (ha : a ∈ t.visitOrder) (hd : d ∈ t.visitOrder)
    (hb : b ∈ t.children d) (hparent : b.parentId = some a.id) : d = a := by
  rw [(h.of_visited hd hb).2] at hparent
  exact eq_of_id_eq hd ha (Option.some.inj hparent)

/-- **A node is visited before its children**: nothing else leads to them. -/
lemma Wired.sublist_of_child (h : t.Wired) (ha : a ∈ t.visitOrder) (hb : b ∈ t.children a) :
    [a, b].Sublist t.visitOrder := by
  obtain ⟨hroot, hparent⟩ := h.of_visited ha hb
  rcases t.search_visitOrder.led_to (mem_visitOrder_of_child ha hb) with hb' | ⟨d, hd, hbefore⟩
  · exact absurd (id_of_get? (Option.mem_toList.mp hb')) hroot
  · have hd' : d ∈ t.visitOrder := hbefore.subset List.mem_cons_self
    rwa [← h.eq_of_child ha hd' hd hparent]

/-- The root is visited before all others. -/
lemma notMem_after_of_root (hvisit : t.visitOrder = before ++ a :: after)
    (hroot : t.root? = some b) : b ∉ after := by
  have hsearch := t.search_visitOrder
  rw [hroot, Option.toList_some] at hsearch
  obtain ⟨others, hothers⟩ := hsearch.eq_cons_of_new (by simp)
  have hnodup : (b :: others).Nodup := hothers ▸ t.nodup_ids_visitOrder.of_map
  intro hb
  refine (List.nodup_cons.mp hnodup).1 ?_
  rw [hothers] at hvisit
  cases before with
  | nil =>
      cases hvisit
      exact hb
  | cons d rest =>
      cases hvisit
      simp [hb]

/-- Whatever is visited after a node and points to it is a child of it. -/
lemma Wired.child_of_after (h : t.Wired) (hvisit : t.visitOrder = before ++ a :: after)
    (hb : b ∈ after) (hparent : b.parentId = some a.id) : b ∈ t.children a := by
  have ha : a ∈ t.visitOrder := by simp [hvisit]
  have hvisited : b ∈ t.visitOrder := by simp [hvisit, hb]
  rcases t.search_visitOrder.led_to hvisited with hroot | ⟨d, hd, hbefore⟩
  · exact absurd hb (notMem_after_of_root hvisit (Option.mem_toList.mp hroot))
  · have hd' : d ∈ t.visitOrder := hbefore.subset List.mem_cons_self
    rwa [← h.eq_of_child ha hd' hd hparent]

lemma Wired.mem_after_of_child (h : t.Wired) (hvisit : t.visitOrder = before ++ a :: after)
    (hb : b ∈ t.children a) : b ∈ after := by
  have hids := t.nodup_ids_visitOrder
  have hsublist := h.sublist_of_child (by simp [hvisit]) hb
  rw [hvisit] at hids hsublist
  exact mem_after_of_sublist hids hsublist

/-- What is in the tree and has the id of a child is the child. -/
lemma mem_children_of_id (hb : t.get? b.id = some b) (hid : b.id ∈ (t.children a).map (·.id)) :
    b ∈ t.children a := by
  obtain ⟨d, hd, heq⟩ := List.mem_map.mp hid
  have hd' := get?_of_mem_filterMap hd
  rw [heq, hb] at hd'
  rwa [Option.some.inj hd']

/-- Among what is visited after a node, its children are known by their parent and by their id. -/
lemma Wired.parentId_eq_iff (h : t.Wired) (hvisit : t.visitOrder = before ++ a :: after)
    (hb : b ∈ after) : b.parentId = some a.id ↔ b.id ∈ (t.children a).map (·.id) := by
  constructor
  · intro hparent
    exact List.mem_map_of_mem (h.child_of_after hvisit hb hparent)
  · intro hid
    have hget := get?_of_mem_visitOrder (t := t) b (by simp [hvisit, hb])
    exact (h.of_visited (by simp [hvisit]) (mem_children_of_id hget hid)).2

/-- **The nodes that are visited after a node and point to it are its children**, in the order of
their ids. -/
theorem Wired.filter_after (h : t.Wired) (ha : a ∈ t.visitOrder) :
    ∃ before after, t.visitOrder = before ++ a :: after
      ∧ after.filter (fun b => b.parentId = some a.id) = t.children a := by
  obtain ⟨before, inner, outer, hvisit, hinner⟩ := t.search_visitOrder.behind ha
  refine ⟨before, inner ++ outer, hvisit, ?_⟩
  have hids := t.nodup_ids_visitOrder
  rw [hvisit, List.append_cons, List.map_append, List.nodup_append] at hids
  obtain ⟨-, hafter, hdistinct⟩ := hids
  have hbefore : ∀ {b d}, b ∈ before ++ [a] → d ∈ inner ++ outer → b.id ≠ d.id :=
    fun hb hd => hdistinct _ (List.mem_map_of_mem hb) _ (List.mem_map_of_mem hd)
  let chosen (id : String) : Bool := id ∈ (t.children a).map (·.id)
  have hchosen : ∀ b ∈ inner ++ outer, decide (b.parentId = some a.id) = chosen b.id :=
    fun b hb => decide_eq_decide.mpr (h.parentId_eq_iff hvisit hb)
  have hall : (t.children a).filter (chosen ∘ (·.id)) = t.children a :=
    List.filter_eq_self.mpr fun b hb => decide_eq_true (List.mem_map_of_mem hb)
  -- no child was seen before, and nothing below `a` leads to one, so they are met in turn
  have hmet : inner.filter (chosen ∘ (·.id)) = t.children a := by
    refine (hinner.filter_met (t.nodup_children a) ?_ ?_).trans hall
    · intro b hb _ hseen
      obtain ⟨d, hd, heq⟩ := List.mem_map.mp hseen
      exact hbefore hd (h.mem_after_of_child hvisit hb) heq
    · intro b hb d hd hid
      have hchild := mem_children_of_id (get?_of_mem_filterMap hd) (of_decide_eq_true hid)
      have hb' : b ∈ t.visitOrder := by simp [hvisit, hb]
      obtain rfl := h.eq_of_child ha hb' hd (h.of_visited ha hchild).2
      exact hbefore (List.mem_append_right _ List.mem_cons_self) (List.mem_append_left _ hb) rfl
  -- all of them have been met then, so none is left for later
  have hnone : outer.filter (chosen ∘ (·.id)) = [] := by
    refine List.filter_eq_nil_iff.mpr fun b hb hid => ?_
    obtain ⟨d, hd, heq⟩ := List.mem_map.mp (of_decide_eq_true hid)
    rw [← hmet] at hd
    rw [List.map_append, List.nodup_append] at hafter
    exact hafter.2.2 _ (List.mem_map_of_mem (List.mem_filter.mp hd).1) _
      (List.mem_map_of_mem hb) heq
  calc (inner ++ outer).filter (fun b => b.parentId = some a.id)
      = (inner ++ outer).filter (chosen ∘ (·.id)) := List.filter_congr hchosen
    _ = t.children a := by rw [List.filter_append, hmet, hnone, List.append_nil]

end Tree

end DomainDesign
