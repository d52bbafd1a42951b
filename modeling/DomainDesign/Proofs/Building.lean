import DomainDesign.Proofs.Wiring
import Mathlib.Logic.Relation

/-!
# Trees that are built call by call

A tree starts as a root and gets one node after the other, by calls some of which fail.

**Calls.**  `Call.perform` is one call, and `Tree.after` what a list of calls leaves behind, be it
that they fail or go through.  `perform_cases` says all that a call can do.

**The invariant.**  `Rooted` adds to `Linked` that every node but the root is listed by the node
it points to, and that there is a depth that grows from a node to its children.  The depth rules out
cycles, and every node is reached from the root by induction on it.

**The result.**  `WellFormed` is what a rooted tree is for its users, in terms of what its nodes
say.
-/

namespace DomainDesign

namespace Tree

/-! ## Calls -/

/-- What a node is made from. -/
structure Draft where
  id : String
  kind : Kind
  properties : Json

def Draft.node (d : Draft) : Node :=
  .make d.id d.kind d.properties

/-- A call that adds a node, under a node or under the root. -/
inductive Call where
  | child (parentId : String) (draft : Draft)
  | rootChild (draft : Draft)

namespace Call

def draft : Call → Draft
  | .child _ d => d
  | .rootChild d => d

/-- The id that the new node is put under. -/
def parentId (t : Tree) : Call → String
  | .child p _ => p
  | .rootChild _ => t.rootId

/-- The outcome of a call, with the tree afterwards. -/
def perform (t : Tree) : Call → Except Error Unit × Tree
  | .child p d => t.addChild p d.node
  | .rootChild d => t.addRootChild d.node

end Call

/-- The tree that calls leave behind. -/
def after (t : Tree) (calls : List Call) : Tree :=
  calls.foldl (fun t call => (call.perform t).2) t

variable {t t' : Tree} {m n : Node} {a b parentId : String}

lemma perform_eq (t : Tree) (call : Call) :
    call.perform t = t.addChild (call.parentId t) call.draft.node := by
  cases call <;> rfl

/-- **What a call does**: it fails and changes nothing, or goes through and puts its node in. -/
lemma perform_cases (t : Tree) (call : Call) :
    (t.contains call.draft.id = true ∨ t.contains (call.parentId t) = false)
        ∧ (∃ e, call.perform t = (.error e, t))
      ∨ (t.contains call.draft.id = false ∧ t.contains (call.parentId t) = true)
        ∧ call.perform t = (.ok (), t.wire (call.parentId t) call.draft.node) := by
  have hid : call.draft.node.id = call.draft.id := rfl
  rw [perform_eq, addChild, hid]
  cases hnew : t.contains call.draft.id with
  | true => exact .inl ⟨.inl rfl, _, rfl⟩
  | false =>
      cases hparent : t.contains (call.parentId t) with
      | true => exact .inr ⟨⟨rfl, rfl⟩, rfl⟩
      | false => exact .inl ⟨.inr rfl, _, rfl⟩

lemma after_cons (t : Tree) (call : Call) (rest : List Call) :
    t.after (call :: rest) = (call.perform t).2.after rest :=
  rfl

lemma built_after (h : Built t) (calls : List Call) : Built (t.after calls) := by
  induction calls generalizing t with
  | nil => exact h
  | cons call rest ih =>
      rw [after_cons]
      rcases perform_cases t call with ⟨-, e, hcall⟩ | ⟨-, hcall⟩
      · rw [hcall]
        exact ih h
      · rw [hcall]
        exact ih (h.add rfl (perform_eq t call ▸ hcall))

lemma rootId_after (t : Tree) (calls : List Call) : (t.after calls).rootId = t.rootId := by
  induction calls generalizing t with
  | nil => rfl
  | cons call rest ih =>
      rw [after_cons, ih]
      rcases perform_cases t call with ⟨-, e, hcall⟩ | ⟨-, hcall⟩
      · rw [hcall]
      · rw [hcall]
        rfl

/-! ## The invariant -/

/-- The node with the first id lists the second as a child. -/
def Lists (t : Tree) (a b : String) : Prop :=
  ∃ n, t.get? a = some n ∧ b ∈ n.childIds

structure Rooted (t : Tree) : Prop extends Linked t where
  parent : ∀ n, t.get? n.id = some n → n.id ≠ t.rootId →
    ∃ p, n.parentId = some p ∧ t.Lists p n.id
  depth : ∃ depth : String → Nat, ∀ a b, t.Lists a b → depth a < depth b

lemma Linked.of_lists (h : Linked t) (hlists : t.Lists a b) :
    b ≠ t.rootId ∧ ∃ m, t.get? b = some m ∧ m.parentId = some a := by
  obtain ⟨n, hn, hb⟩ := hlists
  obtain rfl := id_of_get? hn
  exact h.child n b hn hb

/-- Adding a leaf adds one pair of a parent and a child. -/
lemma lists_wire (hparent : t.contains parentId = true) (hnew : t.contains n.id = false)
    (hleaf : n.childIds = []) :
    (t.wire parentId n).Lists a b ↔ t.Lists a b ∨ a = parentId ∧ b = n.id := by
  obtain ⟨p, hp⟩ := Option.isSome_iff_exists.mp hparent
  have hfree : t.get? n.id = none := by simpa [contains] using hnew
  have hne : parentId ≠ n.id := by
    rintro rfl
    simp [hfree] at hp
  simp only [Lists, get?_wire]
  by_cases ha : a = n.id
  · subst ha
    simp [hfree, hleaf, hne.symm]
  · by_cases hap : a = parentId
    · subst hap
      simp only [if_neg hne, if_true, hp, Option.map_some, Option.some.injEq, exists_eq_left',
        Node.withChild, mem_insertText, true_and]
      exact Or.comm
    · simp [ha, hap]

/-- Adding a node leaves all others where they point to. -/
lemma get?_of_get?_wire (h : (t.wire parentId n).get? a = some m) (ha : a ≠ n.id) :
    ∃ m₀, t.get? a = some m₀ ∧ m₀.parentId = m.parentId := by
  rw [get?_wire, if_neg ha] at h
  split at h
  · obtain ⟨m₀, hm₀, rfl⟩ := Option.map_eq_some_iff.mp h
    exact ⟨m₀, hm₀, rfl⟩
  · exact ⟨m, h, rfl⟩

lemma rooted_empty (rootId : String) : Rooted (.empty rootId) := by
  have hlinked := (Built.start rootId).linked
  have hget : ∀ {id m}, (empty rootId).get? id = some m → id = rootId ∧ m.childIds = [] := by
    intro id m hm
    rw [get?, empty, Dict.lookup_cons_ite] at hm
    split at hm
    · cases hm
      exact ⟨‹_›, rfl⟩
    · cases hm
  refine ⟨hlinked, fun n hn hne => absurd (hget hn).1 hne, fun _ => 0, ?_⟩
  rintro a b ⟨n, hn, hb⟩
  simp [(hget hn).2] at hb

lemma Rooted.wire (h : Rooted t) (hnew : t.contains n.id = false)
    (hparent : t.contains parentId = true) (hleaf : n.childIds = []) :
    Rooted (t.wire parentId n) := by
  have hfree : t.get? n.id = none := by simpa [contains] using hnew
  refine ⟨h.toLinked.wire hfree hparent hleaf, fun m hm hroot => ?_, ?_⟩
  · by_cases hid : m.id = n.id
    · refine ⟨parentId, ?_, (lists_wire hparent hnew hleaf).mpr (.inr ⟨rfl, hid⟩)⟩
      rw [get?_wire, if_pos hid] at hm
      cases hm
      rfl
    · obtain ⟨m₀, hm₀, hsame⟩ := get?_of_get?_wire hm hid
      have hid₀ := id_of_get? hm₀
      obtain ⟨p, hp, hlists⟩ := h.parent m₀ (hid₀ ▸ hm₀) (hid₀ ▸ hroot)
      rw [hid₀] at hlists
      exact ⟨p, hsame ▸ hp, (lists_wire hparent hnew hleaf).mpr (.inl hlists)⟩
  · obtain ⟨depth, hdepth⟩ := h.depth
    -- nothing in the tree lists the new id or is listed by it, so its depth can be chosen
    refine ⟨Function.update depth n.id (depth parentId + 1), fun a b hlists => ?_⟩
    have hthere : ∀ {id}, t.contains id = true → id ≠ n.id := by
      rintro id hid rfl
      simp [hnew] at hid
    rcases (lists_wire hparent hnew hleaf).mp hlists with hold | ⟨rfl, rfl⟩
    · obtain ⟨m, hm, -⟩ := (h.toLinked.of_lists hold).2
      have hless := hdepth a b hold
      obtain ⟨k, hk, -⟩ := hold
      have ha : a ≠ n.id := hthere (by simp [contains, hk])
      have hb : b ≠ n.id := hthere (by simp [contains, hm])
      simpa [ha, hb] using hless
    · simp [hthere hparent]

lemma Built.rooted (h : Built t) : Rooted t := by
  induction h with
  | start rootId => exact rooted_empty rootId
  | add _ leaf added ih =>
      obtain ⟨⟨hnew, hparent⟩, rfl⟩ := addChild_eq_ok.mp added
      exact ih.wire hnew hparent leaf

/-! ## What a rooted tree is -/

lemma Rooted.acyclic (h : Rooted t) (a : String) : ¬ Relation.TransGen t.Lists a a := by
  obtain ⟨depth, hdepth⟩ := h.depth
  have hgrows : ∀ {b}, Relation.TransGen t.Lists a b → depth a < depth b := by
    intro b hab
    induction hab with
    | single hlists => exact hdepth _ _ hlists
    | tail _ hlists ih => exact Nat.lt_trans ih (hdepth _ _ hlists)
  intro hcycle
  exact Nat.lt_irrefl _ (hgrows hcycle)

/-- Every node can be reached from the root. -/
lemma Rooted.reachable (h : Rooted t) (hn : t.get? n.id = some n) : t.Reachable n := by
  obtain ⟨depth, hdepth⟩ := h.depth
  induction hk : depth n.id using Nat.strongRecOn generalizing n with
  | _ k ih =>
      by_cases hroot : n.id = t.rootId
      · refine .root ?_
        rw [root?, ← hroot, hn]
      · obtain ⟨p, -, hlists⟩ := h.parent n hn hroot
        have hless := hdepth _ _ hlists
        obtain ⟨q, hq, hchild⟩ := hlists
        obtain rfl := id_of_get? hq
        exact (ih _ (hk ▸ hless) hq rfl).child (List.mem_filterMap.mpr ⟨n.id, hchild, hn⟩)

lemma nodup_nodeList (t : Tree) : t.nodeList.Nodup := by
  have hkeys : (t.nodes.map (·.1)).Nodup := Dict.nodup_keys t.sorted
  have hids : t.nodeList.map (·.id) = t.nodes.map (·.1) := by
    rw [nodeList, List.map_map]
    exact List.map_congr_left t.keyed
  exact (hids ▸ hkeys).of_map

/-- A walk through a rooted tree visits all of it. -/
lemma Rooted.perm_visitOrder (h : Rooted t) : t.visitOrder.Perm t.nodeList := by
  refine (List.perm_ext_iff_of_nodup t.nodup_ids_visitOrder.of_map t.nodup_nodeList).mpr fun n => ?_
  rw [mem_nodeList, t.preorder_visitOrder.mem_iff]
  refine ⟨fun hn => ?_, h.reachable⟩
  exact get?_of_mem_visitOrder n ((t.preorder_visitOrder.mem_iff n).mpr hn)

/-- A well-formed rooted tree. -/
structure WellFormed (t : Tree) : Prop where
  keyed : ∀ id n, t.get? id = some n → n.id = id
  root : ∃ r, t.root? = some r ∧ ∀ n ∈ t.nodeList, r.id ∉ n.childIds
  /-- Every other node points to a node that lists it, and no other node lists it. -/
  parent : ∀ n ∈ t.nodeList, n.id ≠ t.rootId →
    ∃ p ∈ t.nodeList, n.parentId = some p.id ∧ n.id ∈ p.childIds
      ∧ ∀ q ∈ t.nodeList, n.id ∈ q.childIds → q = p
  listed : ∀ n ∈ t.nodeList, ∀ id ∈ n.childIds, t.contains id = true
  acyclic : ∀ id, ¬ Relation.TransGen t.Lists id id
  preorder : t.Preorder t.visitOrder
  visited : t.visitOrder.Perm t.nodeList

lemma Rooted.wellFormed (h : Rooted t) : t.WellFormed := by
  have hchild : ∀ {q id}, q ∈ t.nodeList → id ∈ q.childIds →
      id ≠ t.rootId ∧ ∃ m, t.get? id = some m ∧ m.parentId = some q.id :=
    fun hq hid => h.child _ _ (mem_nodeList.mp hq) hid
  obtain ⟨r, hr⟩ := Option.isSome_iff_exists.mp h.root
  refine ⟨fun id n => id_of_get?, ⟨r, hr, fun n hn hid => ?_⟩, fun n hn hroot => ?_,
    fun n hn id hid => ?_, h.acyclic, t.preorder_visitOrder, h.perm_visitOrder⟩
  · exact (hchild hn hid).1 (id_of_get? hr)
  · obtain ⟨p, hp, q, hq, hid⟩ := h.parent n (mem_nodeList.mp hn) hroot
    obtain rfl := id_of_get? hq
    refine ⟨q, mem_nodeList.mpr hq, hp, hid, fun q' hq' hid' => ?_⟩
    -- whoever lists a node is who it points to
    obtain ⟨-, n', hn', hp'⟩ := hchild hq' hid'
    obtain rfl := Option.some.inj (hn'.symm.trans (mem_nodeList.mp hn))
    have hsame : q'.id = q.id := Option.some.inj (hp'.symm.trans hp)
    have hget := mem_nodeList.mp hq'
    rw [hsame, hq] at hget
    exact (Option.some.inj hget).symm
  · obtain ⟨-, m, hm, -⟩ := hchild hn hid
    exact Option.isSome_iff_exists.mpr ⟨m, hm⟩

/-- **Calls keep a rooted tree.**  After any calls on a fresh tree, a further call fails exactly if
its id is taken or its parent is not there, and then it changes nothing; if it goes through, the
new node is there under its parent and all else is as it was. -/
theorem calls_keep_tree (rootId : String) (calls : List Call) (call : Call) :
    let t := (Tree.empty rootId).after calls
    t.rootId = rootId ∧ t.WellFormed
      ∧ ((∃ e, (call.perform t).1 = .error e)
        ↔ t.contains call.draft.id = true ∨ t.contains (call.parentId t) = false)
      ∧ ((∃ e, (call.perform t).1 = .error e) → (call.perform t).2 = t)
      ∧ ((call.perform t).1 = .ok () → ∀ id, (call.perform t).2.get? id
        = if id = call.draft.id then
            some { call.draft.node with parentId := some (call.parentId t) }
          else if id = call.parentId t then (t.get? id).map (·.withChild call.draft.id)
          else t.get? id) := by
  intro t
  have hbuilt : Built t := built_after (.start rootId) calls
  refine ⟨rootId_after _ calls, hbuilt.rooted.wellFormed, ?_⟩
  rcases perform_cases t call with ⟨hrefused, e, hcall⟩ | ⟨⟨hnew, hparent⟩, hcall⟩
  · rw [hcall]
    exact ⟨⟨fun _ => hrefused, fun _ => ⟨e, rfl⟩⟩, fun _ => rfl, nofun⟩
  · rw [hcall]
    refine ⟨⟨nofun, ?_⟩, nofun, fun _ id => get?_wire t _ _ id⟩
    rw [hnew, hparent]
    exact nofun

end Tree

end DomainDesign
