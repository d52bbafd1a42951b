import DomainDesign.Proofs.Outcomes
import DomainDesign.Proofs.Stores
import DomainDesign.Proofs.Walks

/-!
# What a store has loaded

The objects of trees are offered to a store one after the other, and the first one under an id
stays.

**Offers.**  `Store.loaded` are the entries that the nodes of a tree make, in the order of their
ids.  A tree has at most one node with an id, so an entry is known by its id: `Store.mem_loaded`.

**Looking up.**  A store of trees that can all be read has under every id the first entry that was
offered there: `Store.get?_ofTrees`.  The other way round, a store that has been loaded has read all
nodes, and has the objects of the first tree whatever the others are: `Store.get?_of_first`.
-/

namespace DomainDesign

lemma Tree.mem_nodeList {t : Tree} {n : Node} : n ∈ t.nodeList ↔ t.get? n.id = some n := by
  constructor
  · intro h
    obtain ⟨e, he, rfl⟩ := List.mem_map.mp h
    rw [get?, t.keyed e he]
    exact Dict.lookup_of_mem t.sorted he
  · intro h
    exact List.mem_map.mpr ⟨_, Dict.mem_of_lookup h, rfl⟩

namespace Store

/-- The entries that the nodes make. -/
def offers (t : Tree) (nodes : List Node) : List StoreEntry :=
  nodes.filterMap fun n => (nodeEntry t n).toOption.join

/-- The entries that the nodes of a tree make. -/
def loaded (t : Tree) : List StoreEntry :=
  offers t t.nodeList

lemma offers_cons_of_none {t : Tree} {n : Node} (h : nodeEntry t n = .ok none)
    (rest : List Node) : offers t (n :: rest) = offers t rest := by
  simp [offers, h, Except.toOption]

lemma offers_cons_of_some {t : Tree} {n : Node} {e : StoreEntry} (h : nodeEntry t n = .ok (some e))
    (rest : List Node) : offers t (n :: rest) = e :: offers t rest := by
  simp [offers, h, Except.toOption]

/-- **Loading nodes** puts in every entry whose id is still free. -/
lemma addNodes_ok {t : Tree} {nodes : List Node} (h : ∀ n ∈ nodes, ∃ e, nodeEntry t n = .ok e)
    (s : Store) :
    ∃ s', addNodes t nodes s = .ok s'
      ∧ ∀ k, s'.get? k = (s.get? k).or ((offers t nodes).find? fun e => e.id = k) := by
  induction nodes generalizing s with
  | nil => exact ⟨s, rfl, fun k => by simp [offers]⟩
  | cons n rest ih =>
      obtain ⟨e, he⟩ := h n List.mem_cons_self
      have hrest : ∀ m ∈ rest, ∃ e, nodeEntry t m = .ok e :=
        fun m hm => h m (List.mem_cons_of_mem _ hm)
      cases e with
      | none =>
          obtain ⟨s', hs', hget⟩ := ih hrest s
          refine ⟨s', ?_, fun k => ?_⟩
          · rw [addNodes, he]
            exact hs'
          · rw [hget k, offers_cons_of_none he]
      | some e =>
          obtain ⟨s', hs', hget⟩ := ih hrest (s.insertAs e.id e.object e.parent).2
          refine ⟨s', ?_, fun k => ?_⟩
          · rw [addNodes, he]
            exact hs'
          · rw [hget k, get?_insertAs, offers_cons_of_some he, List.find?_cons, Option.or_assoc]
            -- an entry hides the later ones under its id, as in a search from the front
            by_cases hk : e.id = k
            · subst hk
              simp
            · simp [hk, Ne.symm hk]

lemma addTrees_ok {trees : List Tree}
    (h : ∀ t ∈ trees, ∀ n ∈ t.nodeList, ∃ e, nodeEntry t n = .ok e)
    (s : Store) : ∃ s', addTrees trees s = .ok s'
      ∧ ∀ k, s'.get? k = (s.get? k).or ((trees.flatMap loaded).find? fun e => e.id = k) := by
  induction trees generalizing s with
  | nil => exact ⟨s, rfl, fun k => by simp⟩
  | cons t rest ih =>
      obtain ⟨s₁, hfirst, hget₁⟩ := addNodes_ok (h t List.mem_cons_self) s
      obtain ⟨s', hrest, hget⟩ := ih (fun u hu => h u (List.mem_cons_of_mem _ hu)) s₁
      refine ⟨s', bind_ok_iff.mpr ⟨s₁, hfirst, hrest⟩, fun k => ?_⟩
      rw [hget k, hget₁ k, List.flatMap_cons, List.find?_append, Option.or_assoc]
      rfl

/-- **The first entry under an id stays.** -/
theorem get?_ofTrees {trees : List Tree}
    (h : ∀ t ∈ trees, ∀ n ∈ t.nodeList, ∃ e, nodeEntry t n = .ok e) :
    ∃ s, ofTrees trees = .ok s
      ∧ ∀ k, s.get? k = (trees.flatMap loaded).find? fun e => e.id = k := by
  obtain ⟨s, hs, hget⟩ := addTrees_ok h .empty
  exact ⟨s, hs, hget⟩

/-- What an entry says of the node that makes it. -/
lemma of_nodeEntry {t : Tree} {n : Node} {e : StoreEntry} (h : nodeEntry t n = .ok (some e)) :
    e.id = n.id ∧ n.read (StoredObject.ofJson? n.kind) = .ok e.object
      ∧ parentNaming t n = .ok e.parent := by
  rw [nodeEntry] at h
  split at h
  · obtain ⟨object, hobject, h⟩ := bind_ok_iff.mp h
    obtain ⟨parent, hparent, h⟩ := bind_ok_iff.mp h
    cases h
    exact ⟨rfl, hobject, hparent⟩
  · cases h

lemma isSome_of_nodeEntry {t : Tree} {n : Node} {made : Option StoreEntry}
    (h : nodeEntry t n = .ok made) : made.isSome = StoredObject.isKind n.kind := by
  rw [nodeEntry] at h
  split at h
  case isTrue hkind =>
    obtain ⟨object, -, h⟩ := bind_ok_iff.mp h
    obtain ⟨parent, -, h⟩ := bind_ok_iff.mp h
    cases h
    exact hkind.symm
  case isFalse hkind =>
    cases h
    exact (Bool.eq_false_iff.mpr hkind).symm

/-- An entry that a tree offers is made by the node with its id. -/
lemma mem_loaded {t : Tree} {e : StoreEntry} :
    e ∈ loaded t ↔ ∃ n, t.get? e.id = some n ∧ nodeEntry t n = .ok (some e) := by
  have hmade : ∀ n, (nodeEntry t n).toOption.join = some e ↔ nodeEntry t n = .ok (some e) := by
    intro n
    cases nodeEntry t n with
    | error _ => simp [Except.toOption]
    | ok made => simp [Except.toOption]
  simp only [loaded, offers, List.mem_filterMap, hmade, Tree.mem_nodeList]
  constructor
  · rintro ⟨n, hn, he⟩
    exact ⟨n, by rwa [(of_nodeEntry he).1], he⟩
  · rintro ⟨n, hn, he⟩
    exact ⟨n, by rwa [← (of_nodeEntry he).1], he⟩

/-! ## Stores that have been loaded -/

lemma nodeEntry_of_addNodes {t : Tree} {nodes : List Node} {s s' : Store}
    (h : addNodes t nodes s = .ok s') : ∀ n ∈ nodes, ∃ e, nodeEntry t n = .ok e := by
  induction nodes generalizing s with
  | nil => simp
  | cons n rest ih =>
      obtain ⟨e, he, h⟩ := bind_ok_iff.mp h
      intro m hm
      rcases List.mem_cons.mp hm with rfl | hm
      · exact ⟨e, he⟩
      · cases e with
        | none => exact ih h m hm
        | some e => exact ih h m hm

/-- A store that has been loaded has read every node. -/
lemma nodeEntry_of_addTrees {trees : List Tree} {s s' : Store} (h : addTrees trees s = .ok s') :
    ∀ t ∈ trees, ∀ n ∈ t.nodeList, ∃ e, nodeEntry t n = .ok e := by
  induction trees generalizing s with
  | nil => simp
  | cons t rest ih =>
      obtain ⟨s₁, hfirst, hrest⟩ := bind_ok_iff.mp h
      intro u hu
      rcases List.mem_cons.mp hu with rfl | hu
      · exact nodeEntry_of_addNodes hfirst
      · exact ih hrest u hu

/-- What a tree offers under an id is made by the node there, if that can be stored. -/
lemma find?_loaded {t : Tree} (h : ∀ n ∈ t.nodeList, ∃ e, nodeEntry t n = .ok e) (id : String) :
    Option.Rel (fun e n => nodeEntry t n = .ok (some e)) ((loaded t).find? fun e => e.id = id)
      ((t.get? id).filter fun n => StoredObject.isKind n.kind) := by
  cases hfind : (loaded t).find? fun e => e.id = id with
  | some e =>
      obtain ⟨n, hn, hmade⟩ := mem_loaded.mp (List.mem_of_find?_eq_some hfind)
      have hid : e.id = id := of_decide_eq_true (List.find?_some hfind :)
      rw [← hid, hn, Option.filter_some_pos (by exact (isSome_of_nodeEntry hmade).symm)]
      exact .some hmade
  | none =>
      cases hn : t.get? id with
      | none => exact .none
      | some n =>
          -- a node that can be stored would have offered an entry
          obtain rfl := Tree.id_of_get? hn
          obtain ⟨made, hmade⟩ := h n (Tree.mem_nodeList.mpr hn)
          cases made with
          | none =>
              rw [Option.filter_some_neg (by simp [← isSome_of_nodeEntry hmade])]
              exact .none
          | some e =>
              have hid := (of_nodeEntry hmade).1
              have hmem : e ∈ loaded t := mem_loaded.mpr ⟨n, by rwa [hid], hmade⟩
              exact absurd (decide_eq_true hid) (List.find?_eq_none.mp hfind e hmem)

/-- **The objects of the first tree are in the store**, whatever the others are. -/
lemma get?_of_first {t : Tree} {others : List Tree} {s : Store} {n : Node}
    (h : ofTrees (t :: others) = .ok s) (hn : t.get? n.id = some n)
    (hkind : StoredObject.isKind n.kind) :
    ∃ e, nodeEntry t n = .ok (some e) ∧ s.get? n.id = some e := by
  have hread := nodeEntry_of_addTrees h
  obtain ⟨s', hs', hget⟩ := get?_ofTrees hread
  obtain rfl := Except.ok.inj (h.symm.trans hs')
  have hhere := find?_loaded (hread t List.mem_cons_self) n.id
  rw [hn, Option.filter_some_pos (by exact hkind)] at hhere
  rw [hget, List.flatMap_cons, List.find?_append]
  generalize (loaded t).find? _ = made at hhere ⊢
  cases hhere with
  | some hmade => exact ⟨_, hmade, rfl⟩

/-- The node that an id leads to: the first one in the trees that can be stored. -/
def storable? (trees : List Tree) (id : String) : Option Node :=
  trees.findSome? fun t => (t.get? id).filter fun n => StoredObject.isKind n.kind

/-- **What a store has under an id was made by the node that the id leads to.** -/
lemma rel_get?_storable? {trees : List Tree} {s : Store} (h : ofTrees trees = .ok s) (id : String) :
    Option.Rel (fun e n => ∃ t, nodeEntry t n = .ok (some e)) (s.get? id) (storable? trees id) := by
  have hread := nodeEntry_of_addTrees h
  obtain ⟨s', hs', hall⟩ := get?_ofTrees hread
  obtain rfl := Except.ok.inj (h.symm.trans hs')
  rw [hall]
  clear hs' hall h
  induction trees with
  | nil => exact .none
  | cons t rest ih =>
      have hhere := find?_loaded (hread t List.mem_cons_self) id
      rw [List.flatMap_cons, List.find?_append, storable?, List.findSome?_cons]
      generalize (loaded t).find? _ = made, (t.get? id).filter _ = found at hhere ⊢
      cases hhere with
      | some hmade => exact .some ⟨t, hmade⟩
      | none => exact ih fun u hu => hread u (List.mem_cons_of_mem _ hu)

lemma exists_node_of_get? {trees : List Tree} {s : Store} {id : String} {e : StoreEntry}
    (h : ofTrees trees = .ok s) (hget : s.get? id = some e) :
    ∃ t n, storable? trees id = some n ∧ nodeEntry t n = .ok (some e) := by
  have hrel := rel_get?_storable? h id
  rw [hget] at hrel
  generalize storable? trees id = found at hrel ⊢
  cases hrel with
  | some hmade =>
      obtain ⟨t, hmade⟩ := hmade
      exact ⟨t, _, rfl, hmade⟩

end Store

end DomainDesign
