import DomainDesign.Compile.Aggregates
import DomainDesign.Compile.Mappers
import DomainDesign.Compile.Queries
import DomainDesign.Compile.Tables
import DomainDesign.Proofs.Dictionaries
import DomainDesign.Proofs.Wiring
import DomainDesign.Relations
import Mathlib.Data.List.Induction

/-!
# The order in which nodes are added does not matter

A tree can be built in many orders, as long as a node is there before anything is put under it.
`insertion_order_irrelevant` says that they all give the same tree.

**What a tree is made of.**  `MadeOf t rootId placements` says what the tree holds in terms of which
placements there are, not of when they were made: every node stands where it was put and lists what
was put under it.  `MadeOf.place` is the step and `madeOf_addAll` the run.

**Nothing else is left open.**  Child ids and nodes are kept in order, so a tree is determined by
what it holds: `MadeOf.unique`.
-/

namespace DomainDesign

namespace Tree

/-! ## Placements -/

/-- A node, and the id of the node that it is put under. -/
structure Placement where
  parentId : String
  node : Node

/-- The tree with nodes added one after the other; each addition has to go through. -/
def addAll (t : Tree) (placements : List Placement) : Except Error Tree :=
  placements.foldlM (fun t p => ifAdded (t.addChild p.parentId p.node)) t

/-- What becomes of a node: it points to its parent, and lists what is put under it besides what it
listed before. -/
structure Settled (placements : List Placement) (parentId : Option String) (m n : Node) :
    Prop where
  id : n.id = m.id
  parentId : n.parentId = parentId
  kind : n.kind = m.kind
  properties : n.properties = m.properties
  childIds : ∀ id, id ∈ n.childIds
    ↔ id ∈ m.childIds ∨ ∃ p ∈ placements, p.parentId = m.id ∧ p.node.id = id

/-- The nodes that a tree starts from or is given, with the ids of their parents. -/
def origins (rootId : String) (placements : List Placement) : List (Option String × Node) :=
  (none, .make rootId .root .null) :: placements.map fun p => (some p.parentId, p.node)

/-- What a tree holds when the placements have been made, in whatever order. -/
structure MadeOf (t : Tree) (rootId : String) (placements : List Placement) : Prop where
  rooted : t.rootId = rootId
  settled : ∀ e ∈ origins rootId placements,
    ∃ n, t.get? e.2.id = some n ∧ Settled placements e.1 e.2 n
  parents : ∀ p ∈ placements, t.contains p.parentId = true
  none_else : ∀ id, id ∉ (origins rootId placements).map (·.2.id) → t.get? id = none

variable {t t' : Tree} {rootId : String} {placements others : List Placement} {p : Placement}

/-! ## The step -/

lemma origins_concat : origins rootId (placements ++ [p])
    = origins rootId placements ++ [(some p.parentId, p.node)] := by
  simp [origins]

/-- A placement more: whoever it is under lists a child more. -/
lemma Settled.place {parentId : Option String} {m n : Node}
    (h : Settled placements parentId m n) (p : Placement) :
    Settled (placements ++ [p]) parentId m
      (if m.id = p.parentId then n.withChild p.node.id else n) := by
  by_cases hm : m.id = p.parentId
  · rw [if_pos hm]
    refine ⟨h.id, h.parentId, h.kind, h.properties, fun id => ?_⟩
    rw [Node.withChild, mem_insertText, h.childIds]
    simp only [List.mem_append, List.mem_singleton, or_and_right, exists_or, exists_eq_left, hm,
      true_and, eq_comm (a := id)]
    rw [or_comm, or_assoc]
  · rw [if_neg hm]
    refine ⟨h.id, h.parentId, h.kind, h.properties, fun id => ?_⟩
    rw [h.childIds]
    simp [or_and_right, exists_or, Ne.symm hm]

/-- A node that nothing has been put under stays as it is, apart from where it points. -/
lemma settled_new {placements : List Placement} (m : Node) (parentId : String)
    (hfree : ∀ p ∈ placements, p.parentId ≠ m.id) :
    Settled placements (some parentId) m { m with parentId := some parentId } := by
  refine ⟨rfl, rfl, rfl, rfl, fun id => ⟨Or.inl, ?_⟩⟩
  rintro (hid | ⟨p, hp, hparent, -⟩)
  · exact hid
  · exact absurd hparent (hfree p hp)

lemma madeOf_empty (rootId : String) : MadeOf (.empty rootId) rootId [] := by
  refine ⟨rfl, ?_, by simp, fun id hid => ?_⟩
  · simp only [origins, List.map_nil, List.forall_mem_singleton]
    refine ⟨.make rootId .root .null, ?_, ⟨rfl, rfl, rfl, rfl, by simp⟩⟩
    rw [get?, empty, Dict.lookup_cons_ite]
    exact if_pos rfl
  · have hne : id ≠ rootId := by simpa [origins, Node.make] using hid
    rw [get?, empty, Dict.lookup_cons_ite, if_neg hne]
    rfl

/-- **One addition** makes the tree what the placements say with one more of them. -/
lemma MadeOf.place (h : MadeOf t rootId placements)
    (hadd : t.addChild p.parentId p.node = (.ok (), t')) :
    MadeOf t' rootId (placements ++ [p]) := by
  obtain ⟨⟨hnew, hparent⟩, rfl⟩ := addChild_eq_ok.mp hadd
  have hthere : ∀ {id}, t.contains id = true → id ≠ p.node.id := by
    rintro id hid rfl
    rw [hnew] at hid
    cases hid
  have hparents : ∀ q ∈ placements ++ [p], t.contains q.parentId = true := by
    intro q hq
    rcases List.mem_append.mp hq with hq | hq
    · exact h.parents q hq
    · rwa [List.mem_singleton.mp hq]
  refine ⟨h.rooted, fun e he => ?_, fun q hq => ?_, fun id hid => ?_⟩
  · rw [origins_concat, List.mem_append, List.mem_singleton] at he
    rcases he with he | rfl
    · obtain ⟨n, hn, hsettled⟩ := h.settled e he
      have hne : e.2.id ≠ p.node.id := hthere (Option.isSome_iff_exists.mpr ⟨n, hn⟩)
      refine ⟨_, ?_, hsettled.place p⟩
      rw [get?_wire, if_neg hne, hn]
      split <;> rfl
    -- nothing that was put anywhere before is under the new node: it was not there
    · refine ⟨_, ?_, settled_new p.node p.parentId fun q hq => hthere (hparents q hq)⟩
      rw [get?_wire, if_pos rfl]
  · obtain ⟨n, hn⟩ := Option.isSome_iff_exists.mp (hparents q hq)
    obtain ⟨n', hn', -⟩ := get?_wire_of_get? p.parentId hn (hthere (hparents q hq))
    exact Option.isSome_iff_exists.mpr ⟨n', hn'⟩
  · rw [origins_concat, List.map_append, List.mem_append, not_or] at hid
    have hne : id ≠ p.node.id := by simpa using hid.2
    rw [get?_wire, if_neg hne, h.none_else id hid.1]
    simp

/-- **A run of additions**, by induction on it from the end. -/
lemma madeOf_addAll (h : addAll (.empty rootId) placements = .ok t) :
    MadeOf t rootId placements := by
  induction placements using List.reverseRecOn generalizing t with
  | nil =>
      cases h
      exact madeOf_empty rootId
  | append_singleton before p ih =>
      rw [addAll, List.foldlM_append] at h
      obtain ⟨t₁, hbefore, hlast⟩ := bind_ok_iff.mp h
      obtain ⟨t₂, hadd, hdone⟩ := bind_ok_iff.mp hlast
      cases hdone
      exact (ih hbefore).place (ifAdded_eq_ok_iff.mp hadd)

/-! ## What is left open -/

lemma Settled.unique {parentId : Option String} {m n n' : Node}
    (h : Settled placements parentId m n) (h' : Settled placements parentId m n') : n = n' := by
  have hchildren : n.childIds = n'.childIds :=
    List.Pairwise.eq_of_mem_iff n.childOrder n'.childOrder fun id => by
      rw [h.childIds, h'.childIds]
  obtain ⟨hid, hparent, hkind, hproperties, -⟩ := h
  obtain ⟨hid', hparent', hkind', hproperties', -⟩ := h'
  cases n
  cases n'
  simp_all

/-- **Placements leave no choice**: two trees that are made of the same ones are the same. -/
lemma MadeOf.unique (h : MadeOf t rootId placements) (h' : MadeOf t' rootId placements) :
    t = t' := by
  have hget : ∀ id, t.get? id = t'.get? id := by
    intro id
    by_cases hid : id ∈ (origins rootId placements).map (·.2.id)
    · obtain ⟨e, he, rfl⟩ := List.mem_map.mp hid
      obtain ⟨n, hn, hsettled⟩ := h.settled e he
      obtain ⟨n', hn', hsettled'⟩ := h'.settled e he
      rw [hn, hn', hsettled.unique hsettled']
    · rw [h.none_else id hid, h'.none_else id hid]
  have hnodes : t.nodes = t'.nodes := Dict.eq_of_lookup_eq t.sorted t'.sorted hget
  have hroot : t.rootId = t'.rootId := h.rooted.trans h'.rooted.symm
  cases t
  cases t'
  simp_all

/-- Only which placements there are matters. -/
lemma MadeOf.of_perm (h : MadeOf t rootId placements) (hperm : placements.Perm others) :
    MadeOf t rootId others := by
  have horigins : (origins rootId placements).Perm (origins rootId others) :=
    (hperm.map _).cons _
  refine ⟨h.rooted, fun e he => ?_, fun p hp => h.parents p (hperm.mem_iff.mpr hp),
    fun id hid => h.none_else id fun hmem => hid ((horigins.map _).mem_iff.mp hmem)⟩
  obtain ⟨n, hn, hsettled⟩ := h.settled e (horigins.mem_iff.mpr he)
  refine ⟨n, hn, { hsettled with childIds := fun id => ?_ }⟩
  simp only [hsettled.childIds, hperm.mem_iff]

/-- **The order of additions does not show.**  Two runs on fresh trees that go through and make the
same placements give the same tree, so nothing that is read off a tree tells them apart: the order
of the walk, the four models, the relations of whatever documents have the tree among theirs. -/
theorem insertion_order_irrelevant (hperm : placements.Perm others)
    (h : addAll (.empty rootId) placements = .ok t) (h' : addAll (.empty rootId) others = .ok t') :
    t = t' ∧ t.visitOrder = t'.visitOrder
      ∧ (∀ c, Compile.domainModel t c = Compile.domainModel t' c
        ∧ Compile.queryModel t c = Compile.queryModel t' c
        ∧ Compile.dataModel t c = Compile.dataModel t' c
        ∧ ∀ store, Compile.objectMapper store t c = Compile.objectMapper store t' c)
      ∧ ∀ before after,
        View.ofTrees (before ++ t :: after) = View.ofTrees (before ++ t' :: after) := by
  obtain rfl : t = t' := ((madeOf_addAll h).of_perm hperm).unique (madeOf_addAll h')
  exact ⟨rfl, rfl, fun c => ⟨rfl, rfl, rfl, fun store => rfl⟩, fun before after => rfl⟩

/-- Nodes named by their ids, each with the id of its parent and its kind. -/
def named (nodes : List (String × String × Kind)) : List Placement :=
  nodes.map fun e => ⟨e.1, .make e.2.1 e.2.2 (.obj [("name", .str e.2.1)])⟩

/-- An aggregation is filled, and then another one is added. -/
def salesFirst : List Placement :=
  named [("__ROOT__", "sales", .aggregation), ("sales", "order", .entity),
    ("sales", "place", .command), ("place", "limit", .rule), ("__ROOT__", "audit", .aggregation)]

/-- The same nodes, the aggregations first. -/
def auditFirst : List Placement :=
  named [("__ROOT__", "audit", .aggregation), ("__ROOT__", "sales", .aggregation),
    ("sales", "place", .command), ("place", "limit", .rule), ("sales", "order", .entity)]

theorem insertion_order_irrelevant_sales :
    ∃ t t', addAll (.empty "__ROOT__") salesFirst = .ok t
      ∧ addAll (.empty "__ROOT__") auditFirst = .ok t'
      ∧ t.visitOrder.map (·.id) = ["__ROOT__", "audit", "sales", "order", "place", "limit"]
      ∧ t = t' ∧ Compile.domainModel t {} = Compile.domainModel t' {} := by
  have hperm : salesFirst.Perm auditFirst := List.Perm.map _ (by decide)
  have hsales : (addAll (.empty "__ROOT__") salesFirst).map (fun t => t.visitOrder.map (·.id))
      = .ok ["__ROOT__", "audit", "sales", "order", "place", "limit"] := by decide +kernel
  have haudit : (addAll (.empty "__ROOT__") auditFirst).map (fun _ => ()) = .ok () := by
    decide +kernel
  obtain ⟨t, ht, hvisit⟩ := map_ok_iff.mp hsales
  obtain ⟨t', ht', -⟩ := map_ok_iff.mp haudit
  have hsame := insertion_order_irrelevant hperm ht ht'
  exact ⟨t, t', ht, ht', hvisit, hsame.1, (hsame.2.2.1 {}).1⟩

end Tree

end DomainDesign
