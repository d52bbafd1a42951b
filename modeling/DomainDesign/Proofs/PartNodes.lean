import DomainDesign.Model.Behaviour
import DomainDesign.Model.Data
import DomainDesign.Model.Mapper
import DomainDesign.Proofs.Loading
import DomainDesign.Proofs.PlantedTrees
import DomainDesign.Proofs.Reading
import DomainDesign.Proofs.RecordCodec

/-!
# Trees of parts

A `Part` is what has to be known of a part of a document to make a node of it, and `Tree.ofParts`
puts such nodes under the root of a fresh tree.

**Nodes.**  The node of a part has the uuid of the part as its id and shows what writes the part, so
it has the identity that it declares, and a reference to it is written as the name of the part.

**Trees.**  `Tree.Bears` says what there is in such a tree, in terms of the parts alone.
`Bears.survey` says how it is read, and `Bears.nodeEntry` what it offers to a store.
-/

namespace DomainDesign

open Json

/-- A part of a document: the kind of its node, its uuid, and what writes it. -/
structure Part where
  kind : Kind
  uuid : String
  json : Json

namespace Part

def ofQuery (q : Model.Query) : Part :=
  ⟨.query, q.uuid, q.toJson⟩

def ofDto (d : Model.Dto) : Part :=
  ⟨.dto, d.uuid, d.toJson⟩

def ofDataObject (d : Model.DataObject) : Part :=
  ⟨.dataObject, d.uuid, d.toJson⟩

def ofMapper (m : Model.MapperObject) : Part :=
  ⟨.mapperObject, m.uuid, m.toJson⟩

/-- The node of a part: its id is the uuid, its properties are those that write the part. -/
def node (p : Part) : Except Error Node :=
  (toProperties p.json).map fun bag => .make p.uuid p.kind (.obj bag)

end Part

/-- The tree that has the nodes of the parts under its root. -/
def Tree.ofParts (parts : List Part) : Except Error Tree := do
  let nodes ← parts.mapM Part.node
  Tree.plant nodes

/-! ## Nodes -/

namespace Part

/-- The part is written as an object that has its uuid. -/
structure Declared (p : Part) : Prop where
  written : ∃ fields, p.json = .obj fields
  uuid : p.json.shown "uuid" = some (.str p.uuid)

lemma declared_ofQuery (q : Model.Query) : (ofQuery q).Declared :=
  ⟨⟨_, rfl⟩, by simp [ofQuery, Model.Query.toJson, Model.Naming.fields, sorted]⟩

lemma declared_ofDto (d : Model.Dto) : (ofDto d).Declared :=
  ⟨⟨_, rfl⟩, by simp [ofDto, Model.Dto.toJson, Model.ClassBody.fields, Model.Naming.fields, sorted]⟩

lemma declared_ofDataObject (d : Model.DataObject) : (ofDataObject d).Declared :=
  ⟨⟨_, rfl⟩, by simp [ofDataObject, Model.DataObject.toJson, Model.Naming.fields, sorted]⟩

lemma declared_ofMapper (m : Model.MapperObject) : (ofMapper m).Declared :=
  ⟨⟨_, rfl⟩, by simp [ofMapper, Model.MapperObject.toJson, Model.Naming.fields, sorted]⟩

/-- The node of a part, before it is put into a tree. -/
def bare (p : Part) : Node :=
  .make p.uuid p.kind p.json.sorted

/-- The node of a part, under the root of a tree. -/
def planted (p : Part) : Node :=
  Tree.underRoot p.bare

variable {p : Part}

lemma node_eq (h : p.Declared) : p.node = .ok p.bare := by
  obtain ⟨fields, hfields⟩ := h.written
  rw [node, bare, hfields]
  rfl

/-- The properties of the node show the part. -/
lemma shows_planted (h : p.Declared) : Shows p.planted.properties p.json := by
  obtain ⟨fields, hfields⟩ := h.written
  have hbag : p.planted.properties = Dict.insert Node.kindKey (.str p.kind.name)
      (Dict.ofEntries (sortedFields fields)) := by
    rw [planted, bare, hfields]
    rfl
  rw [hbag]
  refine shows_insert_kind ?_ _
  rw [hfields]
  rfl

lemma text?_planted {key text : String} (h : p.Declared) (hkey : key ≠ Node.kindKey)
    (hshown : p.json.shown key = some (.str text)) : p.planted.text? key = some text := by
  rw [Node.text?, shows_planted h key hkey, hshown]
  rfl

/-- The node has the identity that it declares. -/
lemma checkIdentity_planted (h : p.Declared) : p.planted.checkIdentity = .ok () := by
  have hid : p.planted.id = p.uuid := rfl
  rw [Node.checkIdentity, Node.declaredUuid?, text?_planted h (by decide) h.uuid, hid]
  by_cases hempty : p.uuid = "" <;> simp [hempty, Option.filter]

/-- A reference to the node is written as the name of the part. -/
lemma referenceName_planted {t : Tree} {name : String} (h : p.Declared)
    (hget : t.get? p.uuid = some p.planted) (hname : p.json.shown "name" = some (.str name))
    (hne : name ≠ "") (display : String) : Compile.referenceName t p.uuid display = name := by
  have hdeclared : p.planted.name? = some name := text?_planted h (by decide) hname
  simp [Compile.referenceName, hget, hdeclared, hne, Option.filter]

/-- A node whose part says a uuid is compiled with the naming of the part. -/
lemma nodeNaming_planted {n : Model.Naming} (hne : n.uuid ≠ "") :
    Compile.nodeNaming p.planted n = Compile.naming n := by
  simp [Compile.nodeNaming, hne, Compile.naming]

end Part

/-! ## Trees -/

namespace Tree

variable {β : Type}

/-- A tree has the parts of the items under its root, and nothing else. -/
structure Bears (t : Tree) (part : β → Part) (items : List β) : Prop where
  rootId : t.rootId = defaultRootId
  get? : ∀ x ∈ items, t.get? (part x).uuid = some (part x).planted
  cases : ∀ id n, t.get? id = some n →
    (id = defaultRootId ∧ n.kind = .root) ∨ ∃ x ∈ items, (part x).uuid = id ∧ n = (part x).planted
  order : ∃ r order, t.visitOrder = r :: List.map (fun x => (part x).planted) order
    ∧ order.Perm items ∧ r.kind = .root ∧ r.checkIdentity = .ok ()

/-- **Parts with different uuids can be put into a tree.** -/
theorem ofParts_ok {part : β → Part} {items : List β} (hdeclared : ∀ x ∈ items, (part x).Declared)
    (hroot : ∀ x ∈ items, (part x).uuid ≠ defaultRootId)
    (hnodup : (items.map fun x => (part x).uuid).Nodup) :
    ∃ t, ofParts (items.map part) = .ok t ∧ t.Bears part items := by
  have hnodes : (items.map part).mapM Part.node = .ok (items.map fun x => (part x).bare) := by
    have hbare : ∀ p ∈ items.map part, p.node = .ok p.bare := by
      intro p hp
      obtain ⟨x, hx, rfl⟩ := List.mem_map.mp hp
      exact Part.node_eq (hdeclared x hx)
    rw [mapM_ok hbare, List.map_map]
    rfl
  have hids : (items.map fun x => (part x).bare).map (·.id) = items.map fun x => (part x).uuid := by
    rw [List.map_map]
    rfl
  have hroots : ∀ n ∈ items.map fun x => (part x).bare, n.id ≠ defaultRootId := by
    intro n hn
    obtain ⟨x, hx, rfl⟩ := List.mem_map.mp hn
    exact hroot x hx
  obtain ⟨t, ht, hplanted⟩ := plant_ok hroots (hids ▸ hnodup)
  refine ⟨t, bind_ok_iff.mpr ⟨_, hnodes, ht⟩, hplanted.rootId, fun x hx => ?_, fun id n hn => ?_,
    ?_⟩
  · exact hplanted.leaf _ (List.mem_map_of_mem hx)
  -- there is nothing in the tree but its root and the planted nodes
  · by_cases hid : id = defaultRootId
    · obtain ⟨r, hr, hkind, -⟩ := hplanted.root
      rw [hid, hr] at hn
      obtain rfl := Option.some.inj hn
      exact .inl ⟨hid, hkind⟩
    · by_cases hmem : id ∈ (items.map fun x => (part x).bare).map (·.id)
      · rw [List.map_map] at hmem
        obtain ⟨x, hx, rfl⟩ := List.mem_map.mp hmem
        have hleaf := hplanted.leaf _ (List.mem_map_of_mem hx)
        exact .inr ⟨x, hx, rfl, Option.some.inj (hn.symm.trans hleaf)⟩
      · rw [hplanted.none_else id hid hmem] at hn
        cases hn
  -- the order of the ids is an order of the items, since every node is that of an item
  · obtain ⟨r, nodes, hvisit, hperm, hkind, hcheck⟩ :=
      hplanted.visitOrder_eq hroots (hids ▸ hnodup) (by simp [Part.bare, Node.make])
    obtain ⟨order, rfl, horder⟩ := exists_order_of_perm hperm
    exact ⟨r, order, by rw [hvisit, List.map_map]; rfl, horder, hkind, hcheck⟩

/-- A tree with only a root bears nothing. -/
lemma bears_empty (part : β → Part) : Tree.empty.Bears part [] := by
  obtain ⟨t, ht, hbears⟩ := @ofParts_ok β part [] (by simp) (by simp) (by simp)
  obtain rfl : Tree.empty = t := Except.ok.inj ht
  exact hbears

/-- A single part can be put into a tree. -/
lemma ofParts_singleton_ok {part : β → Part} {x : β} (hdeclared : (part x).Declared)
    (hroot : (part x).uuid ≠ defaultRootId) : ∃ t, ofParts [part x] = .ok t ∧ t.Bears part [x] :=
  ofParts_ok (List.forall_mem_singleton.mpr hdeclared) (List.forall_mem_singleton.mpr hroot)
    (List.nodup_singleton _)

namespace Bears

variable {t : Tree} {part : β → Part} {items : List β}

/-- **Reading a tree of parts** is reading the parts, in some order. -/
lemma survey (h : t.Bears part items) (hdeclared : ∀ x ∈ items, (part x).Declared) :
    ∃ order : List β, order.Perm items ∧
      ∀ {α : Type} (read : Node → Except Error α) (root : α) (f : β → α),
        (∀ r, r.kind = .root → read r = .ok root) →
        (∀ x ∈ items, read (part x).planted = .ok (f x)) →
        t.survey read = .ok (root :: order.map f) := by
  obtain ⟨r, order, hvisit, horder, hkind, hcheck⟩ := h.order
  refine ⟨order, horder, fun read root f hroot hread => ?_⟩
  rw [Tree.survey, hvisit, readAll_eq_ok_iff]
  refine .cons ⟨hcheck, hroot r hkind⟩ ?_
  rw [List.forall₂_map_left_iff, List.forall₂_map_right_iff, List.forall₂_same]
  intro x hx
  have hmem := horder.mem_iff.mp hx
  exact ⟨Part.checkIdentity_planted (hdeclared x hmem), hread x hmem⟩

lemma survey_singleton {α : Type} {x : β} {read : Node → Except Error α} {root y : α}
    (h : t.Bears part [x]) (hdeclared : (part x).Declared)
    (hroot : ∀ r, r.kind = .root → read r = .ok root)
    (hread : read (part x).planted = .ok y) : t.survey read = .ok [root, y] := by
  obtain ⟨order, horder, hsurvey⟩ := h.survey (List.forall_mem_singleton.mpr hdeclared)
  obtain rfl := List.perm_singleton.mp horder
  exact hsurvey read root (fun _ => y) hroot (List.forall_mem_singleton.mpr hread)

/-- The parts belong to no aggregation. -/
lemma parentNaming (h : t.Bears part items) (x : β) :
    Store.parentNaming t (part x).planted = .ok none := by
  have hparent : t.parent? (part x).planted = none := by
    change (if defaultRootId = t.rootId then none else t.get? defaultRootId) = none
    rw [h.rootId, if_pos rfl]
  rw [Store.parentNaming, hparent]

/-- What a part offers to a store: the object that its node is read as. -/
lemma nodeEntry {x : β} {object : StoredObject} (h : t.Bears part items)
    (hkind : StoredObject.isKind (part x).kind = true)
    (hread : StoredObject.ofJson? (part x).kind (.obj (part x).planted.properties) = some object) :
    Store.nodeEntry t (part x).planted = .ok (some ⟨(part x).uuid, object, none⟩) := by
  have hstored : StoredObject.isKind (part x).planted.kind = true := hkind
  rw [Store.nodeEntry, if_pos hstored]
  exact bind_ok_iff.mpr ⟨object, Node.read_eq_ok.mpr hread,
    bind_ok_iff.mpr ⟨none, h.parentNaming x, rfl⟩⟩

/-- A tree of parts offers what its parts offer. -/
lemma mem_loaded {e : StoreEntry} (h : t.Bears part items) :
    e ∈ Store.loaded t ↔ ∃ x ∈ items, Store.nodeEntry t (part x).planted = .ok (some e) := by
  rw [Store.mem_loaded]
  constructor
  · rintro ⟨n, hn, hmade⟩
    rcases h.cases e.id n hn with ⟨-, hkind⟩ | ⟨x, hx, -, rfl⟩
    · rw [Store.nodeEntry, hkind] at hmade
      cases hmade
    · exact ⟨x, hx, hmade⟩
  · rintro ⟨x, hx, hmade⟩
    refine ⟨(part x).planted, ?_, hmade⟩
    rw [(Store.of_nodeEntry hmade).1]
    exact h.get? x hx

/-- A tree of parts can be loaded if its parts can. -/
lemma nodeEntry_ok (h : t.Bears part items)
    (hitems : ∀ x ∈ items, ∃ e, Store.nodeEntry t (part x).planted = .ok e) :
    ∀ n ∈ t.nodeList, ∃ e, Store.nodeEntry t n = .ok e := by
  intro n hn
  rcases h.cases n.id n (mem_nodeList.mp hn) with ⟨-, hkind⟩ | ⟨x, hx, -, rfl⟩
  · exact ⟨none, by rw [Store.nodeEntry, hkind]; rfl⟩
  · exact hitems x hx

lemma one_lt_size {x : β} (h : t.Bears part [x]) : 1 < t.size := by
  obtain ⟨r, order, hvisit, horder, -⟩ := h.order
  have hle := t.length_visitOrder_le
  rw [hvisit, List.perm_singleton.mp horder] at hle
  exact hle

end Bears

end Tree

end DomainDesign
