import DomainDesign.Document
import DomainDesign.Proofs.Columns
import DomainDesign.Proofs.Loading

/-!
# What mappers name and what is compiled

A mapper names objects and fields as they stand in the trees.  The data model has what the data
compiler has made of one of them.  So a mapper may name a data object that is not in the data model,
and a field that is not one of its columns: `mappers_dangle` has a document for each way in which
that comes about.

What holds is `mapper_sides`.  The data object that a side names is the first node in the trees that
can be stored under the id, and the fields are declared there.  If the data tree can reach that
node, the data model has it under the name that the mapper uses, and a field is a column exactly if
one of the declarations of that name is kept.
-/

namespace DomainDesign

open Compiled Compile

/-! ## Mappers that name only what is there -/

/-- What a mapper names on one side is in a data model, if it names a data object. -/
def SideIntact (data : DataModel) (side : ObjectRef) (fields : List String) : Prop :=
  side.kind = .dataObject → (∃ o ∈ data.dataObjects, o.name = side.name)
    ∧ ∀ f ∈ fields, ∃ o ∈ data.dataObjects, o.name = side.name ∧ ∃ q ∈ o.properties, q.name = f

instance (data : DataModel) (side : ObjectRef) (fields : List String) :
    Decidable (SideIntact data side fields) :=
  inferInstanceAs (Decidable (_ → _))

/-- Whatever the mappers of a document name on a side is there. -/
def MappersIntact (b : BusinessDomain) : Prop :=
  ∀ om ∈ b.objectMapper, ∀ m ∈ om.mappers,
    SideIntact b.dataModel m.source (m.pairs.map (·.sourceField))
      ∧ SideIntact b.dataModel m.target (m.pairs.map (·.targetField))

instance (b : BusinessDomain) : Decidable (MappersIntact b) :=
  inferInstanceAs (Decidable (∀ om ∈ b.objectMapper, ∀ m ∈ om.mappers, _))

/-- A tree of nodes, with those under its root that are named. -/
def treeOf (nodes : List Node) (reached : List String) : Tree :=
  .ofNodes "__ROOT__" (reached.foldl Node.withChild (Node.make "__ROOT__" .root .null) :: nodes)

/-- An order, with a column that refers to a user. -/
def orderNode : Node :=
  Node.make "order" .dataObject (Model.DataObject.toJson
    { uuid := "order", name := "Order"
      properties :=
        [{ uuid := "o1", name := "number", type := .long none none },
          { uuid := "o2", name := "buyer", type := .toColumn "user" "u1" none }] })

/-- A document with a mapper from the number of an order to its buyer. -/
def copyDocument (query dataObject : Tree) : Document :=
  let copy : Model.MapperObject :=
    { uuid := "copy", name := "Copy", source := some (.of .data "order" "Order")
      target := some (.of .data "order" "Order"), mappers := [.of "p1" "o1" "o2"] }
  { domain := .empty, query, dataObject
    mapper := treeOf [Node.make "copy" .mapperObject copy.toJson] ["copy"] }

/-- **Mappers may name what is not there.**  The data model has no buyer if there are no users; it
has no order if the order cannot be reached, or stands among the queries. -/
theorem mappers_dangle :
    (∃ b, (copyDocument .empty (treeOf [orderNode] ["order"])).compile {} = .ok b
        ∧ ¬ MappersIntact b)
      ∧ (∃ b, (copyDocument .empty (treeOf [orderNode] [])).compile {} = .ok b ∧ ¬ MappersIntact b)
      ∧ ∃ b, (copyDocument (treeOf [orderNode] ["order"]) .empty).compile {} = .ok b
        ∧ ¬ MappersIntact b := by
  have hdangles : ∀ d : Document,
      (d.compile {}).map (fun b => decide (MappersIntact b)) = .ok false →
      ∃ b, d.compile {} = .ok b ∧ ¬ MappersIntact b := by
    intro d hd
    obtain ⟨b, hb, hnot⟩ := map_ok_iff.mp hd
    exact ⟨b, hb, of_decide_eq_false hnot⟩
  exact ⟨hdangles _ (by decide +kernel), hdangles _ (by decide +kernel),
    hdangles _ (by decide +kernel)⟩

/-! ## What a mapper is made of -/

/-- The trees that mappers find their objects in, in the order in which they are searched. -/
def Document.objectTrees (d : Document) : List Tree :=
  [d.domain, d.query, d.dataObject]

/-- A side of a mapper that names a data object.  `r` is what the side refers to, and `fields` are
the fields that the mapper names on it. -/
def DataSide (d : Document) (data : DataModel) (r : Option Model.ObjectReference) (side : ObjectRef)
    (fields : List String) : Prop :=
  ∃ ref n o, r = some ref ∧ Store.storable? d.objectTrees ref.referenceId = some n
    ∧ n.kind = .dataObject ∧ Model.DataObject.ofJson? (.obj n.properties) = some o
    ∧ side.name = o.name
    ∧ (∀ f ∈ fields, ∃ p ∈ o.properties, p.name = f)
    ∧ (d.dataObject.Reachable n → ∃ compiled ∈ data.dataObjects,
        compiled.uuid = n.id ∧ compiled.name = side.name
          ∧ ∀ f ∈ fields, (∃ q ∈ compiled.properties, q.name = f)
            ↔ ∃ p ∈ o.properties, p.name = f ∧ isKept d.dataObject p)

/-- A mapper is that of a node, and what it names of data objects is known. -/
structure MapperOf (d : Document) (data : DataModel) (n : Node) (m : MapperObject) : Prop where
  reachable : d.mapper.Reachable n
  kind : n.kind = .mapperObject
  uuid : m.uuid = n.id
  sides : ∃ written, Model.MapperObject.ofJson? (.obj n.properties) = some written
    ∧ (m.source.kind = .dataObject →
        DataSide d data written.source m.source (m.pairs.map (·.sourceField)))
    ∧ (m.target.kind = .dataObject →
        DataSide d data written.target m.target (m.pairs.map (·.targetField)))

variable {d : Document} {c : Config} {find : Lookup} {store : Store} {n : Node} {m : MapperObject}
  {written : Model.MapperObject}

/-- **What it takes for a mapper to be compiled**, and what it is then. -/
lemma mapper_eq_some (h : (mapper find n written).result = some m) :
    ∃ source target, side? find written.source = some (source, m.source)
      ∧ side? find written.target = some (target, m.target)
      ∧ m.toNaming = nodeNaming n written.toNaming
      ∧ m.pairs = written.mappers.filterMap (pair? source target) := by
  rw [mapper] at h
  split at h
  · cases h
  · cases h
  next source sourceRef target targetRef hsource htarget =>
    cases h
    exact ⟨source, target, hsource, htarget, rfl, rfl⟩

/-- **What it takes for a side to lead to an object**, and how it is spoken of then. -/
lemma side?_eq_some_iff {r : Option Model.ObjectReference} {object : StoredObject}
    {side : ObjectRef} :
    side? find r = some (object, side) ↔ ∃ ref e, r = some ref ∧ ref.referenceId ≠ ""
      ∧ find ref.referenceId = some e ∧ e.object = object ∧ side.name = object.name
      ∧ side.parent = e.parent.map (·.name) ∧ object.mapperKind? = some side.kind := by
  constructor
  · intro h
    simp only [side?, Option.bind_eq_bind, Option.bind_eq_some_iff] at h
    obtain ⟨ref, rfl, h⟩ := h
    split at h
    · cases h
    next hid =>
      simp only [Option.bind_eq_some_iff] at h
      obtain ⟨e, he, kind, hkind, heq⟩ := h
      cases heq
      exact ⟨ref, e, rfl, by simpa using hid, he, rfl, rfl, rfl, hkind⟩
  · rintro ⟨ref, e, rfl, hid, he, rfl, hname, hparent, hkind⟩
    obtain ⟨name, parent, kind⟩ := side
    subst hname hparent
    simp [side?, hid, he, hkind]

lemma eq_dataObject {object : StoredObject} (h : object.mapperKind? = some .dataObject) :
    ∃ o, object = .dataObject o := by
  cases object with
  | dataObject o => exact ⟨o, rfl⟩
  | _ => cases h

lemma read_dataObject {o : Model.DataObject}
    (h : n.read (StoredObject.ofJson? n.kind) = .ok (.dataObject o)) :
    n.kind = .dataObject ∧ Model.DataObject.ofJson? (.obj n.properties) = some o := by
  rw [Node.read_eq_ok] at h
  cases hkind : n.kind with
  | dataObject =>
      rw [hkind] at h
      obtain ⟨o', ho', heq⟩ := Option.map_eq_some_iff.mp h
      cases heq
      exact ⟨rfl, ho'⟩
  | entity | valueObject | enumeration | dto =>
      rw [hkind] at h
      obtain ⟨_, -, heq⟩ := Option.map_eq_some_iff.mp h
      cases heq
  | _ =>
      rw [hkind] at h
      cases h

/-- A visited data object is compiled, with the columns of it that are kept. -/
lemma compiled_of_reachable {t : Tree} {r : Report DataModel} {o : Model.DataObject}
    (h : dataModel t c = .ok r) (hn : t.Reachable n) (hkind : n.kind = .dataObject)
    (hread : Model.DataObject.ofJson? (.obj n.properties) = some o) :
    ∃ compiled ∈ r.result.dataObjects, compiled.uuid = n.id ∧ compiled.name = o.name
      ∧ ∀ f, (∃ q ∈ compiled.properties, q.name = f)
        ↔ ∃ p ∈ o.properties, p.name = f ∧ isKept t p := by
  have hvisited : n ∈ dataNodes t :=
    List.mem_filter.mpr ⟨(t.preorder_visitOrder.mem_iff n).mpr hn, decide_eq_true hkind⟩
  obtain ⟨compiled, hmem, htable⟩ := exists_of_mem_right (tables_of_dataModel h).flip hvisited
  obtain ⟨o', ho', hnaming, -, hcolumns, -⟩ := htable.content
  rw [hread] at ho'
  cases ho'
  have hname : compiled.name = o.name := by
    rw [hnaming]
    rfl
  exact ⟨compiled, hmem, htable.uuid, hname, fun f => exists_column_named_iff hcolumns⟩

/-- **A side that names a data object.** -/
lemma dataSide_of_side? {r : Option Model.ObjectReference} {object : StoredObject}
    {side : ObjectRef} {fields : List String} {data : Report DataModel}
    (hdata : dataModel d.dataObject c = .ok data) (hstore : Store.ofTrees d.objectTrees = .ok store)
    (h : side? store r = some (object, side))
    (hfields : ∀ f ∈ fields, ∃ id, object.fieldName? id = some f)
    (hkind : side.kind = .dataObject) : DataSide d data.result r side fields := by
  obtain ⟨ref, e, hr, -, hget, rfl, hname, -, hmapped⟩ := side?_eq_some_iff.mp h
  rw [hkind] at hmapped
  obtain ⟨o, ho⟩ := eq_dataObject hmapped
  obtain ⟨t, n, hn, hentry⟩ := Store.exists_node_of_get? hstore hget
  have hread := (Store.of_nodeEntry hentry).2.1
  rw [ho] at hread hname hfields
  obtain ⟨hnkind, ho'⟩ := read_dataObject hread
  refine ⟨ref, n, o, hr, hn, hnkind, ho', hname, fun f hf => ?_, fun hreach => ?_⟩
  · obtain ⟨id, hid⟩ := hfields f hf
    obtain ⟨p, hp, rfl⟩ := Option.map_eq_some_iff.mp hid
    exact ⟨p, List.mem_of_find?_eq_some hp, rfl⟩
  · obtain ⟨compiled, hmem, huuid, hcompiled, hcolumns⟩ :=
      compiled_of_reachable hdata hreach hnkind ho'
    exact ⟨compiled, hmem, huuid, hcompiled.trans hname.symm, fun f _ => hcolumns f⟩

/-- What a document is compiled to comes from its data tree, and from its mapper tree and the store
of the others. -/
lemma of_compile {b : BusinessDomain} {om : ObjectMapper} (h : d.compile c = .ok b)
    (hom : b.objectMapper = some om) :
    ∃ data store report, dataModel d.dataObject c = .ok data ∧ b.dataModel = data.result
      ∧ Store.ofTrees d.objectTrees = .ok store ∧ objectMapper store d.mapper c = .ok report
      ∧ om = report.result := by
  simp only [Document.compile, bind_ok_iff] at h
  obtain ⟨_, -, _, -, data, hdata, mapped, hmapped, heq⟩ := h
  cases heq
  change mapped = some om at hom
  rw [Document.compileMapper] at hmapped
  split at hmapped
  · simp only [bind_ok_iff] at hmapped
    obtain ⟨store, hstore, report, hreport, heq⟩ := hmapped
    cases heq
    cases hom
    exact ⟨data, store, report, hdata, rfl, hstore, hreport, rfl⟩
  · cases hmapped
    cases hom

/-- **What a visited node gives**: the mapper that it writes, or nothing. -/
lemma mapperPart_cases {t : Tree} {part : Report (Option MapperObject)}
    (h : mapperPart find t c n = .ok part) :
    (n.kind = .mapperObject ∧ ∃ written,
      Model.MapperObject.ofJson? (.obj n.properties) = some written ∧ part = mapper find n written)
      ∨ n.kind ≠ .mapperObject ∧ part.result = none := by
  rw [mapperPart] at h
  split at h
  next hkind =>
    obtain ⟨written, hwritten, heq⟩ := bind_ok_iff.mp h
    cases heq
    exact .inl ⟨hkind, written, Node.read_eq_ok.mp hwritten, rfl⟩
  next hkind =>
    obtain ⟨warnings, -, rfl⟩ := map_ok_iff.mp h
    exact .inr ⟨hkind, rfl⟩

/-- Every compiled mapper is that of a visited node. -/
lemma exists_mapper_node {t : Tree} {report : Report ObjectMapper}
    (h : objectMapper find t c = .ok report) (hm : m ∈ report.result.mappers) :
    ∃ n written, t.Reachable n ∧ n.kind = .mapperObject ∧ n.checkIdentity = .ok ()
      ∧ Model.MapperObject.ofJson? (.obj n.properties) = some written
      ∧ (mapper find n written).result = some m := by
  obtain ⟨parts, hparts, heq⟩ := bind_ok_iff.mp h
  cases heq
  obtain ⟨part, hpart, hresult⟩ := List.mem_filterMap.mp hm
  obtain ⟨n, hn, hcheck, hread⟩ :=
    exists_of_mem_right (Tree.readAll_eq_ok_iff.mp hparts) hpart
  rcases mapperPart_cases hread with ⟨hkind, written, hwritten, rfl⟩ | ⟨-, hnone⟩
  · exact ⟨n, written, (t.preorder_visitOrder.mem_iff n).mp hn, hkind, hcheck, hwritten, hresult⟩
  · rw [hnone] at hresult
    cases hresult

/-- **What the mappers of a compiled document name.**  A side that names a data object names the
first node that can be stored under the id, and declared fields of it.  If that is a node that the
data tree can reach, the data object is compiled under the name, and a field is one of its columns
exactly if a declaration of that name is kept. -/
theorem mapper_sides {b : BusinessDomain} {om : ObjectMapper} (h : d.compile c = .ok b)
    (hom : b.objectMapper = some om) (hm : m ∈ om.mappers) : ∃ n, MapperOf d b.dataModel n m := by
  obtain ⟨data, store, report, hdata, hmodel, hstore, hreport, rfl⟩ := of_compile h hom
  obtain ⟨n, written, hreach, hkind, hcheck, hread, hmapper⟩ := exists_mapper_node hreport hm
  obtain ⟨source, target, hsource, htarget, hnaming, hpairs⟩ := mapper_eq_some hmapper
  -- a pair is kept only if both objects have the field
  have hfields : ∀ pair ∈ m.pairs, (∃ id, source.fieldName? id = some pair.sourceField)
      ∧ ∃ id, target.fieldName? id = some pair.targetField := by
    intro pair hpair
    rw [hpairs] at hpair
    obtain ⟨f, -, hf⟩ := List.mem_filterMap.mp hpair
    simp only [pair?, Option.bind_eq_bind, Option.bind_eq_some_iff] at hf
    obtain ⟨_, ⟨id, -, hid⟩, _, ⟨id', -, hid'⟩, heq⟩ := hf
    cases heq
    exact ⟨⟨id, hid⟩, id', hid'⟩
  rw [hmodel]
  refine ⟨n, hreach, hkind, ?_, written, hread, ?_, ?_⟩
  · rw [hnaming]
    exact nodeNaming_uuid hcheck (Model.MapperObject.naming_of_ofJson? hread)
  · refine dataSide_of_side? hdata hstore hsource fun f hf => ?_
    obtain ⟨pair, hpair, rfl⟩ := List.mem_map.mp hf
    exact (hfields pair hpair).1
  · refine dataSide_of_side? hdata hstore htarget fun f hf => ?_
    obtain ⟨pair, hpair, rfl⟩ := List.mem_map.mp hf
    exact (hfields pair hpair).2

theorem mapper_sides_copyDocument :
    ∃ b om m n, (copyDocument .empty (treeOf [orderNode] ["order"])).compile {} = .ok b
      ∧ b.objectMapper = some om ∧ m ∈ om.mappers ∧ m.pairs = [⟨"number", "buyer"⟩]
      ∧ MapperOf (copyDocument .empty (treeOf [orderNode] ["order"])) b.dataModel n m := by
  have hcompile : ((copyDocument .empty (treeOf [orderNode] ["order"])).compile {}).map
      (fun b => b.objectMapper.map fun om => om.mappers.map (·.pairs))
        = .ok (some [[⟨"number", "buyer"⟩]]) := by decide +kernel
  obtain ⟨b, hb, hpairs⟩ := map_ok_iff.mp hcompile
  obtain ⟨om, hom, hpairs⟩ := Option.map_eq_some_iff.mp hpairs
  obtain ⟨m, rest, hm, hpair, -⟩ := List.map_eq_cons_iff.mp hpairs
  have hmem : m ∈ om.mappers := by simp [hm]
  obtain ⟨n, hn⟩ := mapper_sides hb hom hmem
  exact ⟨b, om, m, n, hb, hom, hmem, hpair, hn⟩

end DomainDesign
