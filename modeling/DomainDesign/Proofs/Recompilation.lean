import DomainDesign.Document
import DomainDesign.Proofs.Columns
import DomainDesign.Proofs.PartNodes
import DomainDesign.Proofs.QueryStates
import DomainDesign.Proofs.SelfContained

/-!
# Artifacts compile without loss

The artifacts of a generation can be put into the trees of a document and compiled.  `Recompiled`
says that nothing is lost on the way: the queries, the data transfer objects with all their
properties, the data object with all its columns and the mapper with all its pairs come out, and
what referred to a data transfer object is written as its name.

**The query tree.**  Its nodes are visited in the order of their ids, so the compiled queries and
data transfer objects are those of the artifacts in some order: `queryModel_of_bears`.

**The data tree.**  No column refers to another one, so all are kept: `dataModel_of_bears`.

**The mapper tree.**  The store that the mapper is compiled against has the data transfer object of
the root and the data object under their uuids, since no uuid is used twice: `store_ok`.
-/

namespace DomainDesign.Artifacts

open Model Carrier

/-- The document that has the queries and data transfer objects in its query tree, the data object
in its data tree and the mapper of the data transfer object in its mapper tree. -/
def document (a : Artifacts) : Except Error Document := do
  let query ← Tree.ofParts (.ofQuery a.detailQuery :: .ofQuery a.pageQuery :: a.dtos.map .ofDto)
  let dataObject ← Tree.ofParts [.ofDataObject a.dataObject]
  let mapper ← Tree.ofParts [.ofMapper a.dtoMapper]
  .ok { domain := .empty, query, dataObject, mapper }

/-! ## What is kept -/

/-- The name of the data transfer object with a uuid. -/
def dtoName (a : Artifacts) (uuid : String) : String :=
  ((a.dtos.find? fun d => d.uuid = uuid).map (·.name)).getD ""

/-- A property is kept: references in its type lead to data transfer objects and are written as
their names. -/
structure PropertyKept (a : Artifacts) (p : Property) (q : Compiled.Property) : Prop where
  naming : q.toNaming = Compile.naming p.toNaming
  access : q.access = p.access
  optional : q.optional = p.optional
  known : ∀ id ∈ TypeExpr.targets? p.type, ∃ d ∈ a.dtos, d.uuid = id
  type : q.type = TypeExpr.render? "Void" (fun id _ => a.dtoName id) p.type

/-- A query is kept, with a text as its answer. -/
structure QueryKept (a : Artifacts) (answer : String) (q : Query) (compiled : Compiled.Query) :
    Prop where
  naming : compiled.toNaming = Compile.naming q.toNaming
  pagination : compiled.pagination = q.pagination
  properties : List.Forall₂ a.PropertyKept q.properties compiled.properties
  result : compiled.result.type = answer

/-- A data transfer object is kept, with all its properties. -/
structure DtoKept (a : Artifacts) (d : Dto) (compiled : Compiled.Dto) : Prop where
  naming : compiled.toNaming = Compile.naming d.toNaming
  properties : List.Forall₂ a.PropertyKept d.properties compiled.properties

/-- A column is kept, with its type. -/
structure ColumnKept (p : DataProperty) (q : Compiled.DataProperty) : Prop where
  naming : q.toNaming = Compile.naming p.toNaming
  storage : q.storage = p.type
  notNull : q.notNull = p.notNull
  primaryKey : q.primaryKey = p.primaryKey

/-- A pair of fields is kept: it pairs the names of the fields, which are the same. -/
structure PairKept (a : Artifacts) (rootDto : Dto) (f : FieldMapper) (pair : Compiled.FieldPair) :
    Prop where
  source : ∃ p ∈ rootDto.properties, f.source = some p.uuid ∧ pair.sourceField = p.name
  target : ∃ column ∈ a.dataObject.properties,
    f.target = some column.uuid ∧ pair.targetField = column.name
  same : pair.sourceField = pair.targetField

/-- A compiled document has what is in the artifacts of a root. -/
structure Recompiled (root : Entity) (a : Artifacts) (out : Compiled.BusinessDomain) : Prop where
  domain : out.domainModel.aggregates = []
  queries : ∃ order : List Query, order.Perm [a.detailQuery, a.pageQuery]
    ∧ List.Forall₂ (a.QueryKept (root.name ++ "DTO")) order out.queryModel.queries
  dtos : ∃ order : List Dto, order.Perm a.dtos ∧ List.Forall₂ a.DtoKept order out.queryModel.dtos
  table : ∃ table, out.dataModel.dataObjects = [table]
    ∧ table.toNaming = Compile.naming a.dataObject.toNaming
    ∧ List.Forall₂ ColumnKept a.dataObject.properties table.properties
  mapper : ∃ mapper, out.objectMapper = some ⟨[mapper]⟩
    ∧ mapper.toNaming = Compile.naming a.dtoMapper.toNaming
    ∧ ∃ rootDto ∈ a.dtos, rootDto.name = root.name ++ "DTO"
      ∧ mapper.source = { name := rootDto.name, kind := .dto }
      ∧ mapper.target = { name := a.dataObject.name, kind := .dataObject }
      ∧ List.Forall₂ (a.PairKept rootDto) a.dtoMapper.mappers mapper.pairs

/-! ## Uuids -/

variable {a : Artifacts} {rootDto d : Dto}

/-- What stands in the query tree. -/
def pieces (a : Artifacts) : List (Query ⊕ Dto) :=
  .inl a.detailQuery :: .inl a.pageQuery :: a.dtos.map .inr

/-- The part that stands for it. -/
def piecePart : Query ⊕ Dto → Part :=
  Sum.elim .ofQuery .ofDto

lemma mem_pieces_inr : .inr d ∈ a.pieces ↔ d ∈ a.dtos := by
  simp [pieces]

lemma mem_pieces_inl {q : Query} : .inl q ∈ a.pieces ↔ q ∈ [a.detailQuery, a.pageQuery] := by
  simp [pieces]

lemma map_uuid_sublist (dtos : List Dto) : (dtos.map (·.uuid)).Sublist (dtos.flatMap uuidsOf) := by
  induction dtos with
  | nil => exact .slnil
  | cons d rest ih =>
      rw [List.map_cons, List.flatMap_cons, uuidsOf, List.cons_append]
      exact (ih.trans (List.sublist_append_right _ _)).cons_cons _

/-- The uuids of the nodes are among those of the artifacts. -/
lemma nodeUuids_sublist (a : Artifacts) :
    (a.pieces.map (fun x => (piecePart x).uuid) ++ [a.dataObject.uuid]).Sublist a.uuids := by
  have hdtos : (a.dtos.map Sum.inr).map (fun x => (piecePart x).uuid) = a.dtos.map (·.uuid) := by
    rw [List.map_map]
    rfl
  have hpieces : (a.pieces.map fun x => (piecePart x).uuid)
      = [a.detailQuery.uuid] ++ [a.pageQuery.uuid] ++ a.dtos.map (·.uuid) := by
    rw [pieces, List.map_cons, List.map_cons, hdtos]
    rfl
  have hfirst : ∀ (id : String) (rest : List String), [id].Sublist (id :: rest) :=
    fun id rest => (List.nil_sublist rest).cons_cons id
  have hkept : ([a.detailQuery.uuid] ++ [a.pageQuery.uuid] ++ a.dtos.map (·.uuid)
      ++ [a.dataObject.uuid]).Sublist (queryUuids a.detailQuery ++ queryUuids a.pageQuery
        ++ a.dtos.flatMap uuidsOf ++ tableUuids a.dataObject) :=
    (((hfirst _ _).append (hfirst _ _)).append (map_uuid_sublist _)).append (hfirst _ _)
  rw [hpieces, uuids]
  exact hkept.trans ((List.sublist_append_left _ _).trans (List.sublist_append_left _ _))

lemma uuid_mem_of_mem_pieces {x : Query ⊕ Dto} (hx : x ∈ a.pieces) : (piecePart x).uuid ∈ a.uuids :=
  a.nodeUuids_sublist.subset (List.mem_append_left _ (List.mem_map.mpr ⟨x, hx, rfl⟩))

lemma uuid_table_mem (a : Artifacts) : a.dataObject.uuid ∈ a.uuids :=
  a.nodeUuids_sublist.subset (List.mem_append_right _ (List.mem_singleton_self _))

lemma uuid_dtoMapper_mem (a : Artifacts) : a.dtoMapper.uuid ∈ a.uuids :=
  List.mem_append_right _ List.mem_cons_self

/-- A data transfer object is known by its uuid. -/
lemma SelfContained.eq_of_uuid_eq (h : a.SelfContained rootDto) {d d' : Dto} (hd : d ∈ a.dtos)
    (hd' : d' ∈ a.dtos) (huuid : d.uuid = d'.uuid) : d = d' := by
  have hnodup := (h.distinct.sublist a.nodeUuids_sublist).of_append_left
  exact Sum.inr.inj
    (List.inj_on_of_nodup_map hnodup (mem_pieces_inr.mpr hd) (mem_pieces_inr.mpr hd') huuid)

lemma SelfContained.uuid_ne_table (h : a.SelfContained rootDto) (hd : d ∈ a.dtos) :
    d.uuid ≠ a.dataObject.uuid := by
  have hnodup := h.distinct.sublist a.nodeUuids_sublist
  have hmem : d.uuid ∈ a.pieces.map fun x => (piecePart x).uuid :=
    List.mem_map.mpr ⟨.inr d, mem_pieces_inr.mpr hd, rfl⟩
  exact (List.nodup_append.mp hnodup).2.2 _ hmem _ (List.mem_singleton_self _)

lemma SelfContained.nodup_properties (h : a.SelfContained rootDto) (hd : d ∈ a.dtos) :
    (d.properties.map (·.uuid)).Nodup := by
  have hnodup := h.distinct
  rw [uuids] at hnodup
  have hdtos : (a.dtos.flatMap uuidsOf).Nodup :=
    hnodup.of_append_left.of_append_left.of_append_left.of_append_right
  exact ((List.nodup_flatMap.mp hdtos).1 d hd).of_cons

lemma SelfContained.nodup_columns (h : a.SelfContained rootDto) :
    (a.dataObject.properties.map (·.uuid)).Nodup := by
  have hnodup := h.distinct
  rw [uuids] at hnodup
  exact hnodup.of_append_left.of_append_left.of_append_right.of_cons

lemma SelfContained.dtoName_eq (h : a.SelfContained rootDto) (hd : d ∈ a.dtos) :
    a.dtoName d.uuid = d.name := by
  have hfind : (a.dtos.find? fun e => e.uuid = d.uuid) = some d :=
    find?_key hd fun e he huuid => h.eq_of_uuid_eq he hd huuid
  rw [dtoName, hfind]
  rfl

/-! ## The query tree -/

variable {t : Tree}

lemma declared_piecePart (x : Query ⊕ Dto) : (piecePart x).Declared := by
  cases x with
  | inl q => exact Part.declared_ofQuery q
  | inr d => exact Part.declared_ofDto d

/-- The query tree can be made. -/
lemma queryTree_ok (h : a.SelfContained rootDto) :
    ∃ t, Tree.ofParts (.ofQuery a.detailQuery :: .ofQuery a.pageQuery :: a.dtos.map .ofDto) = .ok t
      ∧ t.Bears piecePart a.pieces := by
  have hparts : a.pieces.map piecePart
      = .ofQuery a.detailQuery :: .ofQuery a.pageQuery :: a.dtos.map .ofDto := by
    rw [pieces, List.map_cons, List.map_cons, List.map_map]
    rfl
  rw [← hparts]
  refine Tree.ofParts_ok (fun x _ => declared_piecePart x) (fun x hx => ?_) ?_
  · exact h.ne_root _ (uuid_mem_of_mem_pieces hx)
  · exact (h.distinct.sublist a.nodeUuids_sublist).of_append_left

/-- A reference to a data transfer object is written as its name. -/
lemma referenceName_eq (h : a.SelfContained rootDto) (ht : t.Bears piecePart a.pieces)
    (hd : d ∈ a.dtos)
    (display : String) : Compile.referenceName t d.uuid display = a.dtoName d.uuid := by
  have hname : (Part.ofDto d).json.shown "name" = some (.str d.name) := by
    simp [Part.ofDto, Dto.toJson, ClassBody.fields, Naming.fields, Json.sorted]
  rw [h.dtoName_eq hd]
  exact Part.referenceName_planted (Part.declared_ofDto d)
    (ht.get? (.inr d) (mem_pieces_inr.mpr hd)) hname
    (h.named d hd) display

lemma propertyKept (h : a.SelfContained rootDto) (ht : t.Bears piecePart a.pieces) {p : Property}
    (hp : a.Closed p.type) : a.PropertyKept p (Compile.property t {} p) := by
  refine ⟨rfl, rfl, rfl, hp.known, TypeExpr.render?_congr fun id hid display => ?_⟩
  obtain ⟨d, hd, rfl⟩ := hp.known id hid
  exact referenceName_eq h ht hd display

lemma propertiesKept (h : a.SelfContained rootDto) (ht : t.Bears piecePart a.pieces)
    {ps : List Property} (hps : ∀ p ∈ ps, a.Closed p.type) :
    List.Forall₂ a.PropertyKept ps (Compile.properties t {} ps) := by
  rw [Compile.properties, List.forall₂_map_right_iff, List.forall₂_same]
  exact fun p hp => propertyKept h ht (hps p hp)

/-- The compiled query of a node in the tree. -/
def queryIn (t : Tree) (q : Query) : Compiled.Query :=
  Compile.query t {} (Part.ofQuery q).planted q

/-- The compiled data transfer object of a node in the tree, if it has no methods. -/
def dtoIn (t : Tree) (d : Dto) : Compiled.Dto :=
  { toNaming := Compile.nodeNaming (Part.ofDto d).planted d.toNaming
    superclass := Text.nonEmpty d.superclass
    interfaces := d.interfaces.filter (!·.isEmpty)
    isAbstract := d.isAbstract
    properties := Compile.properties t {} d.properties
    classProperties := Compile.properties t {} d.classProperties }

/-- What a piece of the query tree is compiled to. -/
def pieceIn (t : Tree) : Query ⊕ Dto → Compile.QueryPart
  | .inl q => .query q.uuid (queryIn t q)
  | .inr d => .dto (dtoIn t d)

lemma read_query (h : a.SelfContained rootDto) {q : Query} (hq : q ∈ [a.detailQuery, a.pageQuery]) :
    Query.ofJson? (.obj (Part.ofQuery q).planted.properties) = some q := by
  refine Query.ofJson?_of_shows ⟨fun p hp => (h.queryTypes q hq p hp).ordered, ?_⟩
    (Part.shows_planted (Part.declared_ofQuery q))
  rw [h.answers q hq]
  rintro _ ⟨⟩
  trivial

lemma read_dto (h : a.SelfContained rootDto) (hd : d ∈ a.dtos) :
    Dto.ofJson? (.obj (Part.ofDto d).planted.properties) = some d := by
  obtain ⟨hmethods, hclassProperties, hclassMethods⟩ := h.plain d hd
  refine Dto.ofJson?_of_shows ⟨fun p hp => (h.dtoTypes d hd p hp).ordered, ?_, ?_, ?_⟩
    (Part.shows_planted (Part.declared_ofDto d))
  · simp [hmethods]
  · simp [hclassProperties]
  · simp [hclassMethods]

lemma queryPart_piece (h : a.SelfContained rootDto) (t : Tree) {x : Query ⊕ Dto}
    (hx : x ∈ a.pieces) :
    Compile.queryPart t {} (piecePart x).planted = .ok (pieceIn t x) := by
  cases x with
  | inl q =>
      have hread := read_query h (mem_pieces_inl.mp hx)
      have hkind : (piecePart (.inl q)).planted.kind = .query := rfl
      simp only [Compile.queryPart, hkind]
      exact bind_ok_iff.mpr ⟨q, Node.read_eq_ok.mpr hread, rfl⟩
  | inr d =>
      have hd := mem_pieces_inr.mp hx
      obtain ⟨hmethods, -, hclassMethods⟩ := h.plain d hd
      have hkind : (piecePart (.inr d)).planted.kind = .dto := rfl
      have hbody : Compile.classBody t {} (piecePart (.inr d)).planted d.toClassBody
          = .ok (dtoIn t d).toClassBody := by
        simp only [Compile.classBody, hmethods, hclassMethods]
        rfl
      simp only [Compile.queryPart, hkind]
      exact bind_ok_iff.mpr ⟨d, Node.read_eq_ok.mpr (read_dto h hd),
        bind_ok_iff.mpr ⟨_, hbody, rfl⟩⟩

lemma queryKept (h : a.SelfContained rootDto) (ht : t.Bears piecePart a.pieces) {q : Query}
    (hq : q ∈ [a.detailQuery, a.pageQuery]) : a.QueryKept rootDto.name q (queryIn t q) := by
  have huuid : q.uuid ≠ "" := h.ne_empty _ (uuid_mem_of_mem_pieces (mem_pieces_inl.mpr hq))
  refine ⟨Part.nodeNaming_planted huuid, rfl, propertiesKept h ht (h.queryTypes q hq), ?_⟩
  -- the answer refers to the data transfer object of the root, which is in the same tree
  rw [queryIn, Compile.query, h.answers q hq, ← h.dtoName_eq h.rooted]
  exact referenceName_eq h ht h.rooted rootDto.name

lemma dtoKept (h : a.SelfContained rootDto) (ht : t.Bears piecePart a.pieces) (hd : d ∈ a.dtos) :
    a.DtoKept d (dtoIn t d) := by
  have huuid : d.uuid ≠ "" := h.ne_empty _ (uuid_mem_of_mem_pieces (mem_pieces_inr.mpr hd))
  exact ⟨Part.nodeNaming_planted huuid, propertiesKept h ht (h.dtoTypes d hd)⟩

/-- **The query tree is compiled without loss.** -/
lemma queryModel_of_bears (h : a.SelfContained rootDto) (ht : t.Bears piecePart a.pieces) :
    ∃ r, Compile.queryModel t {} = .ok r
      ∧ (∃ order : List Query, order.Perm [a.detailQuery, a.pageQuery]
        ∧ List.Forall₂ (a.QueryKept rootDto.name) order r.result.queries)
      ∧ ∃ order : List Dto, order.Perm a.dtos ∧ List.Forall₂ a.DtoKept order r.result.dtos := by
  obtain ⟨order, horder, hsurvey⟩ := ht.survey fun x _ => declared_piecePart x
  have hparts := hsurvey (Compile.queryPart t {}) (.skipped []) (pieceIn t)
    (fun r hr => by simp only [Compile.queryPart, hr, Compile.foreign_root hr]; rfl)
    fun x hx => queryPart_piece h t hx
  have hrules :
      (Compile.QueryPart.skipped [] :: order.map (pieceIn t)).filterMap (·.attachment?) = [] := by
    rw [List.filterMap_cons_none rfl, List.filterMap_map, List.filterMap_eq_nil_iff]
    rintro (q | d) _ <;> rfl
  -- the walk mixes queries and data transfer objects; each list picks its own, in order
  have hqueries : (Compile.QueryPart.skipped [] :: order.map (pieceIn t)).filterMap (·.query?)
      = (order.filterMap Sum.getLeft?).map (queryIn t) := by
    rw [List.filterMap_cons_none rfl, List.filterMap_map, List.map_filterMap]
    refine List.filterMap_congr ?_
    rintro (q | d) _ <;> rfl
  have hdtos : (Compile.QueryPart.skipped [] :: order.map (pieceIn t)).filterMap (·.dto?)
      = (order.filterMap Sum.getRight?).map (dtoIn t) := by
    rw [List.filterMap_cons_none rfl, List.filterMap_map, List.map_filterMap]
    refine List.filterMap_congr ?_
    rintro (q | d) _ <;> rfl
  have hleft : (order.filterMap Sum.getLeft?).Perm [a.detailQuery, a.pageQuery] := by
    refine (horder.filterMap _).trans (.of_eq ?_)
    simp [pieces, List.filterMap_map, Function.comp_def]
  have hright : (order.filterMap Sum.getRight?).Perm a.dtos := by
    refine (horder.filterMap _).trans (.of_eq ?_)
    rw [pieces, List.filterMap_cons_none rfl, List.filterMap_cons_none rfl, List.filterMap_map]
    exact List.filterMap_some
  rw [Compile.queryModel, Tree.collect_eq, hparts]
  refine ⟨_, rfl, ⟨_, hleft, ?_⟩, _, hright, ?_⟩
  · rw [Compile.report_settle hrules, hqueries, List.forall₂_map_right_iff, List.forall₂_same]
    exact fun q hq => queryKept h ht (hleft.mem_iff.mp hq)
  · rw [Compile.report_settle hrules, hdtos, List.forall₂_map_right_iff, List.forall₂_same]
    exact fun d hd => dtoKept h ht (hright.mem_iff.mp hd)

/-! ## The data tree -/

lemma columnKept (h : a.SelfContained rootDto) (tables : Register Compile.Table) {p : DataProperty}
    (hp : p ∈ a.dataObject.properties) :
    ∃ q, Compile.column? tables p = some q ∧ ColumnKept p q := by
  -- a bare type has no default that could be cleared, and refers to nothing
  have hstorage : Compile.columnStorage? tables p = some p.type := by
    obtain ⟨k, hk, htype⟩ := h.bare p hp
    rw [Compile.columnStorage?, htype]
    cases k with
    | reference => exact absurd rfl hk
    | _ => rfl
  refine ⟨_, by rw [Compile.column?, hstorage, Option.map_some], rfl, rfl, ?_, rfl⟩
  by_cases hkey : p.isPrimaryKey = true
  · rw [if_pos hkey, h.keys p hp hkey]
  · rw [if_neg hkey]

lemma read_table (h : a.SelfContained rootDto) :
    DataObject.ofJson? (.obj (Part.ofDataObject a.dataObject).planted.properties)
      = some a.dataObject := by
  refine DataObject.ofJson?_of_shows (fun p hp => ?_)
    (Part.shows_planted (Part.declared_ofDataObject a.dataObject))
  obtain ⟨k, -, htype⟩ := h.bare p hp
  rw [htype]
  exact Storage.finite_ofKind k

/-- **The data tree is compiled without loss.** -/
lemma dataModel_of_bears (h : a.SelfContained rootDto)
    (ht : t.Bears Part.ofDataObject [a.dataObject]) :
    ∃ r table, Compile.dataModel t {} = .ok r ∧ r.result.dataObjects = [table]
      ∧ table.toNaming = Compile.naming a.dataObject.toNaming
      ∧ List.Forall₂ ColumnKept a.dataObject.properties table.properties := by
  have huuid : a.dataObject.uuid ≠ "" := h.ne_empty _ a.uuid_table_mem
  let visited : Compile.Table :=
    ⟨Compile.nodeNaming (Part.ofDataObject a.dataObject).planted a.dataObject.toNaming,
      a.dataObject⟩
  have hpart : Compile.dataPart t {} (Part.ofDataObject a.dataObject).planted
      = .ok (.object a.dataObject.uuid visited) := by
    have hkind : (Part.ofDataObject a.dataObject).planted.kind = .dataObject := rfl
    simp only [Compile.dataPart, hkind]
    exact bind_ok_iff.mpr ⟨_, Node.read_eq_ok.mpr (read_table h), rfl⟩
  have hparts := ht.survey_singleton (Part.declared_ofDataObject _)
    (fun r hr => by simp only [Compile.dataPart, hr, Compile.foreign_root hr]; rfl) hpart
  obtain ⟨tables, -, hobjects, -⟩ := @Compile.dataModel_of_settle
    [.skipped [], .object a.dataObject.uuid visited] (List.nodup_singleton _)
  rw [Compile.dataModel, Tree.collect_eq, hparts]
  refine ⟨_, _, rfl, hobjects, Part.nodeNaming_planted huuid, ?_⟩
  exact forall₂_filterMap fun p hp => columnKept h tables hp

/-! ## The mapper tree -/

lemma nodeEntry_query (t : Tree) (q : Query) :
    Store.nodeEntry t (piecePart (.inl q)).planted = .ok none :=
  rfl

lemma nodeEntry_dto (h : a.SelfContained rootDto) (ht : t.Bears piecePart a.pieces)
    (hd : d ∈ a.dtos) :
    Store.nodeEntry t (piecePart (.inr d)).planted = .ok (some ⟨d.uuid, .dto d, none⟩) := by
  have hread :
      StoredObject.ofJson? .dto (.obj (Part.ofDto d).planted.properties) = some (.dto d) := by
    rw [StoredObject.ofJson?, read_dto h hd, Option.map_some]
  exact ht.nodeEntry rfl hread

lemma nodeEntry_table (h : a.SelfContained rootDto)
    (ht : t.Bears Part.ofDataObject [a.dataObject]) :
    Store.nodeEntry t (Part.ofDataObject a.dataObject).planted
      = .ok (some ⟨a.dataObject.uuid, .dataObject a.dataObject, none⟩) := by
  have hread :
      StoredObject.ofJson? .dataObject (.obj (Part.ofDataObject a.dataObject).planted.properties)
      = some (.dataObject a.dataObject) := by
    rw [StoredObject.ofJson?, read_table h, Option.map_some]
  exact ht.nodeEntry rfl hread

/-- What a query tree offers is a data transfer object. -/
lemma mem_loaded_query {e : StoreEntry} (h : a.SelfContained rootDto)
    (ht : t.Bears piecePart a.pieces) :
    e ∈ Store.loaded t ↔ ∃ d ∈ a.dtos, e = ⟨d.uuid, .dto d, none⟩ := by
  rw [ht.mem_loaded]
  constructor
  · rintro ⟨q | d, hx, hmade⟩
    · cases hmade
    · have hd := mem_pieces_inr.mp hx
      rw [nodeEntry_dto h ht hd] at hmade
      exact ⟨d, hd, (Option.some.inj (Except.ok.inj hmade)).symm⟩
  · rintro ⟨d, hd, rfl⟩
    exact ⟨.inr d, mem_pieces_inr.mpr hd, nodeEntry_dto h ht hd⟩

lemma mem_loaded_data {e : StoreEntry} (h : a.SelfContained rootDto)
    (ht : t.Bears Part.ofDataObject [a.dataObject]) :
    e ∈ Store.loaded t ↔ e = ⟨a.dataObject.uuid, .dataObject a.dataObject, none⟩ := by
  rw [ht.mem_loaded]
  simp only [List.mem_singleton, exists_eq_left, nodeEntry_table h ht, Except.ok.injEq,
    Option.some.injEq, eq_comm]

/-- **The store of the document** has the data transfer objects and the data object under their
uuids. -/
lemma store_ok {query data : Tree} (h : a.SelfContained rootDto)
    (hquery : query.Bears piecePart a.pieces)
    (hdata : data.Bears Part.ofDataObject [a.dataObject]) :
    ∃ s, Store.ofTrees [.empty, query, data] = .ok s
      ∧ (∀ d ∈ a.dtos, s.get? d.uuid = some ⟨d.uuid, .dto d, none⟩)
      ∧ s.get? a.dataObject.uuid = some ⟨a.dataObject.uuid, .dataObject a.dataObject, none⟩ := by
  have hempty := Tree.bears_empty piecePart
  have hloadable : ∀ t ∈ [.empty, query, data], ∀ n ∈ t.nodeList,
      ∃ e, Store.nodeEntry t n = .ok e := by
    simp only [List.forall_mem_cons, List.not_mem_nil, false_implies, implies_true, and_true]
    refine ⟨hempty.nodeEntry_ok (by simp), hquery.nodeEntry_ok ?_, hdata.nodeEntry_ok ?_⟩
    · rintro (q | d) hx
      · exact ⟨none, nodeEntry_query query q⟩
      · exact ⟨_, nodeEntry_dto h hquery (mem_pieces_inr.mp hx)⟩
    · exact List.forall_mem_singleton.mpr ⟨_, nodeEntry_table h hdata⟩
  -- the first entry under an id stays, and no two entries have the same id
  obtain ⟨s, hs, hget⟩ := Store.get?_ofTrees hloadable
  have hentries : ∀ e, e ∈ [.empty, query, data].flatMap Store.loaded
      ↔ (∃ d ∈ a.dtos, e = ⟨d.uuid, .dto d, none⟩)
        ∨ e = ⟨a.dataObject.uuid, .dataObject a.dataObject, none⟩ := by
    intro e
    simp only [List.flatMap_cons, List.flatMap_nil, List.append_nil, List.mem_append,
      hempty.mem_loaded, mem_loaded_query h hquery, mem_loaded_data h hdata, List.not_mem_nil,
      false_and, exists_false, false_or]
  refine ⟨s, hs, fun d hd => ?_, ?_⟩
  · rw [hget]
    refine find?_key ((hentries _).mpr (.inl ⟨d, hd, rfl⟩)) fun e he hid => ?_
    rcases (hentries e).mp he with ⟨d', hd', rfl⟩ | rfl
    · rw [h.eq_of_uuid_eq hd' hd hid]
    · exact absurd hid (h.uuid_ne_table hd).symm
  · rw [hget]
    refine find?_key ((hentries _).mpr (.inr rfl)) fun e he hid => ?_
    rcases (hentries e).mp he with ⟨d, hd, rfl⟩ | rfl
    · exact absurd hid (h.uuid_ne_table hd)
    · rfl

/-- The sides of the mapper are found. -/
lemma side?_eq {s : Store} {id name : String} {part : ObjectSource} {object : StoredObject}
    {kind : Compiled.ObjectKind} (hne : id ≠ "") (hget : s.get? id = some ⟨id, object, none⟩)
    (hkind : object.mapperKind? = some kind) :
    Compile.side? s (some (.of part id name)) = some (object, { name := object.name, kind }) := by
  simp [Compile.side?, ObjectReference.of, hne, hget, hkind]

/-- **Every pair of the mapper is kept.** -/
lemma pairKept (h : a.SelfContained rootDto) {f : FieldMapper} (hf : f ∈ a.dtoMapper.mappers) :
    ∃ pair, Compile.pair? (.dto rootDto) (.dataObject a.dataObject) f = some pair
      ∧ a.PairKept rootDto f pair := by
  obtain ⟨⟨p, column⟩, hmatched, hpair⟩ := exists_of_mem_right h.pairs hf
  obtain ⟨hp, hcolumn, hname⟩ := mem_matched hmatched
  have hsource : (rootDto.properties.find? fun q => q.uuid = p.uuid) = some p :=
    find?_key hp fun q hq huuid =>
      List.inj_on_of_nodup_map (h.nodup_properties h.rooted) hq hp huuid
  have htarget : a.dataObject.property? column.uuid = some column :=
    find?_key hcolumn fun q hq huuid => List.inj_on_of_nodup_map h.nodup_columns hq hcolumn huuid
  rw [hpair]
  refine ⟨⟨p.name, column.name⟩, ?_, ⟨p, hp, rfl, rfl⟩, ⟨column, hcolumn, rfl, rfl⟩, hname.symm⟩
  simp [Compile.pair?, FieldMapper.of, StoredObject.fieldName?, StoredObject.body?, hsource,
    htarget]

/-- **The mapper tree is compiled without loss.** -/
lemma objectMapper_of_bears {s : Store} (h : a.SelfContained rootDto)
    (ht : t.Bears Part.ofMapper [a.dtoMapper])
    (hdtos : ∀ d ∈ a.dtos, s.get? d.uuid = some ⟨d.uuid, .dto d, none⟩)
    (htable : s.get? a.dataObject.uuid = some ⟨a.dataObject.uuid, .dataObject a.dataObject, none⟩) :
    ∃ r mapper, Compile.objectMapper s t {} = .ok r ∧ r.result = ⟨[mapper]⟩
      ∧ mapper.toNaming = Compile.naming a.dtoMapper.toNaming
      ∧ mapper.source = { name := rootDto.name, kind := .dto }
      ∧ mapper.target = { name := a.dataObject.name, kind := .dataObject }
      ∧ List.Forall₂ (a.PairKept rootDto) a.dtoMapper.mappers mapper.pairs := by
  have huuid : a.dtoMapper.uuid ≠ "" := h.ne_empty _ a.uuid_dtoMapper_mem
  have hrootUuid : rootDto.uuid ≠ "" :=
    h.ne_empty _ (uuid_mem_of_mem_pieces (mem_pieces_inr.mpr h.rooted))
  have hsource : Compile.side? s a.dtoMapper.source
      = some (.dto rootDto, { name := rootDto.name, kind := .dto }) := by
    rw [h.source]
    exact side?_eq hrootUuid (hdtos rootDto h.rooted) rfl
  have htarget : Compile.side? s a.dtoMapper.target
      = some (.dataObject a.dataObject, { name := a.dataObject.name, kind := .dataObject }) := by
    rw [h.target]
    exact side?_eq (h.ne_empty _ a.uuid_table_mem) htable rfl
  let compiled : Compiled.MapperObject :=
    { toNaming := Compile.nodeNaming (Part.ofMapper a.dtoMapper).planted a.dtoMapper.toNaming
      source := { name := rootDto.name, kind := .dto }
      target := { name := a.dataObject.name, kind := .dataObject }
      pairs :=
        a.dtoMapper.mappers.filterMap (Compile.pair? (.dto rootDto) (.dataObject a.dataObject)) }
  have hmapper : (Compile.mapper s (Part.ofMapper a.dtoMapper).planted a.dtoMapper).result
      = some compiled := by
    rw [Compile.mapper, hsource, htarget]
  have hpart : Compile.mapperPart s t {} (Part.ofMapper a.dtoMapper).planted
      = .ok (Compile.mapper s (Part.ofMapper a.dtoMapper).planted a.dtoMapper) := by
    have hread : MapperObject.ofJson? (.obj (Part.ofMapper a.dtoMapper).planted.properties)
        = some a.dtoMapper :=
      MapperObject.ofJson?_of_shows (Part.shows_planted (Part.declared_ofMapper _))
    have hkind : (Part.ofMapper a.dtoMapper).planted.kind = .mapperObject := rfl
    simp only [Compile.mapperPart, hkind]
    exact bind_ok_iff.mpr ⟨_, Node.read_eq_ok.mpr hread, rfl⟩
  have hparts := ht.survey_singleton (Part.declared_ofMapper _)
    (fun r hr => by simp only [Compile.mapperPart, hr, Compile.foreign_root hr]; rfl) hpart
  rw [Compile.objectMapper, hparts]
  refine ⟨_, compiled, rfl, ?_, Part.nodeNaming_planted huuid, rfl, rfl, ?_⟩
  · change Compiled.ObjectMapper.mk _ = _
    rw [List.filterMap_cons_none rfl, List.filterMap_cons_some hmapper, List.filterMap_nil]
  · exact forall₂_filterMap fun f hf => pairKept h hf

/-! ## The whole -/

/-- Self-contained artifacts make a document, and it compiles to what is in them. -/
lemma recompiled_of_selfContained {root : Entity} (h : a.SelfContained rootDto)
    (hname : rootDto.name = root.name ++ "DTO") :
    ∃ doc out, a.document = .ok doc ∧ doc.compile {} = .ok out ∧ a.Recompiled root out := by
  obtain ⟨query, hquery, hqueryBears⟩ := queryTree_ok h
  obtain ⟨data, hdata, hdataBears⟩ :=
    Tree.ofParts_singleton_ok (Part.declared_ofDataObject a.dataObject)
    (h.ne_root _ a.uuid_table_mem)
  obtain ⟨mapper, hmapper, hmapperBears⟩ :=
    Tree.ofParts_singleton_ok (Part.declared_ofMapper a.dtoMapper)
    (h.ne_root _ a.uuid_dtoMapper_mem)
  obtain ⟨queries, hqueries, hqueryKept, hdtoKept⟩ := queryModel_of_bears h hqueryBears
  obtain ⟨tables, table, htables, hdataObjects, htable⟩ := dataModel_of_bears h hdataBears
  obtain ⟨store, hstore, hdtos, hobject⟩ := store_ok h hqueryBears hdataBears
  obtain ⟨mappers, compiled, hcompiled, hresult, hkept⟩ :=
    objectMapper_of_bears h hmapperBears hdtos hobject
  -- nothing has been put into the domain tree
  have hdomain : Compile.domainModel .empty {} = .ok ⟨⟨[]⟩, []⟩ := by with_unfolding_all rfl
  let doc : Document := { domain := .empty, query, dataObject := data, mapper }
  have hdoc : a.document = .ok doc := by
    rw [document, hquery, hdata, hmapper]
    rfl
  have hmapping : doc.compileMapper {} = .ok (some mappers.result) := by
    rw [Document.compileMapper, if_pos hmapperBears.one_lt_size]
    exact bind_ok_iff.mpr ⟨store, hstore, bind_ok_iff.mpr ⟨mappers, hcompiled, rfl⟩⟩
  let out : Compiled.BusinessDomain :=
    { queryModel := queries.result, dataModel := tables.result
      objectMapper := some mappers.result }
  refine ⟨doc, out, hdoc, ?_, ?_⟩
  · rw [Document.compile, hdomain, hqueries, htables, hmapping]
    rfl
  · refine ⟨rfl, hname ▸ hqueryKept, hdtoKept, ⟨table, hdataObjects, htable⟩, compiled, ?_, hkept.1,
      rootDto, h.rooted, hname, hkept.2⟩
    rw [← hresult]

/-- **Artifacts compile without loss.**  Whenever a generation succeeds, what it makes can be put
into the trees of a document, and the document compiles.  The compiled document has the two queries,
which answer with the data transfer object of the root, the data transfer objects with all their
properties and with their names wherever they are referred to, the data object with all its columns,
and the mapper with all its pairs. -/
theorem generation_recompiles {store : Store} {root : Entity} {ids ids' : IdSupply}
    (h : generate store root ids = (.ok a, ids')) :
    ∃ doc out, a.document = .ok doc ∧ doc.compile {} = .ok out ∧ a.Recompiled root out := by
  obtain ⟨pairs, rootDto, idProperty, idInput, hgenerated⟩ := generated_of_generate h
  refine recompiled_of_selfContained (selfContained_of_generated hgenerated) ?_
  have hcarried : ClassCarried store (pairHeaders pairs) root.toClassBody rootDto :=
    hgenerated.carried _ hgenerated.rooted
  rw [hcarried.shell]
  rfl

/-- Orders with lines, each of which leads back to an order. -/
def order : Entity :=
  { uuid := "order", name := "Order", idUuid := "p1", isAggregationRoot := true
    properties :=
      [.of "p1" "number" (.base "Long"), .of "p2" "placed" (.base "Date"),
        .of "p3" "state" (.reference "state" "State"),
        .of "p4" "lines" (.list (.reference "line" "Line")),
        .of "p5" "earlier" (.map (.base "String") (.list (.reference "order" "Order")))] }

def orderStore : Store :=
  .ofEntries
    [{ id := "state", object := .enumeration { uuid := "state", name := "State" } },
      { id := "line"
        object := .valueObject
          { uuid := "line", name := "Line"
            properties :=
              [.of "p6" "order" (.reference "order" "Order"),
                .of "p7" "amount" (.base "Integer")] } },
      { id := "order", object := .entity order }]

theorem generation_recompiles_order :
    ∃ a ids', generate orderStore order {} = (.ok a, ids')
      ∧ a.dtos.map (·.name) = ["OrderDTO", "LineDTO"]
      ∧ a.dataObject.properties.map (·.name) = ["number", "placed", "state"]
      ∧ ∃ doc out, a.document = .ok doc ∧ doc.compile {} = .ok out ∧ a.Recompiled order out := by
  have hnames : (match generate orderStore order {} with
      | (.ok a, _) => (a.dtos.map (·.name), a.dataObject.properties.map (·.name))
      | (.error _, _) => ([], []))
        = (["OrderDTO", "LineDTO"], ["number", "placed", "state"]) := by
    decide +kernel
  rcases h : generate orderStore order {} with ⟨e | a, ids'⟩
  · rw [h] at hnames
    cases hnames
  · rw [h] at hnames
    exact ⟨a, ids', rfl, congrArg Prod.fst hnames, congrArg Prod.snd hnames,
      generation_recompiles h⟩

end DomainDesign.Artifacts
