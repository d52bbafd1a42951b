import DomainDesign.Generate.Aggregate
import DomainDesign.Proofs.Synthesis

/-!
# What a generation makes

`Generated` says what the artifacts of a root are, and which ids have been drawn for them.

**Columns.**  `addColumns_run`: a property gets a column if its type can be projected, and every
column has an id of its own.

**Mappers.**  `pairColumns_run`: a property is paired with the first column of its name, if there is
one.

**The whole.**  `generated_of_make` goes through the steps of a generation.  Each of them leaves the
data transfer objects alone or only adds to them, and draws ids that nobody else gets.
-/

namespace DomainDesign.Artifacts

open Model Carrier

variable {σ : Type} [IdSource σ] {store : Store} {w w' : Workshop σ}

/-! ## Columns -/

/-- The properties whose types can be projected, with the types of their columns. -/
def projected (store : Store) (ps : List Property) : List (Property × Storage) :=
  ps.filterMap fun p => (project? (some store.get?) p.type).map fun type => (p, type)

/-- The column of a property under a uuid; that of the identifying one is the primary key. -/
def columnOf (idUuid uuid : String) (p : Property) (type : Storage) : DataProperty :=
  let column : DataProperty :=
    { uuid, name := p.name, title := p.title, description := p.description, type }
  if p.uuid = idUuid then column.asPrimaryKey else column

/-- A column is made for a property. -/
def ColumnFor (idUuid : String) (e : Property × Storage) (column : DataProperty) : Prop :=
  column = columnOf idUuid column.uuid e.1 e.2

lemma uuid_columnOf (idUuid uuid : String) (p : Property) (type : Storage) :
    (columnOf idUuid uuid p type).uuid = uuid := by
  rw [columnOf]
  split <;> rfl

lemma addColumns_cons {idUuid : String} {p : Property} {type : Storage} {rest : List Property}
    {d d' : DataObject} (htype : project? (some store.get?) p.type = some type)
    (h : addColumns store idUuid (p :: rest) d w = .ok d' w') :
    addColumns store idUuid rest (d.withProperty (columnOf idUuid (IdSource.next w.ids).1 p type))
      { w with ids := (IdSource.next w.ids).2 } = .ok d' w' := by
  simp only [addColumns, htype] at h
  obtain ⟨uuid, w₁, hid, h⟩ := run_bind_iff.mp h
  obtain ⟨rfl, rfl⟩ := nextId_run hid
  exact h

/-- **A column for every property whose type can be projected**, in order. -/
lemma addColumns_run {idUuid : String} {ps : List Property} {d d' : DataObject}
    (h : addColumns store idUuid ps d w = .ok d' w') :
    ∃ columns, d' = { d with properties := d.properties ++ columns }
      ∧ List.Forall₂ (ColumnFor idUuid) (projected store ps) columns
      ∧ w'.memo = w.memo ∧ IdSource.Drawn w.ids w'.ids (columns.map (·.uuid)) := by
  induction ps generalizing w d with
  | nil =>
      obtain ⟨rfl, rfl⟩ := run_pure_iff.mp h
      exact ⟨[], by simp, .nil, rfl, .refl _⟩
  | cons p rest ih =>
      cases htype : project? (some store.get?) p.type with
      | none =>
          simp only [addColumns, htype] at h
          obtain ⟨columns, hd, hcolumns, hmemo, hdrawn⟩ := ih h
          refine ⟨columns, hd, ?_, hmemo, hdrawn⟩
          simpa [projected, htype] using hcolumns
      | some type =>
          obtain ⟨columns, hd, hcolumns, hmemo, hdrawn⟩ := ih (addColumns_cons htype h)
          have hprojected : projected store (p :: rest) = (p, type) :: projected store rest := by
            simp [projected, htype]
          refine ⟨columnOf idUuid (IdSource.next w.ids).1 p type :: columns, ?_, ?_, hmemo, ?_⟩
          · rw [hd]
            simp [DataObject.withProperty]
          · rw [hprojected]
            refine .cons ?_ hcolumns
            rw [ColumnFor, uuid_columnOf]
          · rw [List.map_cons, uuid_columnOf]
            exact (IdSource.Drawn.next w.ids).trans hdrawn

/-! ## Mappers -/

/-- The properties that have a column of their name, with the first such column. -/
def matched (columns : List DataProperty) (ps : List Property) : List (Property × DataProperty) :=
  ps.filterMap fun p =>
    (columns.find? fun column => column.name = p.name).map fun column => (p, column)

lemma mem_matched {columns : List DataProperty} {ps : List Property} {e : Property × DataProperty}
    (h : e ∈ matched columns ps) : e.1 ∈ ps ∧ e.2 ∈ columns ∧ e.2.name = e.1.name := by
  obtain ⟨p, hp, he⟩ := List.mem_filterMap.mp h
  obtain ⟨column, hfind, rfl⟩ := Option.map_eq_some_iff.mp he
  exact ⟨hp, List.mem_of_find?_eq_some hfind, by simpa using List.find?_some hfind⟩

/-- A pair of fields is made for a property and a column. -/
def PairFor (e : Property × DataProperty) (f : FieldMapper) : Prop :=
  f = .of f.uuid e.1.uuid e.2.uuid

/-- **A pair for every property that has a column of its name**, in order. -/
lemma pairColumns_run {columns : List DataProperty} {ps : List Property} {pairs : List FieldMapper}
    (h : pairColumns columns ps w = .ok pairs w') :
    List.Forall₂ PairFor (matched columns ps) pairs
      ∧ w'.memo = w.memo ∧ IdSource.Drawn w.ids w'.ids (pairs.map (·.uuid)) := by
  induction ps generalizing w pairs with
  | nil =>
      obtain ⟨rfl, rfl⟩ := run_pure_iff.mp h
      exact ⟨.nil, rfl, .refl _⟩
  | cons p rest ih =>
      cases hfind : columns.find? fun column => column.name = p.name with
      | none =>
          simp only [pairColumns, hfind] at h
          obtain ⟨hpairs, hmemo, hdrawn⟩ := ih h
          refine ⟨?_, hmemo, hdrawn⟩
          simpa [matched, hfind] using hpairs
      | some column =>
          simp only [pairColumns, hfind] at h
          obtain ⟨uuid, w₁, hid, h⟩ := run_bind_iff.mp h
          obtain ⟨rfl, rfl⟩ := nextId_run hid
          obtain ⟨others, w₂, hrest, h⟩ := run_bind_iff.mp h
          obtain ⟨rfl, rfl⟩ := run_pure_iff.mp h
          obtain ⟨hpairs, hmemo, hdrawn⟩ := ih hrest
          have hmatched : matched columns (p :: rest) = (p, column) :: matched columns rest := by
            simp [matched, hfind]
          refine ⟨?_, hmemo, (IdSource.Drawn.next w.ids).trans hdrawn⟩
          rw [hmatched]
          exact .cons rfl hpairs

/-- A mapper is made from a class to a data object. -/
structure MapperFor (part : ObjectSource) (c : ClassBody) (d : DataObject) (m : MapperObject) :
    Prop where
  content : m =
    { uuid := m.uuid, name := c.name ++ "To" ++ d.name, source := some (.of part c.uuid c.name)
      target := some (.of .data d.uuid d.name), mappers := m.mappers }
  pairs : List.Forall₂ PairFor (matched d.properties c.properties) m.mappers

/-- The uuids of a mapper and of its pairs. -/
def mapperUuids (m : MapperObject) : List String :=
  m.uuid :: m.mappers.map (·.uuid)

lemma makeMapper_run {part : ObjectSource} {c : ClassBody} {d : DataObject} {m : MapperObject}
    (h : makeMapper part c d w = .ok m w') :
    MapperFor part c d m ∧ w'.memo = w.memo ∧ IdSource.Drawn w.ids w'.ids (mapperUuids m) := by
  obtain ⟨pairs, w₁, hpairs, h⟩ := run_bind_iff.mp h
  obtain ⟨uuid, w₂, hid, h⟩ := run_bind_iff.mp h
  obtain ⟨rfl, rfl⟩ := nextId_run hid
  obtain ⟨rfl, rfl⟩ := run_pure_iff.mp h
  obtain ⟨hforall, hmemo, hdrawn⟩ := pairColumns_run hpairs
  refine ⟨⟨rfl, hforall⟩, hmemo, ?_⟩
  refine (hdrawn.trans (.next w₁.ids)).of_perm ?_
  exact List.perm_append_singleton _ _

/-! ## The whole -/

/-- The uuids of a query and of its properties. -/
def queryUuids (q : Query) : List String :=
  q.uuid :: q.properties.map (·.uuid)

/-- The uuids of a data object and of its columns. -/
def tableUuids (d : DataObject) : List String :=
  d.uuid :: d.properties.map (·.uuid)

/-- The uuids in artifacts. -/
def uuids (a : Artifacts) : List String :=
  queryUuids a.detailQuery ++ queryUuids a.pageQuery ++ a.dtos.flatMap uuidsOf
    ++ tableUuids a.dataObject ++ mapperUuids a.mapper ++ mapperUuids a.dtoMapper

/-- What the artifacts of a root are: `pairs` are the classes that had to be carried, the root
first, with their data transfer objects, `rootDto` is that of the root, and `idInput` asks for one
object. -/
structure Generated (store : Store) (root : Entity) (ids ids' : σ) (a : Artifacts)
    (pairs : List (ClassBody × Dto)) (rootDto : Dto) (idProperty idInput : Property) : Prop where
  identified : root.idProperty? = some idProperty
  dtos : a.dtos = pairs.map (·.2)
  carried : ∀ e ∈ pairs, ClassCarried store (pairHeaders pairs) e.1 e.2
  leading : pairs.head? = some (root.toClassBody, rootDto)
  asked : idInput = { toNaming := idProperty.toNaming.withUuid idInput.uuid, type := idInput.type }
  askedType : TypeCarried store (pairHeaders pairs) idProperty.type idInput.type
  detailQuery : a.detailQuery =
    { uuid := a.detailQuery.uuid, name := root.name ++ "Query", properties := [idInput]
      result := some (reference rootDto) }
  pageQuery : a.pageQuery =
    { uuid := a.pageQuery.uuid, name := root.name ++ "PageQuery", pagination := true
      result := some (reference rootDto) }
  dataObject : a.dataObject =
    { uuid := a.dataObject.uuid, name := root.name ++ "DO", title := root.title
      description := root.description, properties := a.dataObject.properties }
  columns : List.Forall₂ (ColumnFor root.idUuid) (projected store root.properties)
    a.dataObject.properties
  mapper : MapperFor .domain root.toClassBody a.dataObject a.mapper
  dtoMapper : MapperFor .struct rootDto.toClassBody a.dataObject a.dtoMapper
  drawn : IdSource.Drawn ids ids' a.uuids

lemma Generated.rooted {root : Entity} {ids ids' : σ} {a : Artifacts}
    {pairs : List (ClassBody × Dto)} {rootDto : Dto} {idProperty idInput : Property}
    (h : Generated store root ids ids' a pairs rootDto idProperty idInput) :
    (root.toClassBody, rootDto) ∈ pairs :=
  List.mem_of_head? h.leading

/-- The ids of a supply that counts are numbered. -/
lemma Generated.minted {root : Entity} {ids ids' : IdSupply} {a : Artifacts}
    {pairs : List (ClassBody × Dto)} {rootDto : Dto} {idProperty idInput : Property}
    (h : Generated store root ids ids' a pairs rootDto idProperty idInput) :
    IdSupply.Minted ids ids' a.uuids :=
  .of_drawn h.drawn

lemma makeIdInput_run {p q : Property} (h : makeIdInput store p w = .ok q w') :
    ∃ made, q = { toNaming := p.toNaming.withUuid q.uuid, type := q.type }
      ∧ TypeCarried store (headers w'.memo) p.type q.type
      ∧ Grown store { w with ids := (IdSource.next w.ids).2 } w' (typeClasses store p.type) made
      ∧ q.uuid = (IdSource.next w.ids).1 := by
  obtain ⟨uuid, w₁, hid, h⟩ := run_bind_iff.mp h
  obtain ⟨rfl, rfl⟩ := nextId_run hid
  obtain ⟨type, w₂, hcarry, h⟩ := run_bind_iff.mp h
  obtain ⟨rfl, rfl⟩ := run_pure_iff.mp h
  obtain ⟨made, hgrown, hcarried⟩ := carry_run (make_grown store _) hcarry
  exact ⟨made, rfl, hcarried, hgrown, rfl⟩

lemma makeDataObject_run {root : Entity} {d : DataObject}
    (h : makeDataObject store root w = .ok d w') :
    d = { uuid := d.uuid, name := root.name ++ "DO", title := root.title
          description := root.description, properties := d.properties }
      ∧ List.Forall₂ (ColumnFor root.idUuid) (projected store root.properties) d.properties
      ∧ w'.memo = w.memo ∧ IdSource.Drawn w.ids w'.ids (tableUuids d) := by
  obtain ⟨uuid, w₁, hid, h⟩ := run_bind_iff.mp h
  obtain ⟨rfl, rfl⟩ := nextId_run hid
  obtain ⟨columns, rfl, hcolumns, hmemo, hdrawn⟩ := addColumns_run h
  exact ⟨rfl, hcolumns, hmemo, (IdSource.Drawn.next w.ids).trans hdrawn⟩

/-- What is made for a class that is new comes first. -/
lemma eq_cons_of_grown {c : ClassBody} {made : List (ClassBody × Dto)}
    (h : Grown store w w' [c] made) (hnew : c.uuid ∉ w.memo.entries.map (·.1)) :
    ∃ d others, made = (c, d) :: others := by
  obtain ⟨others, hothers⟩ := h.walk.eq_cons_of_new hnew
  obtain ⟨⟨_, d⟩, rest, rfl, rfl, -⟩ := List.map_eq_cons_iff.mp hothers
  exact ⟨d, rest, rfl⟩

/-- **What a generation makes.** -/
theorem generated_of_make {root : Entity} {p : Property} {ids : σ} {a : Artifacts}
    (hp : root.idProperty? = some p) (h : make store root p { ids } = .ok a w') :
    ∃ pairs rootDto idInput, Generated store root ids w'.ids a pairs rootDto p idInput := by
  obtain ⟨answer, w₁, hanswer, h⟩ := run_bind_iff.mp h
  obtain ⟨idInput, w₂, hinput, h⟩ := run_bind_iff.mp h
  obtain ⟨detailId, w₃, hdetail, h⟩ := run_bind_iff.mp h
  obtain ⟨rfl, rfl⟩ := nextId_run hdetail
  obtain ⟨pageId, w₄, hpage, h⟩ := run_bind_iff.mp h
  obtain ⟨rfl, rfl⟩ := nextId_run hpage
  obtain ⟨dataObject, w₅, hdata, h⟩ := run_bind_iff.mp h
  obtain ⟨mapper, w₆, hmapper, h⟩ := run_bind_iff.mp h
  obtain ⟨_, _, hw, h⟩ := run_bind_iff.mp h
  obtain ⟨rfl, rfl⟩ := run_get_iff.mp hw
  cases hroot : w₆.memo.get? root.uuid with
  | none =>
      simp only [hroot] at h
      exact absurd h run_throw_ne
  | some rootDto =>
      simp only [hroot] at h
      obtain ⟨dtoMapper, w₇, hdtoMapper, h⟩ := run_bind_iff.mp h
      obtain ⟨_, _, hw, h⟩ := run_bind_iff.mp h
      obtain ⟨rfl, rfl⟩ := run_get_iff.mp hw
      obtain ⟨rfl, rfl⟩ := run_pure_iff.mp h
      obtain ⟨made, hgrown, hheader⟩ := make_grown store _ _ _ _ _ hanswer
      obtain ⟨more, hasked, haskedType, hgrown', huuid⟩ := makeIdInput_run hinput
      obtain ⟨hobject, hcolumns, hmemo₅, hdrawn₅⟩ := makeDataObject_run hdata
      obtain ⟨hmapperFor, hmemo₆, hdrawn₆⟩ := makeMapper_run hmapper
      obtain ⟨hdtoMapperFor, hmemo₇, hdrawn₇⟩ := makeMapper_run hdtoMapper
      have hmemo : w₇.memo = w₂.memo := hmemo₇.trans (hmemo₆.trans hmemo₅)
      have hentries : w₂.memo.entries = (made ++ more).map entryOf := by
        rw [hgrown'.entries, hgrown.entries_of_start, List.map_append]
      have hheaders : headers w₂.memo = pairHeaders (made ++ more) := by
        rw [headers, hentries, List.map_map]
        rfl
      have hprefix : headers w₁.memo <+: headers w₂.memo := hgrown'.headers_prefix
      have hroot₂ : w₂.memo.get? root.uuid = some rootDto := by rw [← hmemo₅, ← hmemo₆, hroot]
      -- what refers to the root is known before the identifying property is carried
      obtain rfl : answer = reference rootDto := by
        have hlook := lookup_mono hprefix hheader
        rw [headers_lookup, hroot₂] at hlook
        exact (Option.some.inj hlook).symm
      refine ⟨made ++ more, rootDto, idInput,
        { identified := hp
          dtos := ?dtos
          carried := ?carried
          leading := ?leading
          asked := hasked
          askedType := hheaders ▸ haskedType
          detailQuery := rfl
          pageQuery := rfl
          dataObject := hobject
          columns := hcolumns
          mapper := hmapperFor
          dtoMapper := hdtoMapperFor
          drawn := ?drawn }⟩
      case dtos =>
        change w₇.memo.toList = _
        rw [hmemo, Memo.toList_eq, hentries, List.map_map]
        rfl
      case carried =>
        rw [← hheaders]
        intro e he
        rcases List.mem_append.mp he with he | he
        · exact (hgrown.complete e he).mono hprefix
        · exact hgrown'.complete e he
      case leading =>
        obtain ⟨d, others, rfl⟩ := eq_cons_of_grown hgrown (by simp)
        have hfirst : w₂.memo.get? root.uuid = some d := by
          rw [Memo.get?_eq, hentries, List.cons_append, List.map_cons, entryOf,
            List.lookup_cons_self]
        rw [hroot₂] at hfirst
        rw [Option.some.inj hfirst]
        rfl
      case drawn =>
        have hall := hgrown.drawn.trans ((IdSource.Drawn.next w₁.ids).trans (hgrown'.drawn.trans
          ((IdSource.Drawn.next w₂.ids).trans ((IdSource.Drawn.next _).trans (hdrawn₅.trans
            (hdrawn₆.trans hdrawn₇))))))
        -- the ids are drawn in another order than the one in which the artifacts list them
        refine hall.of_perm (List.perm_iff_count.mpr fun x => ?_)
        have hdtos : w₇.memo.toList.flatMap uuidsOf
            = (made.flatMap fun e => uuidsOf e.2) ++ more.flatMap fun e => uuidsOf e.2 := by
          rw [hmemo, Memo.toList_eq, hentries, List.map_map, List.flatMap_map, List.flatMap_append]
          rfl
        simp only [uuids, hdtos, queryUuids, huuid, List.map_cons, List.map_nil, List.count_append,
          List.count_cons, List.count_nil]
        omega

/-- **What a successful generation makes.** -/
theorem generated_of_generate {root : Entity} {ids ids' : σ} {a : Artifacts}
    (h : generateFrom store root ids = (.ok a, ids')) :
    ∃ pairs rootDto idProperty idInput,
      Generated store root ids ids' a pairs rootDto idProperty idInput := by
  rw [generateFrom] at h
  cases hrun : (ofRoot store root).run { ids } with
  | error e w =>
      rw [hrun] at h
      cases h
  | ok b w =>
      rw [hrun] at h
      cases h
      rw [ofRoot, EStateM.run] at hrun
      split at hrun
      case isFalse => exact absurd hrun run_throw_ne
      case isTrue =>
        cases hp : root.idProperty? with
        | none =>
            rw [hp] at hrun
            exact absurd hrun run_throw_ne
        | some p =>
            rw [hp] at hrun
            obtain ⟨pairs, rootDto, idInput, hgenerated⟩ := generated_of_make hp hrun
            exact ⟨pairs, rootDto, p, idInput, hgenerated⟩

end DomainDesign.Artifacts
