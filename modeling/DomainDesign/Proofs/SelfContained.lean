import DomainDesign.Proofs.CarriedTypes
import DomainDesign.Proofs.GenerationSuccess
import DomainDesign.Tree.Basic

/-!
# Artifacts are self-contained

What makes it possible to compile the artifacts of a generation on their own: all uuids are
different, types refer to data transfer objects that are among the artifacts, columns have bare
types, and the fields that the mapper pairs are there.  `selfContained_of_generated` reads this off
what a generation makes.

Not all of it depends on the ids.  That all references lead to data transfer objects of the
artifacts is so whatever the ids are, and whatever there is in the store: `no_dangling_references`.
-/

namespace DomainDesign.Artifacts

open Model Carrier

/-- A type has its parameters in key order and refers to data transfer objects of the artifacts
only. -/
structure Closed (a : Artifacts) (type : Option TypeExpr) : Prop where
  ordered : TypeExpr.Ordered? type
  known : ∀ id ∈ TypeExpr.targets? type, ∃ d ∈ a.dtos, d.uuid = id

/-- The artifacts do not depend on anything else. -/
structure SelfContained (a : Artifacts) (rootDto : Dto) : Prop where
  distinct : a.uuids.Nodup
  ne_empty : ∀ id ∈ a.uuids, id ≠ ""
  ne_root : ∀ id ∈ a.uuids, id ≠ defaultRootId
  named : ∀ d ∈ a.dtos, d.name ≠ ""
  dtoTypes : ∀ d ∈ a.dtos, ∀ p ∈ d.properties, a.Closed p.type
  plain : ∀ d ∈ a.dtos, d.methods = [] ∧ d.classProperties = [] ∧ d.classMethods = []
  queryTypes : ∀ q ∈ [a.detailQuery, a.pageQuery], ∀ p ∈ q.properties, a.Closed p.type
  rooted : rootDto ∈ a.dtos
  answers : ∀ q ∈ [a.detailQuery, a.pageQuery], q.result = some (reference rootDto)
  bare : ∀ p ∈ a.dataObject.properties, ∃ k, k ≠ .reference ∧ p.type = .ofKind k
  keys : ∀ p ∈ a.dataObject.properties, p.isPrimaryKey = true → p.notNull = some true
  source : a.dtoMapper.source = some (.of .struct rootDto.uuid rootDto.name)
  target : a.dtoMapper.target = some (.of .data a.dataObject.uuid a.dataObject.name)
  pairs : List.Forall₂ PairFor (matched a.dataObject.properties rootDto.properties)
    a.dtoMapper.mappers

variable {σ : Type} [IdSource σ] {store : Store} {root : Entity} {ids ids' : σ} {a : Artifacts}
  {pairs : List (ClassBody × Dto)} {rootDto : Dto} {idProperty idInput : Property}

/-! ## Types -/

/-- A type that a generation carries refers to data transfer objects of the artifacts. -/
lemma Generated.references_carried
    (h : Generated store root ids ids' a pairs rootDto idProperty idInput)
    {source target : Option TypeExpr} (ht : TypeCarried store (pairHeaders pairs) source target) :
    ∀ r ∈ TypeExpr.references? target, ∃ d ∈ a.dtos, r = (d.uuid, d.name) := by
  intro r hr
  obtain ⟨e, he, rfl⟩ := ht.references r hr
  exact ⟨e.2, h.dtos ▸ List.mem_map_of_mem he, rfl⟩

/-- A type that a generation carries is closed. -/
lemma Generated.closed (h : Generated store root ids ids' a pairs rootDto idProperty idInput)
    {source target : Option TypeExpr} (ht : TypeCarried store (pairHeaders pairs) source target) :
    a.Closed target := by
  refine ⟨ht.ordered, fun id hid => ?_⟩
  rw [← TypeExpr.map_fst_references?] at hid
  obtain ⟨r, hr, rfl⟩ := List.mem_map.mp hid
  obtain ⟨d, hd, rfl⟩ := h.references_carried ht r hr
  exact ⟨d, hd, rfl⟩

/-- Every data transfer object carries a class. -/
lemma Generated.exists_class (h : Generated store root ids ids' a pairs rootDto idProperty idInput)
    {d : Dto} (hd : d ∈ a.dtos) : ∃ c, ClassCarried store (pairHeaders pairs) c d := by
  rw [h.dtos] at hd
  obtain ⟨e, he, rfl⟩ := List.mem_map.mp hd
  exact ⟨e.1, h.carried e he⟩

/-! ## Columns -/

/-- A type is never projected to a reference. -/
lemma defaultKind_ne_reference (base : String) : defaultKind base ≠ .reference := by
  unfold defaultKind compatibleKinds
  repeat' split
  all_goals decide

lemma codeKind_ne_reference (base : EnumBase) : codeKind base ≠ .reference := by
  cases base <;> decide

lemma project?_bare {find : Option Lookup} {type : Option TypeExpr} {s : Storage}
    (h : project? find type = some s) : ∃ k, k ≠ .reference ∧ s = .ofKind k := by
  unfold project? at h
  split at h
  case h_1 => exact ⟨_, defaultKind_ne_reference _, (Option.some.inj h).symm⟩
  case h_2 =>
    obtain ⟨find, -, h⟩ := Option.bind_eq_some_iff.mp h
    obtain ⟨entry, -, h⟩ := Option.bind_eq_some_iff.mp h
    split at h
    · exact ⟨_, codeKind_ne_reference _, (Option.some.inj h).symm⟩
    · cases h
  case h_3 => cases h
  case h_4 => cases h

/-- What a column is made for. -/
lemma Generated.exists_projected
    (h : Generated store root ids ids' a pairs rootDto idProperty idInput)
    {column : DataProperty} (hcolumn : column ∈ a.dataObject.properties) :
    ∃ p type, project? (some store.get?) p.type = some type
      ∧ column = columnOf root.idUuid column.uuid p type := by
  obtain ⟨⟨p, type⟩, hmem, heq⟩ := exists_of_mem_right h.columns hcolumn
  obtain ⟨q, -, hq⟩ := List.mem_filterMap.mp hmem
  obtain ⟨type', htype, hpair⟩ := Option.map_eq_some_iff.mp hq
  cases hpair
  exact ⟨p, type, htype, heq⟩

lemma type_columnOf (idUuid uuid : String) (p : Property) (type : Storage) :
    (columnOf idUuid uuid p type).type = type := by
  rw [columnOf]
  split <;> rfl

lemma notNull_columnOf (idUuid uuid : String) (p : Property) (type : Storage)
    (h : (columnOf idUuid uuid p type).isPrimaryKey = true) :
    (columnOf idUuid uuid p type).notNull = some true := by
  rw [columnOf] at h ⊢
  split
  case isTrue => rfl
  case isFalse hne =>
    rw [if_neg hne] at h
    cases h

/-- **The artifacts of a generation are self-contained**, where the ids are counted. -/
theorem selfContained_of_generated {ids ids' : IdSupply}
    (h : Generated store root ids ids' a pairs rootDto idProperty idInput) :
    a.SelfContained rootDto where
  distinct := h.minted.nodup
  ne_empty id hid := h.minted.ne_of_no_hyphen hid (by simp)
  ne_root id hid := h.minted.ne_of_no_hyphen hid (by decide)
  named d hd := by
    obtain ⟨c, hc⟩ := h.exists_class hd
    rw [hc.shell]
    simp [Carrier.shell]
  dtoTypes d hd p hp := by
    obtain ⟨c, hc⟩ := h.exists_class hd
    obtain ⟨source, -, hsource⟩ := exists_of_mem_right hc.properties hp
    exact h.closed hsource.type
  plain d hd := by
    obtain ⟨c, hc⟩ := h.exists_class hd
    rw [hc.shell]
    exact ⟨rfl, rfl, rfl⟩
  queryTypes := by
    -- the query for one object asks for its key, and the query for a page asks for nothing
    rw [List.forall_mem_cons, List.forall_mem_singleton]
    refine ⟨fun p hp => ?_, fun p hp => ?_⟩
    · rw [h.detailQuery] at hp
      obtain rfl := List.mem_singleton.mp hp
      exact h.closed h.askedType
    · rw [h.pageQuery] at hp
      cases hp
  rooted := by
    rw [h.dtos]
    exact List.mem_map_of_mem h.rooted
  answers := by
    rw [List.forall_mem_cons, List.forall_mem_singleton, h.detailQuery, h.pageQuery]
    exact ⟨rfl, rfl⟩
  bare column hcolumn := by
    obtain ⟨p, type, htype, heq⟩ := h.exists_projected hcolumn
    obtain ⟨k, hk, rfl⟩ := project?_bare htype
    refine ⟨k, hk, ?_⟩
    rw [heq, type_columnOf]
  keys column hcolumn hkey := by
    obtain ⟨p, type, -, heq⟩ := h.exists_projected hcolumn
    rw [heq] at hkey ⊢
    exact notNull_columnOf _ _ _ _ hkey
  source := by rw [h.dtoMapper.content]
  target := by rw [h.dtoMapper.content]
  pairs := h.dtoMapper.pairs

/-! ## References -/

/-- The types in the data transfer objects and in the queries. -/
def types (a : Artifacts) : List (Option TypeExpr) :=
  (a.dtos.flatMap (·.properties) ++ a.detailQuery.properties ++ a.pageQuery.properties).map (·.type)
    ++ [a.detailQuery.result, a.pageQuery.result]

/-- All references in the artifacts lead to data transfer objects of the artifacts. -/
lemma Generated.references_types
    (h : Generated store root ids ids' a pairs rootDto idProperty idInput) :
    ∀ type ∈ a.types, ∀ r ∈ TypeExpr.references? type, ∃ d ∈ a.dtos, r = (d.uuid, d.name) := by
  have hroot : ∀ r ∈ TypeExpr.references? (some (reference rootDto)),
      ∃ d ∈ a.dtos, r = (d.uuid, d.name) := by
    intro r hr
    refine ⟨rootDto, h.dtos ▸ List.mem_map_of_mem h.rooted, ?_⟩
    exact List.mem_singleton.mp hr
  have hdetail : a.detailQuery.properties = [idInput]
      ∧ a.detailQuery.result = some (reference rootDto) := by
    rw [h.detailQuery]
    exact ⟨rfl, rfl⟩
  have hpage : a.pageQuery.properties = [] ∧ a.pageQuery.result = some (reference rootDto) := by
    rw [h.pageQuery]
    exact ⟨rfl, rfl⟩
  rw [types, hdetail.1, hdetail.2, hpage.1, hpage.2, List.append_nil, List.map_append]
  simp only [List.forall_mem_append, List.map_cons, List.map_nil, List.forall_mem_singleton,
    List.forall_mem_cons, List.forall_mem_map]
  refine ⟨⟨fun p hp => ?_, h.references_carried h.askedType⟩, hroot, hroot⟩
  obtain ⟨d, hd, hp⟩ := List.mem_flatMap.mp hp
  obtain ⟨c, hc⟩ := h.exists_class hd
  obtain ⟨source, -, hsource⟩ := exists_of_mem_right hc.properties hp
  exact h.references_carried hsource.type

/-- What can stop a generation: the root is not valid, or a reference cannot be carried. -/
lemma generate_error (ids : σ) {e : Error} (h : (generateFrom store root ids).1 = .error e) :
    (∃ detail, e = .validation detail) ∨ ∃ id detail, e = .unsupportedReference id detail := by
  by_cases hroot : Identified root
  · obtain ⟨hflag, p, hp⟩ := identified_iff.mp hroot
    obtain ⟨met, entered, htour⟩ := exists_tour store (propertyTargets root.properties) [root.uuid]
    obtain ⟨hok, herror⟩ := generate_outcome ids hflag hp htour
    cases hfirst : met.findSome? (refusal? store) with
    | none =>
        obtain ⟨a, ha⟩ := hok hfirst
        rw [ha] at h
        cases h
    | some first =>
        rw [herror first hfirst] at h
        cases h
        exact .inr (of_findSome?_refusal? hfirst)
  · obtain ⟨detail, hinvalid⟩ := generate_of_not_identified (σ := σ) ids hroot
    rw [hinvalid] at h
    cases h
    exact .inl ⟨detail, rfl⟩

/-- **No reference dangles, and nothing goes wrong inside.**  Whatever is in the store and whatever
the ids are, a generation neither uses a uuid of the memo twice nor loses what it has made, and all
references in what it makes lead to its data transfer objects, under their uuids and names. -/
theorem no_dangling_references (store : Store) (root : Entity) (ids : σ) :
    (∀ uuid, (generateFrom store root ids).1 ≠ .error (.memoCollision uuid))
      ∧ (∀ detail, (generateFrom store root ids).1 ≠ .error (.internal detail))
      ∧ ∀ a, (generateFrom store root ids).1 = .ok a →
          ∀ type ∈ a.types, ∀ r ∈ TypeExpr.references? type,
            ∃ d ∈ a.dtos, r = (d.uuid, d.name) := by
  refine ⟨fun uuid h => ?_, fun detail h => ?_, fun a h => ?_⟩
  · rcases generate_error ids h with ⟨_, he⟩ | ⟨_, _, he⟩ <;> cases he
  · rcases generate_error ids h with ⟨_, he⟩ | ⟨_, _, he⟩ <;> cases he
  · obtain ⟨pairs, rootDto, idProperty, idInput, hgenerated⟩ :=
      generated_of_generate (Prod.ext h rfl)
    exact hgenerated.references_types

/-- An invoice whose parts are stored under other ids than their uuids: two of them have the same
uuid, and another one has that of the invoice. -/
def invoice : Entity :=
  { uuid := "invoice", name := "Invoice", idUuid := "p1", isAggregationRoot := true
    properties :=
      [.of "p1" "number" (.reference "discount-1" "Discount"),
        .of "p2" "lines" (.list (.reference "line-1" "Line")),
        .of "p3" "copies" (.map (.base "String") (.reference "copy" "Copy"))] }

def invoiceStore : Store :=
  .ofEntries
    [{ id := "line-1"
       object := .entity
         { uuid := "part", name := "Line"
           properties := [.of "p4" "invoice" (.reference "copy" "Copy")] } },
      { id := "discount-1"
        object := .valueObject
          { uuid := "part", name := "Discount"
            properties := [.of "p5" "line" (.reference "line-1" "Line")] } },
      { id := "copy", object := .entity { uuid := "invoice", name := "Copy" } }]

theorem no_dangling_references_invoice :
    ∃ a, (generateFrom invoiceStore invoice ({} : RandomIds)).1 = .ok a
      ∧ a.dtos.map (·.name) = ["InvoiceDTO", "DiscountDTO"]
      ∧ ∀ type ∈ a.types, ∀ r ∈ TypeExpr.references? type, ∃ d ∈ a.dtos, r = (d.uuid, d.name) := by
  have hnames : (generateFrom invoiceStore invoice ({} : RandomIds)).1.map
      (fun a => a.dtos.map (·.name)) = .ok ["InvoiceDTO", "DiscountDTO"] := by decide +kernel
  obtain ⟨a, ha, hdtos⟩ := map_ok_iff.mp hnames
  exact ⟨a, ha, hdtos, (no_dangling_references invoiceStore invoice ({} : RandomIds)).2.2 a ha⟩

end DomainDesign.Artifacts
