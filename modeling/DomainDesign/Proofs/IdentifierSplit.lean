import DomainDesign.Proofs.Ownership

/-!
# The identifying property of an entity

An entity names the property that identifies it by its uuid.  The compiler takes this property out
of the list of the others.  Two things do not come out as one may expect, and `identifier_not_split`
has an entity for each.  A name that is empty names nothing, though there may be a property with an
empty uuid.  And where several properties have the uuid that is named, it is not the others alone
that stay in the list.

`identifier_split` says what holds.  Unless the name is empty, the identifying property is the one
that the entity says; the properties with other uuids stay in their order; and where no two have the
uuid that is named, every property is in one of the two places, once.
-/

namespace DomainDesign.Compile

open Compiled

/-! ## What identifies an entity -/

/-- The property that identifies an entity stands apart, and all others stay in order. -/
structure SplitExactly (t : Tree) (c : Config) (e : Model.Entity) (compiled : Entity) : Prop where
  id : compiled.id = e.idProperty?.map (property t c)
  others : compiled.properties
    = (e.properties.eraseP fun p => p.uuid = e.idUuid).map (property t c)

/-- A property has the uuid that an entity names. -/
def identifies (e : Model.Entity) (uuid : String) : Bool :=
  !e.idUuid.isEmpty && uuid = e.idUuid

/-- How the properties of an entity are split: what identifies it, unless it names nothing, and the
properties with other uuids. -/
structure SplitOf (t : Tree) (c : Config) (e : Model.Entity) (compiled : Entity) : Prop where
  id : compiled.id = if e.idUuid = "" then none else e.idProperty?.map (property t c)
  others : compiled.properties.filter (fun q => !identifies e q.uuid)
    = (e.properties.filter fun p => !identifies e p.uuid).map (property t c)
  /-- Where at most one property has the uuid that is named, nothing is lost. -/
  lossless : (e.properties.filter fun p => identifies e p.uuid).length ≤ 1 →
    compiled.properties = (e.properties.filter fun p => !identifies e p.uuid).map (property t c)
      ∧ (compiled.id.toList ++ compiled.properties).Perm (e.properties.map (property t c))

/-- An entity is that of a node, and its properties are split. -/
structure SplitAt (t : Tree) (c : Config) (n : Node) (compiled : Entity) : Prop where
  kind : n.kind = .entity
  content : ∃ e, Model.Entity.ofJson? (.obj n.properties) = some e ∧ SplitOf t c e compiled

instance (t : Tree) (c : Config) (e : Model.Entity) (compiled : Entity) :
    Decidable (SplitExactly t c e compiled) :=
  decidable_of_iff (_ ∧ _) ⟨fun h => ⟨h.1, h.2⟩, fun h => ⟨h.id, h.others⟩⟩

variable {t : Tree} {c : Config} {n : Node} {e : Model.Entity} {compiled : Entity}

/-! ## One entity -/

/-- The uuid under the default setting is the one that the entity is read with. -/
lemma idUuid_eq (hc : c.idField = "id")
    (hread : Model.Entity.ofJson? (.obj n.properties) = some e) : idUuid c n e = e.idUuid := by
  simp only [Model.Entity.ofJson?, Json.object?, Option.bind_eq_bind, Option.bind_some,
    Option.bind_eq_some_iff] at hread
  obtain ⟨body, -, uuid, huuid, _, -, heq⟩ := hread
  cases heq
  rw [idUuid, hc, Node.text?]
  rw [Json.orDefault] at huuid
  cases hlook : n.properties.lookup "id" with
  | none => rfl
  | some j =>
      simp only [hlook] at huuid
      rw [Option.bind_some, huuid, Option.getD_some]

/-- What an entity is compiled to, by the uuid that it names. -/
lemma split_of_entity (hid : idUuid c n e = e.idUuid) (h : entity t c n e = .ok compiled) :
    compiled.id = (e.properties.find? fun p => identifies e p.uuid).map (property t c)
      ∧ compiled.properties
        = (e.properties.filter fun p => !identifies e p.uuid).map (property t c) := by
  simp only [entity, bind_ok_iff, hid] at h
  obtain ⟨body, hbody, heq⟩ := h
  cases heq
  rw [properties_of_classBody hbody]
  -- a property is compiled under its own uuid, so it can be chosen before or after
  exact ⟨List.find?_map, List.filter_map⟩

lemma identifies_eq_false (h : e.idUuid = "") (uuid : String) : identifies e uuid = false := by
  simp [identifies, h]

lemma find?_identifies (h : e.idUuid ≠ "") :
    (e.properties.find? fun p => identifies e p.uuid) = e.idProperty? := by
  simp [identifies, Model.Entity.idProperty?, String.isEmpty_eq_false_iff.mpr h]

/-- Where at most one item is chosen, it and the others are all there are. -/
lemma perm_find?_filter {α : Type} {items : List α} {chosen : α → Bool}
    (h : (items.filter chosen).length ≤ 1) :
    ((items.find? chosen).toList ++ items.filter fun a => !chosen a).Perm items := by
  have hfirst : (items.find? chosen).toList = items.filter chosen := by
    rw [← List.head?_filter]
    match items.filter chosen, h with
    | [], _ => rfl
    | [_], _ => rfl
  rw [hfirst]
  exact List.filter_append_perm chosen items

/-- **How an entity is split.** -/
lemma splitOf_of_entity (hid : idUuid c n e = e.idUuid) (h : entity t c n e = .ok compiled) :
    SplitOf t c e compiled := by
  obtain ⟨hfirst, hothers⟩ := split_of_entity hid h
  refine ⟨?_, ?_, fun hone => ⟨hothers, ?_⟩⟩
  · rw [hfirst]
    split
    next hempty => simp [identifies_eq_false hempty]
    next hnamed => rw [find?_identifies hnamed]
  · rw [hothers, List.filter_map, List.filter_filter]
    simp [property, naming]
  · rw [hfirst, hothers, Option.toList_map, ← List.map_append]
    exact (perm_find?_filter hone).map _

/-! ## The entities of a domain model -/

/-- The entities of an aggregation are among the parts. -/
lemma entities_of_mem_sections {parts : List DomainPart} {s : String × Slot}
    (hs : s ∈ sections parts) (h : compiled ∈ s.2.entities) :
    ∃ part ∈ parts, part.entityIn? s.1 = some compiled := by
  induction parts with
  | nil => simp [sections] at hs
  | cons part rest ih =>
      rw [sections_cons, List.mem_append] at hs
      rcases hs with hs | hs
      · -- an aggregation that has just been visited has the members that come after it
        cases part <;> simp [sections] at hs
        rw [hs] at h ⊢
        obtain ⟨part, hpart, heq⟩ := List.mem_filterMap.mp h
        exact ⟨part, List.mem_cons_of_mem _ hpart, heq⟩
      · obtain ⟨part, hpart, heq⟩ := ih hs
        exact ⟨part, List.mem_cons_of_mem _ hpart, heq⟩

/-- Every entity of a domain model is what a visited node was compiled to. -/
lemma part_of_mem_aggregates {r : Report DomainModel} (h : domainModel t c = .ok r)
    {a : Aggregate} (ha : a ∈ r.result.aggregates)
    (hmem : compiled ∈ a.root.toList ++ a.entities) :
    ∃ n ∈ t.visitOrder, ∃ owner, PartOf t c n (.entity n.id owner compiled) := by
  obtain ⟨parts, hparts, rfl⟩ := parts_of_domainModel h
  rw [aggregates_of_settle (nodup_sections hparts) (nodup_commandEntries hparts)] at ha
  obtain ⟨s, hs, rfl⟩ := List.mem_map.mp ha
  obtain ⟨part, hpart, heq⟩ :=
    entities_of_mem_sections hs ((rootApart s.2.entities).mem_of_mem hmem)
  obtain ⟨n, hn, -, hof⟩ := exists_of_mem_right hparts hpart
  cases hof with
  | entity hkind hread hcompile =>
      simp only [DomainPart.entityIn?, Option.ite_none_right_eq_some, Option.some.injEq] at heq
      obtain ⟨-, rfl⟩ := heq
      exact ⟨n, hn, _, .entity hkind hread hcompile⟩
  | _ => simp [DomainPart.entityIn?] at heq

/-- What an entity at a node is compiled to is split. -/
lemma splitAt_of_partOf (hc : c.idField = "id") {id : String} {owner : Option String}
    (h : PartOf t c n (.entity id owner compiled)) : SplitAt t c n compiled := by
  cases h with
  | entity hkind hread hcompile =>
      exact ⟨hkind, _, hread, splitOf_of_entity (idUuid_eq hc hread) hcompile⟩

/-- **The identifying property is split out.**  Under the default setting this holds of every entity
that is compiled by itself, and of every entity that a domain model has. -/
theorem identifier_split (hc : c.idField = "id") :
    (∀ n id owner compiled, domainPart t c n = .ok (.entity id owner compiled) →
        SplitAt t c n compiled)
      ∧ ∀ r, domainModel t c = .ok r →
        ∀ a ∈ r.result.aggregates, ∀ compiled ∈ a.root.toList ++ a.entities,
          ∃ n ∈ t.visitOrder, SplitAt t c n compiled := by
  constructor
  · intro n id owner compiled h
    exact splitAt_of_partOf hc (partOf_of_domainPart h)
  · intro r hr a ha compiled hmem
    obtain ⟨n, hn, owner, hpart⟩ := part_of_mem_aggregates hr ha hmem
    exact ⟨n, hn, splitAt_of_partOf hc hpart⟩

/-- An order with properties, and the uuid of the one that identifies it. -/
def orderWith (idUuid : String) (properties : List Model.Property) : Model.Entity :=
  { uuid := "order", name := "Order", idUuid, isAggregationRoot := true, properties }

/-- A domain with one aggregation, whose root is an entity. -/
def salesOf (e : Model.Entity) : Tree :=
  let sales := Model.Aggregation.toJson { uuid := "sales", name := "Sales" }
  (Tree.empty.wire "__ROOT__" (Node.make "sales" .aggregation sales)).wire "sales"
    (Node.make "order" .entity e.toJson)

/-- The names of the identifying property and of the others, for the roots of a domain model. -/
def rootNames (m : DomainModel) : List (Option String × List String) :=
  (m.aggregates.flatMap (·.root.toList)).map fun e =>
    (e.id.map (·.name), e.properties.map (·.name))

/-- An order that is identified by its number. -/
def numberedOrder : Model.Entity :=
  orderWith "p1" [.of "p2" "total" (.base "Double"), .of "p1" "number" (.base "Long")]

theorem identifier_split_numberedOrder :
    ({} : Config).idField = "id"
      ∧ ∃ r, domainModel (salesOf numberedOrder) {} = .ok r
        ∧ (∀ a ∈ r.result.aggregates, ∀ compiled ∈ a.root.toList ++ a.entities,
            ∃ n ∈ (salesOf numberedOrder).visitOrder,
              SplitAt (salesOf numberedOrder) {} n compiled)
        ∧ rootNames r.result = [(some "number", ["total"])] := by
  have hnames : (domainModel (salesOf numberedOrder) {}).map (fun r => rootNames r.result)
      = .ok [(some "number", ["total"])] := by decide +kernel
  obtain ⟨r, hr, heq⟩ := map_ok_iff.mp hnames
  exact ⟨rfl, r, hr, (identifier_split rfl).2 r hr, heq⟩

/-- An order that names no property, where the number has no uuid. -/
def unnamedOrder : Model.Entity :=
  orderWith "" [.of "" "number" (.base "Long"), .of "p1" "total" (.base "Double")]

/-- An order whose number and note have one uuid, which it names. -/
def repeatedOrder : Model.Entity :=
  orderWith "p1" [.of "p1" "number" (.base "Long"), .of "p2" "total" (.base "Double"),
    .of "p1" "note" (.base "String")]

/-- The entities that are read in a tree. -/
def entitiesRead (t : Tree) : List Model.Entity :=
  (t.visitOrder.filter fun n => n.kind = .entity).filterMap fun n =>
    Model.Entity.ofJson? (.obj n.properties)

/-- The roots of a domain model with one entity are split exactly. -/
def RootsExact (e : Model.Entity) (m : DomainModel) : Prop :=
  ∀ a ∈ m.aggregates, ∀ compiled ∈ a.root.toList, SplitExactly (salesOf e) {} e compiled

instance (e : Model.Entity) (m : DomainModel) : Decidable (RootsExact e m) :=
  inferInstanceAs (Decidable (∀ a ∈ m.aggregates, ∀ compiled ∈ a.root.toList, _))

/-- **An identifying property may not be split out, and others may be lost.**  The number of the
first order stays with the total, and the note of the second is nowhere. -/
theorem identifier_not_split :
    (entitiesRead (salesOf unnamedOrder) = [unnamedOrder]
        ∧ unnamedOrder.idProperty?.map (·.name) = some "number"
        ∧ ∃ r, domainModel (salesOf unnamedOrder) {} = .ok r
          ∧ ¬ RootsExact unnamedOrder r.result
          ∧ rootNames r.result = [(none, ["number", "total"])])
      ∧ entitiesRead (salesOf repeatedOrder) = [repeatedOrder]
      ∧ ∃ r, domainModel (salesOf repeatedOrder) {} = .ok r
        ∧ ¬ RootsExact repeatedOrder r.result
        ∧ rootNames r.result = [(some "number", ["total"])] := by
  have hunnamed : (domainModel (salesOf unnamedOrder) {}).map
      (fun r => (decide (RootsExact unnamedOrder r.result), rootNames r.result))
      = .ok (false, [(none, ["number", "total"])]) := by decide +kernel
  have hrepeated : (domainModel (salesOf repeatedOrder) {}).map
      (fun r => (decide (RootsExact repeatedOrder r.result), rootNames r.result))
      = .ok (false, [(some "number", ["total"])]) := by decide +kernel
  obtain ⟨r, hr, heq⟩ := map_ok_iff.mp hunnamed
  obtain ⟨r', hr', heq'⟩ := map_ok_iff.mp hrepeated
  obtain ⟨hnot, hnames⟩ := Prod.mk.inj heq
  obtain ⟨hnot', hnames'⟩ := Prod.mk.inj heq'
  exact ⟨⟨by decide +kernel, rfl, r, hr, of_decide_eq_false hnot, hnames⟩,
    by decide +kernel, r', hr', of_decide_eq_false hnot', hnames'⟩

end DomainDesign.Compile
