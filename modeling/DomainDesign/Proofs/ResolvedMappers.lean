import DomainDesign.Proofs.MapperSides

/-!
# What becomes of mappers

A mapper is compiled against a lookup: its sides are found by id, and its pairs are the names of
fields that are found by uuid.  What is not found is left out.  `mappers_exact` says that nothing
else is, and that nothing is made up: there is a record for every visited mapper whose sides lead to
objects that can be mapped, with a pair for every declared pair whose fields are both there.

**Fields.**  Every kind of object has a list of its own that fields are sought in.  `fields` is that
list, and `fieldName?_eq_some_iff` says that the first field with a uuid gives the name.

**Leaving out.**  What is kept of a list is said twice, by a condition on what is declared and by a
relation to what is compiled.  `isSome_mapper_iff` and `isSome_pair?_iff` say that the conditions
are the right ones.
-/

namespace DomainDesign

open Compiled

/-! ## What is sought -/

/-- The properties, columns or members of an object, in order. -/
def StoredObject.fields : StoredObject → List Model.Naming
  | .entity e => e.properties.map (·.toNaming)
  | .valueObject v => v.properties.map (·.toNaming)
  | .enumeration e => e.members.map (·.toNaming)
  | .dto d => d.properties.map (·.toNaming)
  | .dataObject d => d.properties.map (·.toNaming)

namespace Compile

/-- The kind that an object is mapped as. -/
inductive MappedAs : StoredObject → ObjectKind → Prop
  | entity (e : Model.Entity) : MappedAs (.entity e) .entity
  | valueObject (v : Model.ValueObject) : MappedAs (.valueObject v) .valueObject
  | dto (d : Model.Dto) : MappedAs (.dto d) .dto
  | dataObject (d : Model.DataObject) : MappedAs (.dataObject d) .dataObject

/-- A side of a mapper leads to an object that can be mapped. -/
def Leads (find : Lookup) (r : Option Model.ObjectReference) : Prop :=
  ∃ ref ∈ r, ref.referenceId ≠ ""
    ∧ ∃ e ∈ find ref.referenceId, e.object.kind ≠ .enumeration

instance (find : Lookup) (r : Option Model.ObjectReference) : Decidable (Leads find r) :=
  inferInstanceAs (Decidable (∃ ref ∈ r, _))

/-- A node is a mapper, and both sides of it lead to objects that can be mapped. -/
def IsMapped (find : Lookup) (n : Node) : Prop :=
  n.kind = .mapperObject ∧ ∃ written ∈ Model.MapperObject.ofJson? (.obj n.properties),
    Leads find written.source ∧ Leads find written.target

instance (find : Lookup) (n : Node) : Decidable (IsMapped find n) :=
  inferInstanceAs (Decidable (_ ∧ ∃ written ∈ Model.MapperObject.ofJson? (.obj n.properties), _))

/-- A pair of fields names a field of each object. -/
def IsPaired (source target : StoredObject) (f : Model.FieldMapper) : Prop :=
  (∃ id ∈ f.source, ∃ g ∈ source.fields, g.uuid = id)
    ∧ ∃ id ∈ f.target, ∃ g ∈ target.fields, g.uuid = id

instance (source target : StoredObject) (f : Model.FieldMapper) :
    Decidable (IsPaired source target f) :=
  inferInstanceAs (Decidable ((∃ id ∈ f.source, _) ∧ ∃ id ∈ f.target, _))

/-! ## What is compiled -/

/-- The first field of an object with a uuid has a name. -/
def FirstField (object : StoredObject) (id name : String) : Prop :=
  ∃ before f after, object.fields = before ++ f :: after ∧ f.uuid = id ∧ f.name = name
    ∧ ∀ g ∈ before, g.uuid ≠ id

/-- A compiled side is that of an object that a declared side leads to. -/
structure SideOf (find : Lookup) (r : Option Model.ObjectReference) (object : StoredObject)
    (side : ObjectRef) : Prop where
  found : ∃ ref e, r = some ref ∧ ref.referenceId ≠ "" ∧ find ref.referenceId = some e
    ∧ e.object = object ∧ side.parent = e.parent.map (·.name)
  name : side.name = object.name
  kind : MappedAs object side.kind

/-- A compiled pair is that of a declared one. -/
structure PairOf (source target : StoredObject) (f : Model.FieldMapper) (pair : FieldPair) :
    Prop where
  source : ∃ id, f.source = some id ∧ FirstField source id pair.sourceField
  target : ∃ id, f.target = some id ∧ FirstField target id pair.targetField

/-- A compiled mapper is that of a node. -/
structure RecordOf (find : Lookup) (n : Node) (m : MapperObject) : Prop where
  uuid : m.uuid = n.id
  content : ∃ written source target, Model.MapperObject.ofJson? (.obj n.properties) = some written
    ∧ m.toNaming = nodeNaming n written.toNaming
    ∧ SideOf find written.source source m.source ∧ SideOf find written.target target m.target
    ∧ List.Forall₂ (PairOf source target) (written.mappers.filter fun f => IsPaired source target f)
      m.pairs

variable {find : Lookup} {r : Option Model.ObjectReference} {object source target : StoredObject}
  {side : ObjectRef} {f : Model.FieldMapper} {n : Node} {m : MapperObject}
  {written : Model.MapperObject} {t : Tree} {c : Config}

/-! ## Sides -/

lemma mapperKind?_eq_some_iff {kind : ObjectKind} :
    object.mapperKind? = some kind ↔ MappedAs object kind := by
  constructor
  · intro h
    cases object <;> cases h <;> constructor
  · rintro (_ | _ | _ | _) <;> rfl

lemma exists_mappedAs_iff : (∃ kind, MappedAs object kind) ↔ object.kind ≠ .enumeration := by
  constructor
  · rintro ⟨_, _ | _ | _ | _⟩ <;> simp [StoredObject.kind]
  · intro h
    cases object with
    | entity e => exact ⟨_, .entity e⟩
    | valueObject v => exact ⟨_, .valueObject v⟩
    | enumeration e => exact absurd rfl h
    | dto d => exact ⟨_, .dto d⟩
    | dataObject d => exact ⟨_, .dataObject d⟩

lemma sideOf_iff : side? find r = some (object, side) ↔ SideOf find r object side := by
  rw [side?_eq_some_iff]
  constructor
  · rintro ⟨ref, e, hr, hid, he, hobject, hname, hparent, hkind⟩
    exact ⟨⟨ref, e, hr, hid, he, hobject, hparent⟩, hname, mapperKind?_eq_some_iff.mp hkind⟩
  · rintro ⟨⟨ref, e, hr, hid, he, hobject, hparent⟩, hname, hkind⟩
    exact ⟨ref, e, hr, hid, he, hobject, hname, hparent, mapperKind?_eq_some_iff.mpr hkind⟩

lemma exists_sideOf_iff : (∃ object side, SideOf find r object side) ↔ Leads find r := by
  constructor
  · rintro ⟨_, side, ⟨ref, e, rfl, hid, he, rfl, -⟩, -, hkind⟩
    exact ⟨ref, rfl, hid, e, he, exists_mappedAs_iff.mp ⟨_, hkind⟩⟩
  · rintro ⟨ref, rfl, hid, e, he, henum⟩
    obtain ⟨kind, hkind⟩ := exists_mappedAs_iff.mpr henum
    exact ⟨e.object, ⟨e.object.name, e.parent.map (·.name), kind⟩,
      ⟨ref, e, rfl, hid, he, rfl, rfl⟩, rfl, hkind⟩

/-! ## Pairs -/

/-- Whatever the kind of an object, the name of a field is sought among its fields. -/
lemma fieldName?_eq (object : StoredObject) (id : String) :
    object.fieldName? id = (object.fields.find? fun g => g.uuid = id).map (·.name) := by
  cases object <;> simp [StoredObject.fieldName?, StoredObject.fields, StoredObject.body?,
    Model.DataObject.property?, List.find?_map, Function.comp_def]

lemma fieldName?_eq_some_iff {id name : String} :
    object.fieldName? id = some name ↔ FirstField object id name := by
  rw [fieldName?_eq, Option.map_eq_some_iff]
  simp only [List.find?_eq_some_iff_append]
  constructor
  · rintro ⟨g, ⟨hg, before, after, hfields, hbefore⟩, hname⟩
    refine ⟨before, g, after, hfields, by simpa using hg, hname, fun g' hg' => ?_⟩
    simpa using hbefore g' hg'
  · rintro ⟨before, g, after, hfields, hg, hname, hbefore⟩
    exact ⟨g, ⟨by simpa using hg, before, after, hfields, by simpa using hbefore⟩, hname⟩

lemma isSome_fieldName?_iff {id : String} :
    (object.fieldName? id).isSome ↔ ∃ g ∈ object.fields, g.uuid = id := by
  rw [fieldName?_eq, Option.isSome_map]
  simp

lemma isSome_pair?_iff : (pair? source target f).isSome ↔ IsPaired source target f := by
  simp only [IsPaired, ← isSome_fieldName?_iff, pair?, Option.isSome_iff_exists, Option.mem_def,
    Option.bind_eq_bind, Option.bind_eq_some_iff]
  constructor
  · rintro ⟨_, s, ⟨id, hid, hs⟩, t, ⟨id', hid', ht⟩, -⟩
    exact ⟨⟨id, hid, s, hs⟩, id', hid', t, ht⟩
  · rintro ⟨⟨id, hid, s, hs⟩, id', hid', t, ht⟩
    exact ⟨⟨s, t⟩, s, ⟨id, hid, hs⟩, t, ⟨id', hid', ht⟩, rfl⟩

lemma pairOf_of_pair? {pair : FieldPair} (h : pair? source target f = some pair) :
    PairOf source target f pair := by
  simp only [pair?, Option.bind_eq_bind, Option.bind_eq_some_iff] at h
  obtain ⟨_, ⟨id, hid, hsource⟩, _, ⟨id', hid', htarget⟩, heq⟩ := h
  cases heq
  exact ⟨⟨id, hid, fieldName?_eq_some_iff.mp hsource⟩, id', hid', fieldName?_eq_some_iff.mp htarget⟩

/-! ## Mappers -/

/-- What is kept by a condition goes with what is chosen, if what is chosen is what is kept. -/
lemma rel_guard {α β : Type} {R : α → β → Prop} {p : α → Prop} [DecidablePred p] {a : α}
    {chosen : Option β} (hiff : chosen.isSome ↔ p a) (hrel : ∀ b, chosen = some b → R a b) :
    Option.Rel R (Option.guard (fun a => decide (p a)) a) chosen := by
  cases chosen with
  | none =>
      have hp : ¬ p a := by simpa using hiff
      simp [Option.guard, hp]
  | some b =>
      have hp : p a := by simpa using hiff
      simpa [Option.guard, hp] using hrel b rfl

/-- **The pairs of a mapper are those whose fields are both there.** -/
lemma pairs_exact (source target : StoredObject) (fs : List Model.FieldMapper) :
    List.Forall₂ (PairOf source target) (fs.filter fun f => IsPaired source target f)
      (fs.filterMap (pair? source target)) := by
  rw [← List.filterMap_eq_filter]
  refine List.rel_filterMap ?_ (@List.forall₂_refl _ Eq _ fs)
  rintro f _ rfl
  exact rel_guard isSome_pair?_iff fun pair hpair => pairOf_of_pair? hpair

/-- **A mapper is compiled exactly if both of its sides lead somewhere.** -/
lemma isSome_mapper_iff :
    (mapper find n written).result.isSome
      ↔ Leads find written.source ∧ Leads find written.target := by
  simp only [← exists_sideOf_iff, ← sideOf_iff]
  constructor
  · intro h
    obtain ⟨m, hm⟩ := Option.isSome_iff_exists.mp h
    obtain ⟨source, target, hsource, htarget, -⟩ := mapper_eq_some hm
    exact ⟨⟨source, _, hsource⟩, target, _, htarget⟩
  · rintro ⟨⟨source, sourceRef, hsource⟩, target, targetRef, htarget⟩
    simp [mapper, hsource, htarget]

lemma recordOf_of_mapper (hcheck : n.checkIdentity = .ok ())
    (hread : Model.MapperObject.ofJson? (.obj n.properties) = some written)
    (h : (mapper find n written).result = some m) : RecordOf find n m := by
  obtain ⟨source, target, hsource, htarget, hnaming, hpairs⟩ := mapper_eq_some h
  refine ⟨?_, written, source, target, hread, hnaming, sideOf_iff.mp hsource,
    sideOf_iff.mp htarget, ?_⟩
  · rw [hnaming]
    exact nodeNaming_uuid hcheck (Model.MapperObject.naming_of_ofJson? hread)
  · rw [hpairs]
    exact pairs_exact source target written.mappers

/-- What is compiled of one visited node. -/
lemma rel_mapperPart {part : Report (Option MapperObject)} (hcheck : n.checkIdentity = .ok ())
    (h : mapperPart find t c n = .ok part) :
    Option.Rel (RecordOf find) (Option.guard (fun n => decide (IsMapped find n)) n)
      part.result := by
  rcases mapperPart_cases h with ⟨hkind, written, hwritten, rfl⟩ | ⟨hkind, hnone⟩
  · refine rel_guard ?_ fun m hm => recordOf_of_mapper hcheck hwritten hm
    simp [isSome_mapper_iff, IsMapped, hkind, hwritten]
  · simp [hnone, Option.guard, IsMapped, hkind]

/-- **Mappers are neither made up nor lost.**  If a tree is compiled, every visited mapper can be
read, and there is a record for each of them whose sides lead to objects that can be mapped, in
pre-order. -/
theorem mappers_exact {report : Report ObjectMapper} (h : objectMapper find t c = .ok report) :
    t.Preorder t.visitOrder
      ∧ (∀ n, t.Reachable n → n.kind = .mapperObject →
        ∃ written, Model.MapperObject.ofJson? (.obj n.properties) = some written)
      ∧ List.Forall₂ (RecordOf find) (t.visitOrder.filter fun n => IsMapped find n)
        report.result.mappers := by
  obtain ⟨parts, hparts, heq⟩ := bind_ok_iff.mp h
  cases heq
  have hnodes := Tree.readAll_eq_ok_iff.mp hparts
  refine ⟨t.preorder_visitOrder, fun n hn hkind => ?_, ?_⟩
  · have hvisited := (t.preorder_visitOrder.mem_iff n).mpr hn
    obtain ⟨part, -, -, hpart⟩ := exists_of_mem_right hnodes.flip hvisited
    rcases mapperPart_cases hpart with ⟨-, written, hwritten, -⟩ | ⟨hnot, -⟩
    · exact ⟨written, hwritten⟩
    · exact absurd hkind hnot
  · rw [← List.filterMap_eq_filter]
    refine List.rel_filterMap ?_ hnodes
    rintro n part ⟨hcheck, hpart⟩
    exact rel_mapperPart hcheck hpart

/-- A user of an account, a row in which two columns have one uuid, and an enumeration. -/
def accountStore : Store :=
  let user : Model.Entity :=
    { uuid := "user", name := "User"
      properties := [{ uuid := "p1", name := "login" }, { uuid := "p2", name := "email" }] }
  let row : Model.DataObject :=
    { uuid := "row", name := "UserRow"
      properties :=
        [{ uuid := "c1", name := "mail", type := .string none none },
          { uuid := "c1", name := "address", type := .string none none }] }
  .ofEntries
    [⟨"user", .entity user, some { uuid := "account", name := "Account" }⟩,
      ⟨"row", .dataObject row, none⟩,
      ⟨"colour", .enumeration { uuid := "colour", name := "Colour" }, none⟩]

/-- Mappers from users to rows, from colours to rows and from nowhere to rows. -/
def accountMappers : Tree :=
  let toRow (id : String) (source : Model.ObjectReference) : Node :=
    Node.make id .mapperObject (Model.MapperObject.toJson
      { uuid := id, name := id, source := some source, target := some (.of .data "row" "UserRow")
        mappers :=
          [.of "f1" "p2" "c1", .of "f2" "p3" "c1", { uuid := "f3", target := some "c1" }] })
  treeOf
    [toRow "paint" (.of .domain "colour" "Colour"), toRow "save" (.of .domain "user" "User"),
      toRow "void" (.of .domain "" "")]
    ["paint", "save", "void"]

theorem mappers_exact_accountMappers :
    ∃ report, objectMapper accountStore accountMappers {} = .ok report
      ∧ report.result.mappers.map (fun m => (m.uuid, m.source, m.target, m.pairs))
        = [("save", ⟨"User", some "Account", .entity⟩, ⟨"UserRow", none, .dataObject⟩,
          [⟨"email", "mail"⟩])]
      ∧ List.Forall₂ (RecordOf accountStore)
        (accountMappers.visitOrder.filter fun n => IsMapped accountStore n)
        report.result.mappers := by
  have hok : (objectMapper accountStore accountMappers {}).map
      (fun report => report.result.mappers.map fun m => (m.uuid, m.source, m.target, m.pairs))
        = .ok [("save", ⟨"User", some "Account", .entity⟩, ⟨"UserRow", none, .dataObject⟩,
          [⟨"email", "mail"⟩])] := by decide +kernel
  obtain ⟨report, hreport, hmappers⟩ := map_ok_iff.mp hok
  exact ⟨report, hreport, hmappers, (mappers_exact hreport).2.2⟩

end Compile

end DomainDesign
