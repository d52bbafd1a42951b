import DomainDesign.Proofs.Generation
import DomainDesign.Retarget

/-!
# Two ways to the columns of an entity

The root of an aggregation gets a data object from a generation, and any entity can be turned into
one.  Both go through the properties, leave out those whose types have no column, and mark the
identifying one; but they are two programs, which copy other fields and draw their ids at other
times.  `projections_agree` says that their columns are the same, one by one.

Neither is compared with the other.  Both are compared with the properties that can be projected:
a column of the one is `columnOf` its property (`addColumns_run`), one of the other is
`turnedColumn` (`columns_run`), and what these two agree in does not depend on the ids.
-/

namespace DomainDesign.Artifacts

open Model

variable {store : Store} {σ τ : Type} [IdSource σ] [IdSource τ]

/-! ## Columns of an entity that is turned -/

/-- The column that a property is turned into, under a uuid. -/
def turnedColumn (idUuid : Option String) (uuid : String) (p : Property) (type : Storage) :
    DataProperty :=
  let column : DataProperty := { toNaming := p.toNaming.withUuid uuid, type }
  if idUuid = some p.uuid then column.asPrimaryKey else column

/-- A property is turned into a column. -/
def TurnedInto (idUuid : Option String) (e : Property × Storage) (column : DataProperty) : Prop :=
  column = turnedColumn idUuid column.uuid e.1 e.2

lemma uuid_turnedColumn (idUuid : Option String) (uuid : String) (p : Property) (type : Storage) :
    (turnedColumn idUuid uuid p type).uuid = uuid := by
  rw [turnedColumn]
  split <;> rfl

/-- **Every property whose type can be projected is turned into a column**, in order. -/
lemma columns_run (idUuid : Option String) (ps : List Property) (ids : τ) :
    List.Forall₂ (TurnedInto idUuid) (projected store ps)
      ((Pattern.columns (some store.get?) idUuid ps).run ids).1 := by
  induction ps generalizing ids with
  | nil => exact .nil
  | cons p rest ih =>
      cases htype : project? (some store.get?) p.type with
      | none =>
          have hskipped : projected store (p :: rest) = projected store rest := by
            simp [projected, htype]
          rw [hskipped, Pattern.columns, htype]
          exact ih ids
      | some type =>
          have hprojected : projected store (p :: rest) = (p, type) :: projected store rest := by
            simp [projected, htype]
          rw [hprojected, Pattern.columns, htype]
          refine .cons ?_ (ih (IdSource.next ids).2)
          change TurnedInto idUuid (p, type) (turnedColumn idUuid (IdSource.next ids).1 p type)
          rw [TurnedInto, uuid_turnedColumn]

/-! ## Both -/

/-- Two columns differ in nothing but their uuids and metadata. -/
structure SameColumn (a b : DataProperty) : Prop where
  name : a.name = b.name
  title : a.title = b.title
  description : a.description = b.description
  propertyName : a.propertyName = b.propertyName
  type : a.type = b.type
  notNull : a.notNull = b.notNull
  primaryKey : a.primaryKey = b.primaryKey

/-- A column is projected from a property, and is the primary key exactly if the property is the
identifying one. -/
structure ProjectedFrom (idUuid : String) (e : Property × Storage) (column : DataProperty) :
    Prop where
  name : column.name = e.1.name
  type : column.type = e.2
  key : column.isPrimaryKey = true ↔ e.1.uuid = idUuid

lemma sameColumn (idUuid uuid uuid' : String) (p : Property) (type : Storage) :
    SameColumn (columnOf idUuid uuid p type) (turnedColumn (some idUuid) uuid' p type) := by
  rw [columnOf, turnedColumn]
  by_cases hid : p.uuid = idUuid
  · rw [if_pos hid, if_pos (congrArg some hid.symm)]
    exact ⟨rfl, rfl, rfl, rfl, rfl, rfl, rfl⟩
  · rw [if_neg hid, if_neg fun hsome => hid (Option.some.inj hsome).symm]
    exact ⟨rfl, rfl, rfl, rfl, rfl, rfl, rfl⟩

lemma projectedFrom_columnOf (idUuid uuid : String) (p : Property) (type : Storage) :
    ProjectedFrom idUuid (p, type) (columnOf idUuid uuid p type) := by
  rw [columnOf]
  by_cases hid : p.uuid = idUuid
  · rw [if_pos hid]
    exact ⟨rfl, rfl, fun _ => hid, fun _ => rfl⟩
  · rw [if_neg hid]
    exact ⟨rfl, rfl, fun h => absurd h Bool.false_ne_true, fun h => absurd h hid⟩

lemma SameColumn.projectedFrom {a b : DataProperty} {idUuid : String} {e : Property × Storage}
    (h : SameColumn a b) (ha : ProjectedFrom idUuid e a) : ProjectedFrom idUuid e b := by
  refine ⟨h.name ▸ ha.name, h.type ▸ ha.type, ?_⟩
  rw [← ha.key, DataProperty.isPrimaryKey, DataProperty.isPrimaryKey, h.primaryKey]

/-- **The two projections agree.**  When a generation succeeds, the columns of its data object and
those that the entity is turned into over the same store are the same, one by one and in order,
whatever ids are drawn.  Both are the projections of the properties that have one, and the primary
keys among them are those of the properties that identify the entity. -/
theorem projections_agree {root : Entity} {ids ids' : σ} {a : Artifacts}
    (h : generateFrom store root ids = (.ok a, ids')) (others : τ) :
    let turned := ((Pattern.entity root).toDataObject (some store.get?)).run others
    List.Forall₂ SameColumn a.dataObject.properties turned.1.properties
      ∧ List.Forall₂ (ProjectedFrom root.idUuid) (projected store root.properties)
        a.dataObject.properties
      ∧ List.Forall₂ (ProjectedFrom root.idUuid) (projected store root.properties)
        turned.1.properties := by
  intro turned
  obtain ⟨pairs, rootDto, idProperty, idInput, hgenerated⟩ := generated_of_generate h
  have hmade := hgenerated.columns
  have hturned : List.Forall₂ (TurnedInto (some root.idUuid)) (projected store root.properties)
      turned.1.properties :=
    columns_run (some root.idUuid) root.properties (IdSource.next others).2
  have hsame : ∀ e b c, ColumnFor root.idUuid e b → TurnedInto (some root.idUuid) e c →
      SameColumn b c := by
    intro e b c hb hc
    rw [hb, hc]
    exact sameColumn ..
  have hfirst : ∀ e b, ColumnFor root.idUuid e b → ProjectedFrom root.idUuid e b := by
    intro e b hb
    rw [hb]
    exact projectedFrom_columnOf ..
  refine ⟨forall₂_of_common hmade hturned hsame, hmade.imp hfirst, ?_⟩
  refine hturned.imp fun e c hc => ?_
  have hboth : SameColumn (columnOf root.idUuid c.uuid e.1 e.2) c := by
    rw [hc]
    exact sameColumn ..
  exact hboth.projectedFrom (projectedFrom_columnOf ..)

/-- An account that is identified by two properties of one name, and has one that gets no column. -/
def account : Entity :=
  { uuid := "account", name := "Account", idUuid := "p1", isAggregationRoot := true
    properties :=
      [.of "p1" "number" (.base "Long"), .of "p2" "state" (.reference "state" "State"),
        .of "p3" "owners" (.list (.base "String")), .of "p1" "number" (.base "Char")] }

def accountStore : Store :=
  .ofEntries [{ id := "state", object := .enumeration { uuid := "state", name := "State" } }]

theorem projections_agree_account :
    ∃ a ids', generateFrom accountStore account ({} : IdSupply) = (.ok a, ids')
      ∧ a.dataObject.properties.map (fun c => (c.name, c.isPrimaryKey))
        = [("number", true), ("state", false), ("number", true)]
      ∧ List.Forall₂ SameColumn a.dataObject.properties
        (((Pattern.entity account).toDataObject (some accountStore.get?)).run
          ({} : RandomIds)).1.properties := by
  have hcolumns : (generateFrom accountStore account ({} : IdSupply)).1.map (fun a =>
      a.dataObject.properties.map fun c => (c.name, c.isPrimaryKey))
      = .ok [("number", true), ("state", false), ("number", true)] := by decide +kernel
  rcases h : generateFrom accountStore account ({} : IdSupply) with ⟨made, ids'⟩
  rw [h] at hcolumns
  obtain ⟨a, rfl, hkeys⟩ := map_ok_iff.mp hcolumns
  exact ⟨a, ids', rfl, hkeys, (projections_agree h ({} : RandomIds)).1⟩

end DomainDesign.Artifacts
