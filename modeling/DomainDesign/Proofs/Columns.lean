import DomainDesign.Compile.Tables
import DomainDesign.Proofs.Reading
import DomainDesign.Proofs.Registers
import DomainDesign.Proofs.Walks
import Mathlib.Data.List.Forall2

/-!
# What becomes of the columns

The data compiler registers every data object of a tree and then compiles them one after the other.
`columns_exact` says what comes out, without the register: a record for every visited data object,
with a column for every declared column that can be resolved among the visited nodes, and with an
index of the primary key behind the declared ones.

**Collecting.**  `Register.Holds` follows the register through the walk (`holds_enterAll`), and
`foldl_finish` says what the compilation of the registered objects adds, place by place.

**Looking up.**  What the register has under an id is what is read of the visited data object with
that id: `object?_eq`.  A column that refers to another one finds it wherever it stands, since by
then all objects are registered.
-/

namespace DomainDesign.Compile

open Compiled

/-! ## What the nodes say -/

/-- The visited data objects. -/
def dataNodes (t : Tree) : List Node :=
  t.visitOrder.filter fun n => n.kind = .dataObject

/-- What is read of the visited data object with an id. -/
def visitedObject? (t : Tree) (id : String) : Option Model.DataObject :=
  ((dataNodes t).find? fun n => n.id = id).bind fun n =>
    Model.DataObject.ofJson? (.obj n.properties)

/-- The column that a column refers to: the first one with the uuid that it names, in the data
object that it names. -/
def targetColumn? (t : Tree) (p : Model.DataProperty) : Option Model.DataProperty :=
  match p.type with
  | .reference (some target) (some property) _ =>
    (visitedObject? t target).bind fun d => d.properties.find? fun q => q.uuid = property
  | _ => none

/-- Whether a column is kept: it is no reference, or what it refers to is there. -/
def isKept (t : Tree) (p : Model.DataProperty) : Bool :=
  p.type.kind ≠ .reference || (targetColumn? t p).isSome

/-- A column type where an empty text is no default of a date. -/
def clearedDefault : Storage → Storage
  | .date (some "") => .date none
  | .dateTime (some "") => .dateTime none
  | .timestamp (some "") => .timestamp none
  | s => s

/-! ## What is compiled of a node -/

/-- A compiled column is that of a declared one. -/
structure ColumnOf (t : Tree) (p : Model.DataProperty) (q : DataProperty) : Prop where
  naming : q.toNaming = naming p.toNaming
  propertyName : q.propertyName = Text.nonEmpty p.propertyName
  primaryKey : q.primaryKey = p.primaryKey
  notNull : q.notNull = if p.primaryKey = some true then some true else p.notNull
  /-- A reference has the bare type of the kind of what it refers to. -/
  narrowed : p.type.kind = .reference → ∃ target, targetColumn? t p = some target
    ∧ q.storage = .ofKind target.type.kind ∧ q.storage.kind = target.type.kind
  storage : p.type.kind ≠ .reference → q.storage = clearedDefault p.type

/-- A compiled index is that of a declared one. -/
structure IndexOf (d : Model.DataObject) (i : Model.DataIndex) (j : DataIndex) : Prop where
  naming : j.toNaming = naming i.toNaming
  kind : j.kind = i.kind
  method : j.method = i.method
  properties : j.properties
    = i.properties.filterMap fun id => (d.properties.find? fun p => p.uuid = id).map (·.name)

/-- The index that the columns of the primary key make, if there are any. -/
structure PrimaryIndexOf (columns : List DataProperty) (extra : List DataIndex) : Prop where
  present : (∃ q ∈ columns, q.primaryKey = some true) → ∃ i, extra = [i] ∧ i.kind = .primary
    ∧ i.properties = (columns.filter fun q => q.primaryKey = some true).map (·.name)
  absent : (∀ q ∈ columns, q.primaryKey ≠ some true) → extra = []

/-- A compiled data object is that of a node. -/
structure TableOf (t : Tree) (n : Node) (compiled : DataObject) : Prop where
  uuid : compiled.uuid = n.id
  content : ∃ d, Model.DataObject.ofJson? (.obj n.properties) = some d
    ∧ compiled.toNaming = nodeNaming n d.toNaming
    ∧ compiled.tableName = Text.nonEmpty d.tableName
    ∧ List.Forall₂ (ColumnOf t) (d.properties.filter (isKept t)) compiled.properties
    ∧ ∃ declared extra, compiled.indexes = declared ++ extra
      ∧ List.Forall₂ (IndexOf d) d.indexes declared
      ∧ PrimaryIndexOf compiled.properties extra

/-! ## What the compiler collects -/

/-- The data objects among the parts. -/
def tableEntries (parts : List DataPart) : List (String × Table) :=
  parts.filterMap fun
    | .object id table => some (id, table)
    | .skipped _ => none

variable {s : DataState} {entries : List (String × Table)}

/-- **Taking in all parts.**  The objects are registered, nothing is compiled, and every object will
be compiled at its place. -/
lemma holds_enterAll {parts : List DataPart} (h : s.tables.Holds entries)
    (hnodup : ((entries ++ tableEntries parts).map (·.1)).Nodup) :
    (dataCollector.enterAll parts s).1.tables.Holds (entries ++ tableEntries parts)
      ∧ (dataCollector.enterAll parts s).1.compiled = s.compiled
      ∧ (dataCollector.enterAll parts s).1.references = s.references
      ∧ (dataCollector.enterAll parts s).2
        = (List.range' entries.length (tableEntries parts).length).map DataState.finish := by
  induction parts generalizing s entries with
  | nil =>
      refine ⟨?_, rfl, rfl, rfl⟩
      rw [tableEntries, List.filterMap_nil, List.append_nil]
      exact h
  | cons part rest ih =>
      cases part with
      | skipped warnings => exact ih h hnodup
      | object id table =>
          have hid : id ∉ entries.map (·.1) := key_notMem_before hnodup
          have hcons : entries ++ tableEntries (.object id table :: rest)
              = (entries ++ [(id, table)]) ++ tableEntries rest := by
            simp [tableEntries]
          rw [hcons] at hnodup ⊢
          have hpush :
              (DataPart.enter (.object id table) s).tables.Holds (entries ++ [(id, table)]) :=
            h.push hid table
          obtain ⟨hholds, hcompiled, hreferences, hchanges⟩ := ih hpush hnodup
          refine ⟨hholds, hcompiled, hreferences, ?_⟩
          have hlength : s.tables.items.length = entries.length := by rw [h.items, List.length_map]
          -- the change that is put off is to compile the object at the place it has just been given
          change [DataState.finish s.tables.items.length]
            ++ (dataCollector.enterAll rest (DataPart.enter (.object id table) s)).2 = _
          rw [hchanges, hlength, List.length_append]
          rfl

/-- **Compiling the registered objects**, from a place on. -/
lemma foldl_finish {before rest : List Table} (hitems : s.tables.items = before ++ rest) :
    let s' := ((List.range' before.length rest.length).map DataState.finish).foldl
      (fun s change => change s) s
    s'.tables = s.tables
      ∧ s'.compiled = s.compiled ++ rest.map (dataObject s.tables)
      ∧ s'.references
          = s.references ++ rest.flatMap fun table => (references? s.tables table).toList := by
  induction rest generalizing s before with
  | nil => simp
  | cons table rest ih =>
      have hplace : s.tables.items[before.length]? = some table := by simp [hitems]
      have hstep : s.finish before.length =
          { s with compiled := s.compiled ++ [dataObject s.tables table]
                   references := s.references ++ (references? s.tables table).toList
                   warnings := s.warnings ++ columnWarnings s.tables table } := by
        rw [DataState.finish, hplace]
      have hrest := @ih (s.finish before.length) (before ++ [table]) (by simp [hstep, hitems])
      rw [List.length_append, List.length_singleton] at hrest
      simp only [List.length_cons, List.range'_succ, List.map_cons, List.foldl_cons]
      rw [hstep] at hrest ⊢
      simpa using hrest

/-- **What the data compiler makes of parts.** -/
lemma dataModel_of_settle {parts : List DataPart}
    (hnodup : ((tableEntries parts).map (·.1)).Nodup) :
    ∃ tables : Register Table, tables.Holds (tableEntries parts)
      ∧ (dataCollector.settle {} parts).report.result.dataObjects
        = (tableEntries parts).map (fun e => dataObject tables e.2)
      ∧ (dataCollector.settle {} parts).report.result.references
        = (tableEntries parts).flatMap fun e => (references? tables e.2).toList := by
  obtain ⟨hholds, hcompiled, hreferences, hchanges⟩ :=
    @holds_enterAll {} [] parts Register.holds_empty hnodup
  rw [List.nil_append] at hholds
  obtain ⟨-, hobjects, hlinks⟩ := @foldl_finish _ [] _ hholds.items
  rw [hcompiled, List.map_map] at hobjects
  rw [hreferences, List.flatMap_map] at hlinks
  rw [List.length_map] at hobjects hlinks
  refine ⟨(dataCollector.enterAll parts {}).1.tables, hholds, ?_, ?_⟩
  · change (dataCollector.settle {} parts).compiled = _
    rw [Tree.Collector.settle, hchanges]
    exact hobjects
  · change (dataCollector.settle {} parts).references = _
    rw [Tree.Collector.settle, hchanges]
    exact hlinks

/-! ## From nodes to parts -/

variable {t : Tree} {c : Config} {parts : List DataPart}

/-- A visited data object and the entry that it is registered with. -/
structure EntryOf (n : Node) (e : String × Table) : Prop where
  id : e.1 = n.id
  check : n.checkIdentity = .ok ()
  read : Model.DataObject.ofJson? (.obj n.properties) = some e.2.object
  naming : e.2.naming = nodeNaming n e.2.object.toNaming

/-- A compilation that succeeds has registered every visited data object. -/
lemma entries_of_dataModel {r : Report DataModel} (h : dataModel t c = .ok r) :
    ∃ parts, List.Forall₂ EntryOf (dataNodes t) (tableEntries parts)
      ∧ r = (dataCollector.settle {} parts).report := by
  rw [dataModel, Tree.collect_eq] at h
  obtain ⟨s, hs, rfl⟩ := map_ok_iff.mp h
  obtain ⟨parts, hparts, rfl⟩ := map_ok_iff.mp hs
  refine ⟨parts, ?_, rfl⟩
  rw [dataNodes, ← List.filterMap_eq_filter, tableEntries]
  -- both sides choose from the visited nodes: one by the kind, the other by the part
  refine List.rel_filterMap ?_ (Tree.readAll_eq_ok_iff.mp hparts)
  rintro n part ⟨hcheck, hpart⟩
  rw [dataPart] at hpart
  split at hpart
  next hkind =>
    simp only [bind_ok_iff, Node.read_eq_ok] at hpart
    obtain ⟨d, hread, hpart⟩ := hpart
    cases hpart
    simp only [Option.guard, hkind, decide_true, if_true]
    exact .some ⟨rfl, hcheck, hread, rfl⟩
  next hkind =>
    obtain ⟨warnings, -, rfl⟩ := map_ok_iff.mp hpart
    have hguard : n.kind ≠ .dataObject := hkind
    simp [Option.guard, hguard]

/-! ## Looking up -/

/-- What is registered under an id is what is read of the visited data object with that id. -/
lemma lookup_eq_find? {nodes : List Node} {entries : List (String × Table)}
    (h : List.Forall₂ EntryOf nodes entries) (id : String) :
    (entries.lookup id).map (·.object)
      = (nodes.find? fun n => n.id = id).bind
        fun n => Model.DataObject.ofJson? (.obj n.properties) := by
  induction h with
  | nil => rfl
  | @cons n e nodes entries hne _ ih =>
      rw [Dict.lookup_cons_ite, List.find?_cons, hne.id]
      by_cases hid : n.id = id
      · simp [hid, hne.read]
      · simp [hid, Ne.symm hid, ih]

lemma object?_eq {tables : Register Table} {entries : List (String × Table)}
    (hholds : tables.Holds entries) (h : List.Forall₂ EntryOf (dataNodes t) entries) (id : String) :
    object? tables id = visitedObject? t id := by
  rw [object?, hholds.get?_eq]
  exact lookup_eq_find? h id

/-- **What the data compiler makes of the visited data objects.**  By the time they are compiled,
the register has all of them. -/
lemma compiled_of_dataModel {r : Report DataModel} (h : dataModel t c = .ok r) :
    ∃ (tables : Register Table) (entries : List (String × Table)),
      List.Forall₂ EntryOf (dataNodes t) entries
        ∧ (∀ id, object? tables id = visitedObject? t id)
        ∧ r.result.dataObjects = entries.map (fun e => dataObject tables e.2)
        ∧ r.result.references = entries.flatMap fun e => (references? tables e.2).toList := by
  obtain ⟨parts, hentries, rfl⟩ := entries_of_dataModel h
  have hnodup : ((tableEntries parts).map (·.1)).Nodup := by
    rw [map_eq_map (hentries.imp fun _ _ he => he.id)]
    exact t.nodup_ids_visitOrder.sublist (List.filter_sublist.map _)
  obtain ⟨tables, hholds, hobjects, hreferences⟩ := dataModel_of_settle hnodup
  exact ⟨tables, _, hentries, object?_eq hholds hentries, hobjects, hreferences⟩

lemma referred?_eq {tables : Register Table} (h : ∀ id, object? tables id = visitedObject? t id)
    (p : Model.DataProperty) : (referred? tables p).map (·.2) = targetColumn? t p := by
  rw [referred?, targetColumn?]
  cases p.type with
  | reference target property cardinality =>
      rcases target with _ | target
      · rfl
      rcases property with _ | property
      · rfl
      simp only [h, Model.DataObject.property?]
      cases visitedObject? t target with
      | none => rfl
      | some d => cases hfind : d.properties.find? fun q => q.uuid = property <;> simp [hfind]
  | _ => rfl

lemma nonEmpty_eq (text : Option String) :
    Text.nonEmpty text = if text = some "" then none else text := by
  cases text with
  | none => rfl
  | some text => by_cases h : text = "" <;> simp [Text.nonEmpty, h]

lemma withoutEmptyDefault_eq (s : Storage) : s.withoutEmptyDefault = clearedDefault s := by
  unfold Storage.withoutEmptyDefault clearedDefault
  cases s <;> simp only [nonEmpty_eq] <;> split <;> simp_all

lemma kind_ofKind (k : StorageKind) : (Storage.ofKind k).kind = k := by
  cases k <;> rfl

/-- The type of a column, by what it refers to. -/
lemma columnStorage?_eq {tables : Register Table}
    (h : ∀ id, object? tables id = visitedObject? t id)
    (p : Model.DataProperty) : columnStorage? tables p
      = if p.type.kind = .reference then (targetColumn? t p).map fun q => .ofKind q.type.kind
        else some (clearedDefault p.type) := by
  rw [← referred?_eq h, Option.map_map, columnStorage?, ← withoutEmptyDefault_eq]
  cases p.type <;> rfl

/-- **What becomes of a column.** -/
lemma rel_column? {tables : Register Table} (h : ∀ id, object? tables id = visitedObject? t id)
    (p : Model.DataProperty) :
    Option.Rel (ColumnOf t) (Option.guard (isKept t) p) (column? tables p) := by
  have hnull : (if p.isPrimaryKey then some true else p.notNull)
      = if p.primaryKey = some true then some true else p.notNull := by
    rcases hkey : p.primaryKey with _ | key <;> simp [Model.DataProperty.isPrimaryKey, hkey]
  -- the compiler asks the register for the type, and drops the column if it has no answer
  rw [column?, columnStorage?_eq h, hnull]
  by_cases hkind : p.type.kind = .reference
  · cases htarget : targetColumn? t p with
    | none =>
        have hleft : isKept t p = false := by simp [isKept, hkind, htarget]
        simp [Option.guard, hleft, hkind]
    | some target =>
        have hkept : isKept t p = true := by simp [isKept, htarget]
        simp only [Option.guard, hkept, hkind, if_true, Option.map_some]
        refine .some ⟨rfl, rfl, rfl, rfl, fun _ => ⟨target, htarget, rfl, kind_ofKind _⟩, ?_⟩
        exact fun hother => absurd hkind hother
  · have hkept : isKept t p = true := by simp [isKept, hkind]
    simp only [Option.guard, hkept, hkind, if_true, if_false, Option.map_some]
    exact .some ⟨rfl, rfl, rfl, rfl, fun href => absurd href hkind, fun _ => rfl⟩

lemma columns_of_properties {tables : Register Table}
    (h : ∀ id, object? tables id = visitedObject? t id) (ps : List Model.DataProperty) :
    List.Forall₂ (ColumnOf t) (ps.filter (isKept t)) (ps.filterMap (column? tables)) := by
  rw [← List.filterMap_eq_filter]
  refine List.rel_filterMap ?_ (List.forall₂_eq_eq_eq ▸ rfl : List.Forall₂ (· = ·) ps ps)
  -- the kept columns and the compiled ones are chosen from the same declarations
  rintro p _ rfl
  exact rel_column? h p

lemma primaryIndex_of_columns (uuid : String) (columns : List DataProperty) :
    PrimaryIndexOf columns (primaryIndex uuid columns) := by
  refine ⟨fun ⟨q, hq, hkey⟩ => ?_, fun hnone => ?_⟩
  · refine ⟨_, if_neg ?_, rfl, rfl⟩
    simp only [List.isEmpty_iff, List.map_eq_nil_iff, List.filter_eq_nil_iff, decide_eq_true_eq,
      not_forall]
    exact ⟨q, hq, not_not.mpr hkey⟩
  · have hempty : columns.filter (fun q => decide (q.primaryKey = some true)) = [] := by
      simpa [List.filter_eq_nil_iff] using hnone
    simp [primaryIndex, hempty]

/-- There is a record for every visited data object. -/
lemma tables_of_dataModel {r : Report DataModel} (h : dataModel t c = .ok r) :
    List.Forall₂ (TableOf t) (dataNodes t) r.result.dataObjects := by
  obtain ⟨tables, entries, hentries, hlookup, hobjects, -⟩ := compiled_of_dataModel h
  rw [hobjects, List.forall₂_map_right_iff]
  refine hentries.imp fun n e he => ?_
  refine ⟨?_, e.2.object, he.read, he.naming, rfl, columns_of_properties hlookup _, ?_⟩
  · change e.2.naming.uuid = n.id
    rw [he.naming]
    exact nodeNaming_uuid he.check (Model.DataObject.naming_of_ofJson? he.read)
  · refine ⟨e.2.object.indexes.map (index e.2.object), _, rfl, ?_, primaryIndex_of_columns _ _⟩
    rw [List.forall₂_map_right_iff, List.forall₂_same]
    exact fun i _ => ⟨rfl, rfl, rfl, rfl⟩

/-- A name is that of a compiled column exactly if a declared one with that name is kept. -/
lemma exists_column_named_iff {ps : List Model.DataProperty} {qs : List DataProperty}
    {name : String} (h : List.Forall₂ (ColumnOf t) (ps.filter (isKept t)) qs) :
    (∃ q ∈ qs, q.name = name) ↔ ∃ p ∈ ps, p.name = name ∧ isKept t p := by
  constructor
  · rintro ⟨q, hq, rfl⟩
    obtain ⟨p, hp, hof⟩ := exists_of_mem_right h hq
    obtain ⟨hp, hkept⟩ := List.mem_filter.mp hp
    exact ⟨p, hp, by rw [hof.naming]; rfl, hkept⟩
  · rintro ⟨p, hp, rfl, hkept⟩
    obtain ⟨q, hq, hof⟩ := exists_of_mem_right h.flip (List.mem_filter.mpr ⟨hp, hkept⟩)
    exact ⟨q, hq, by rw [hof.naming]; rfl⟩

/-- **Data compilation is exact.**  The nodes that can be reached are visited in pre-order.  There
is one record per visited data object, in the order of the walk, and it has the columns and the
indexes that `TableOf` says. -/
theorem columns_exact {r : Report DataModel} (h : dataModel t c = .ok r) :
    t.Preorder t.visitOrder
      ∧ List.Forall₂ (TableOf t) (dataNodes t) r.result.dataObjects :=
  ⟨t.preorder_visitOrder, tables_of_dataModel h⟩

/-- Orders with the user who buys as part of their key.  The users are visited later. -/
def orderTables : Tree :=
  let order : Model.DataObject :=
    { uuid := "order", name := "Order"
      properties :=
        [{ uuid := "o1", name := "number", type := .long none none, primaryKey := some true },
          { uuid := "o2", name := "buyer", type := .toColumn "user" "u1" none,
            primaryKey := some true },
          { uuid := "o3", name := "seller", type := .toColumn "shop" "s1" none },
          { uuid := "o4", name := "paid", type := .date (some "") }] }
  let user : Model.DataObject :=
    { uuid := "user", name := "User"
      properties := [{ uuid := "u1", name := "login", type := .string none none }] }
  .ofNodes "__ROOT__"
    [{ id := "__ROOT__", kind := .root, properties := [], childIds := ["order"]
       childOrder := List.pairwise_singleton .. },
      { Node.make "order" .dataObject order.toJson with
          childIds := ["user"], childOrder := List.pairwise_singleton .. },
      Node.make "user" .dataObject user.toJson]

theorem columns_exact_orderTables :
    ∃ r, dataModel orderTables {} = .ok r
      ∧ List.Forall₂ (TableOf orderTables) (dataNodes orderTables) r.result.dataObjects
      ∧ (dataNodes orderTables).map (·.id) = ["order", "user"] := by
  have hok : (dataModel orderTables {}).isOk = true := by decide +kernel
  cases h : dataModel orderTables {} with
  | error e =>
      rw [h] at hok
      cases hok
  | ok r => exact ⟨r, rfl, (columns_exact h).2, by decide +kernel⟩

end DomainDesign.Compile
