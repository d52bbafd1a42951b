import DomainDesign.Proofs.Columns

/-!
# What indexes cover

An index of a compiled data object lists the names of the columns that it covers.  The names of a
declared index are taken from the declared columns, and the compiler leaves out a column that refers
to one that is not there.  So a declared index may list a column that the data object does not have:
`index_over_missing_column`.  The index of the primary key is made from the compiled columns, and
lists no others.

`index_coverage` says when all indexes of a data object cover columns that it has: exactly if every
column that is named by a declared index has the name of one that is kept.
-/

namespace DomainDesign.Compile

open Compiled

/-- Every name in an index of a data object is that of one of its columns. -/
def IndexesCovered (o : DataObject) : Prop :=
  ∀ i ∈ o.indexes, ∀ name ∈ i.properties, ∃ q ∈ o.properties, q.name = name

instance (o : DataObject) : Decidable (IndexesCovered o) :=
  inferInstanceAs (Decidable (∀ i ∈ o.indexes, ∀ name ∈ i.properties, _))

/-- Every column that an index names has the name of a column that is kept. -/
def IndexesKept (t : Tree) (d : Model.DataObject) : Prop :=
  ∀ i ∈ d.indexes, ∀ id ∈ i.properties, ∀ p, d.property? id = some p →
    ∃ q ∈ d.properties, q.name = p.name ∧ isKept t q

/-- What the indexes of a compiled data object cover: the declared ones what they name, the index of
the primary key only columns that there are. -/
def CoverageOf (t : Tree) (n : Node) (o : DataObject) : Prop :=
  ∃ d, Model.DataObject.ofJson? (.obj n.properties) = some d
    ∧ ∃ declared extra, o.indexes = declared ++ extra
      ∧ List.Forall₂ (IndexOf d) d.indexes declared
      ∧ (∀ i ∈ extra, i.kind = .primary
        ∧ ∀ name ∈ i.properties, ∃ q ∈ o.properties, q.name = name)
      ∧ (IndexesCovered o ↔ IndexesKept t d)

variable {t : Tree} {c : Config} {d : Model.DataObject} {o : DataObject}

/-- An index lists the names of the columns that it names, where there are such columns. -/
lemma IndexOf.mem_properties_iff {i : Model.DataIndex} {j : DataIndex} {name : String}
    (h : IndexOf d i j) :
    name ∈ j.properties ↔ ∃ id ∈ i.properties, ∃ p, d.property? id = some p ∧ p.name = name := by
  rw [h.properties, List.mem_filterMap]
  simp only [Option.map_eq_some_iff]
  rfl

/-- The index of the primary key covers columns that there are. -/
lemma PrimaryIndexOf.covers {columns : List DataProperty} {extra : List DataIndex}
    (h : PrimaryIndexOf columns extra) :
    ∀ i ∈ extra, i.kind = .primary ∧ ∀ name ∈ i.properties, ∃ q ∈ columns, q.name = name := by
  intro i hi
  by_cases hkey : ∃ q ∈ columns, q.primaryKey = some true
  · obtain ⟨j, rfl, hkind, hnames⟩ := h.present hkey
    obtain rfl := List.mem_singleton.mp hi
    refine ⟨hkind, fun name hname => ?_⟩
    rw [hnames] at hname
    obtain ⟨q, hq, rfl⟩ := List.mem_map.mp hname
    exact ⟨q, (List.mem_filter.mp hq).1, rfl⟩
  · push Not at hkey
    rw [h.absent hkey] at hi
    cases hi

/-- **When indexes are covered.**  The names of the columns are those of the kept ones, so an index
is covered if what it names has such a name. -/
lemma indexesCovered_iff {declared extra : List DataIndex}
    (hcolumns : List.Forall₂ (ColumnOf t) (d.properties.filter (isKept t)) o.properties)
    (hindexes : o.indexes = declared ++ extra)
    (hdeclared : List.Forall₂ (IndexOf d) d.indexes declared)
    (hextra : ∀ i ∈ extra, ∀ name ∈ i.properties, ∃ q ∈ o.properties, q.name = name) :
    IndexesCovered o ↔ IndexesKept t d := by
  constructor
  · intro hcovered i hi id hid p hp
    obtain ⟨j, hj, hof⟩ := exists_of_mem_right hdeclared.flip hi
    have hname : p.name ∈ j.properties := hof.mem_properties_iff.mpr ⟨id, hid, p, hp, rfl⟩
    have hmem : j ∈ o.indexes := hindexes ▸ List.mem_append_left _ hj
    exact (exists_column_named_iff hcolumns).mp (hcovered j hmem p.name hname)
  · intro hkept j hj name hname
    rw [hindexes] at hj
    rcases List.mem_append.mp hj with hj | hj
    · obtain ⟨i, hi, hof⟩ := exists_of_mem_right hdeclared hj
      obtain ⟨id, hid, p, hp, rfl⟩ := hof.mem_properties_iff.mp hname
      exact (exists_column_named_iff hcolumns).mpr (hkept i hi id hid p hp)
    · exact hextra j hj name hname

lemma coverageOf_of_tableOf {n : Node} (h : TableOf t n o) : CoverageOf t n o := by
  obtain ⟨d, hread, -, -, hcolumns, declared, extra, hindexes, hdeclared, hprimary⟩ := h.content
  have hextra := hprimary.covers
  refine ⟨d, hread, declared, extra, hindexes, hdeclared, hextra, ?_⟩
  exact indexesCovered_iff hcolumns hindexes hdeclared fun i hi => (hextra i hi).2

/-- **What indexes cover.**  The indexes of each data object are the declared ones, which list what
they name, and that of the primary key, which lists columns that there are.  All of them cover
columns that there are exactly if the columns that are named have names of kept columns. -/
theorem index_coverage {r : Report DataModel} (h : dataModel t c = .ok r) :
    List.Forall₂ (CoverageOf t) (dataNodes t) r.result.dataObjects :=
  (tables_of_dataModel h).imp fun _ _ => coverageOf_of_tableOf

/-- An order with an index over its number and its buyer, where there are no users. -/
def indexedOrders : Tree :=
  let order : Model.DataObject :=
    { uuid := "order", name := "Order"
      properties :=
        [{ uuid := "o1", name := "number", type := .long none none },
          { uuid := "o2", name := "buyer", type := .toColumn "user" "u1" none }]
      indexes :=
        [{ uuid := "x1", name := "byBuyer", kind := .unique, properties := ["o1", "o2"] }] }
  .ofNodes "__ROOT__"
    [["order"].foldl Node.withChild (Node.make "__ROOT__" .root .null),
      Node.make "order" .dataObject order.toJson]

theorem index_coverage_indexedOrders :
    ∃ r, dataModel indexedOrders {} = .ok r
      ∧ List.Forall₂ (CoverageOf indexedOrders) (dataNodes indexedOrders) r.result.dataObjects
      ∧ (dataNodes indexedOrders).map (·.id) = ["order"] := by
  have hok : (dataModel indexedOrders {}).map (fun _ => ()) = .ok () := by decide +kernel
  obtain ⟨r, hr, -⟩ := map_ok_iff.mp hok
  exact ⟨r, hr, index_coverage hr, by decide +kernel⟩

/-- **An index may list a column that is not there.**  The buyer is left out of the columns of an
order, and is in its index all the same. -/
theorem index_over_missing_column :
    ∃ r, dataModel indexedOrders {} = .ok r
      ∧ ¬ (∀ o ∈ r.result.dataObjects, IndexesCovered o)
      ∧ r.result.dataObjects.map
          (fun o => (o.properties.map (·.name), o.indexes.map (·.properties)))
        = [(["number"], [["number", "buyer"]])] := by
  have hlisted : (dataModel indexedOrders {}).map (fun r =>
      (decide (∀ o ∈ r.result.dataObjects, IndexesCovered o),
        r.result.dataObjects.map
          fun o => (o.properties.map (·.name), o.indexes.map (·.properties))))
      = .ok (false, [(["number"], [["number", "buyer"]])]) := by decide +kernel
  obtain ⟨r, hr, heq⟩ := map_ok_iff.mp hlisted
  obtain ⟨hnot, hnames⟩ := Prod.mk.inj heq
  exact ⟨r, hr, of_decide_eq_false hnot, hnames⟩

end DomainDesign.Compile
