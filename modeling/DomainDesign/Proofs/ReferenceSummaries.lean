import DomainDesign.Proofs.Columns
import DomainDesign.Proofs.Grouping
import Mathlib.Data.List.Induction

/-!
# Summaries of references

The references of a data object to others are summed up beside its columns: there is an entry for
every name of an object that they lead to, with the pairs of fields of the columns that lead there.

**Columns.**  `contributions t n` are the columns of the data object at a node that count, with what
they lead to: references to another data object, where that one and its column are there.

**Summaries.**  `summaries_complete` says that a data object has a summary if one of its columns
counts, and that the entries are `Grouped` by name: no column is left out, and none counts twice.

**Objects of one name.**  An entry has the name of an object, and two objects may have the same one.
`Placement` says which entry a column is in.  Two columns are in the same entry exactly if they lead
to objects of the same name, `placements_by_name`, so columns that lead to different objects may be
taken for one reference: `twins_merged`.
-/

namespace DomainDesign.Compile

open Compiled

/-! ## Columns that count -/

/-- A column that leads to another data object: the id of that one, what is read of it, and the
column that stands for this one there. -/
structure Contribution where
  column : Model.DataProperty
  target : String
  object : Model.DataObject
  field : Model.DataProperty
  cardinality : Option Cardinality

/-- What a column of the data object with an id leads to.  It counts if it is a reference to another
id, under which a data object was visited that has the column it names. -/
def contribution? (t : Tree) (id : String) (p : Model.DataProperty) : Option Contribution :=
  match p.type with
  | .reference (some target) (some property) cardinality =>
    if target = id then none
    else (visitedObject? t target).bind fun d =>
      (d.properties.find? fun q => q.uuid = property).map fun q => ⟨p, target, d, q, cardinality⟩
  | _ => none

/-- The columns that count of the data object at a node. -/
def contributions (t : Tree) (n : Node) : List Contribution :=
  match Model.DataObject.ofJson? (.obj n.properties) with
  | some d => d.properties.filterMap (contribution? t n.id)
  | none => []

namespace Contribution

/-- The pair of fields that a column makes. -/
def pair (b : Contribution) : FieldPair :=
  ⟨b.column.name, b.field.name⟩

/-- The entry that a column makes by itself. -/
def link (b : Contribution) : ReferenceTarget :=
  { target := b.object.name, cardinality := b.cardinality, pairs := [b.pair] }

end Contribution

/-! ## Entries -/

/-- An entry is made of columns: their pairs in order, and the first cardinality that one of them
has. -/
structure EntryFor (bs : List Contribution) (e : ReferenceTarget) : Prop where
  pairs : e.pairs = bs.map Contribution.pair
  cardinality : e.cardinality = bs.findSome? (·.cardinality)

/-- Entries are those of columns, by the name of the object that they lead to. -/
def EntriesOf (bs : List Contribution) (entries : List ReferenceTarget) : Prop :=
  Grouped (·.object.name) (·.target) EntryFor bs entries

/-- An entry with what another one adds to it. -/
def joined (link e : ReferenceTarget) : ReferenceTarget :=
  { e with cardinality := e.cardinality.or link.cardinality, pairs := e.pairs ++ link.pairs }

variable {link : ReferenceTarget} {entries : List ReferenceTarget} {bs : List Contribution}

lemma addLink_of_notMem (h : link.target ∉ entries.map (·.target)) :
    addLink link entries = entries ++ [link] := by
  induction entries with
  | nil => rfl
  | cons e rest ih =>
      rw [List.map_cons, List.mem_cons, not_or] at h
      rw [addLink, if_neg (Ne.symm h.1), ih h.2, List.cons_append]

/-- The search for an entry changes the one of that name, and no other. -/
lemma addLink_of_mem (hnodup : (entries.map (·.target)).Nodup)
    (h : link.target ∈ entries.map (·.target)) :
    addLink link entries
      = entries.map fun e => if e.target = link.target then joined link e else e := by
  induction entries with
  | nil => simp at h
  | cons e rest ih =>
      obtain ⟨hfirst, hrest⟩ := List.nodup_cons.mp hnodup
      by_cases he : e.target = link.target
      · have hothers : rest.map (fun e => if e.target = link.target then joined link e else e)
            = rest := by
          refine (List.map_congr_left fun e' he' => if_neg ?_).trans (List.map_id _)
          exact fun heq => hfirst (List.mem_map.mpr ⟨e', he', heq.trans he.symm⟩)
        rw [addLink, if_pos he, List.map_cons, if_pos he, hothers, joined]
      · have hlater : link.target ∈ rest.map (·.target) :=
          (List.mem_cons.mp h).resolve_left (Ne.symm he)
        rw [addLink, if_neg he, List.map_cons, if_neg he, ih hrest hlater]

/-- One more column of the name adds its pair, and its cardinality if there was none. -/
lemma EntryFor.joined {e : ReferenceTarget} (h : EntryFor bs e) (b : Contribution) :
    EntryFor (bs ++ [b]) (joined b.link e) := by
  constructor
  · rw [List.map_append, ← h.pairs]
    rfl
  · rw [List.findSome?_append, ← h.cardinality, List.findSome?_singleton]
    rfl

/-- **What one column does to the entries.** -/
lemma EntriesOf.addLink (h : EntriesOf bs entries) (b : Contribution) :
    EntriesOf (bs ++ [b]) (addLink b.link entries) := by
  by_cases hname : b.object.name ∈ bs.map (·.object.name)
  · rw [addLink_of_mem h.nodup (h.mem_names_iff.mpr hname)]
    exact h.join hname (Compile.joined b.link) (fun _ => rfl) fun _ _ _ he => he.joined b
  · rw [addLink_of_notMem (mt h.mem_names_iff.mp hname)]
    refine h.begin hname rfl ⟨rfl, ?_⟩
    rw [List.findSome?_singleton]
    rfl

/-- **What all columns make.** -/
lemma entriesOf_foldl (bs : List Contribution) :
    EntriesOf bs
      ((bs.map Contribution.link).foldl (fun entries link => addLink link entries) []) := by
  induction bs using List.reverseRecOn with
  | nil => exact Grouped.nil
  | append_singleton bs b ih =>
      rw [List.map_append, List.foldl_append]
      exact ih.addLink b

/-! ## Summaries -/

/-- A summary is that of the data object at a node: it has the name of that one, and the entries of
its columns, which have different names and all pairs of the columns between them. -/
structure SummaryOf (t : Tree) (n : Node) (s : DataReference) : Prop where
  source : ∃ d, Model.DataObject.ofJson? (.obj n.properties) = some d ∧ s.source = d.name
  entries : EntriesOf (contributions t n) s.targets
  distinct : (s.targets.map (·.target)).Nodup
  pairs : (s.targets.flatMap (·.pairs)).Perm ((contributions t n).map Contribution.pair)

/-- The visited data objects that have a column that counts. -/
def referringNodes (t : Tree) : List Node :=
  (dataNodes t).filter fun n => !(contributions t n).isEmpty

variable {t : Tree} {c : Config} {n : Node} {tables : Register Table}

/-- What the compiler adds for a column is what the column makes by itself. -/
lemma link?_eq (h : ∀ id, object? tables id = visitedObject? t id) {table : Table}
    (huuid : table.naming.uuid = n.id) (p : Model.DataProperty) :
    link? tables table p = (contribution? t n.id p).map Contribution.link := by
  rw [link?, contribution?, referred?, huuid]
  cases p.type with
  | reference target property cardinality =>
      rcases target with _ | target
      · rfl
      rcases property with _ | property
      · simp
      by_cases hself : target = n.id
      · simp [hself]
      simp only [hself, if_false, h, Model.DataObject.property?]
      cases visitedObject? t target with
      | none => rfl
      | some d =>
          cases hfind : d.properties.find? fun q => q.uuid = property with
          | none => simp [hfind]
          | some q =>
              simp only [Option.bind_eq_bind, Option.bind_some, hfind, Option.map_some]
              rfl
  | _ => rfl

/-- **The summary of a data object.** -/
lemma rel_references? (h : ∀ id, object? tables id = visitedObject? t id) {e : String × Table}
    (he : EntryOf n e) :
    Option.Rel (SummaryOf t) (Option.guard (fun n => !(contributions t n).isEmpty) n)
      (references? tables e.2) := by
  have huuid : e.2.naming.uuid = n.id := by
    rw [he.naming]
    exact nodeNaming_uuid he.check (Model.DataObject.naming_of_ofJson? he.read)
  have hlinks : e.2.object.properties.filterMap (link? tables e.2)
      = (contributions t n).map Contribution.link := by
    simp only [contributions, he.read, List.map_filterMap, link?_eq h huuid]
  simp only [references?, hlinks, List.isEmpty_map, Option.guard]
  by_cases hnone : (contributions t n).isEmpty
  · simp [hnone]
  · simp only [hnone, Bool.not_false, if_true, Bool.false_eq_true, if_false]
    have hentries := entriesOf_foldl (contributions t n)
    refine .some ⟨⟨e.2.object, he.read, ?_⟩, hentries, hentries.nodup, ?_⟩
    · rw [he.naming]
      rfl
    · exact hentries.perm_content fun bs e hbs => hbs.pairs

/-- There is a summary for every visited data object that has a column that counts. -/
lemma summaries_of_dataModel {r : Report DataModel} (h : dataModel t c = .ok r) :
    List.Forall₂ (SummaryOf t) (referringNodes t) r.result.references := by
  obtain ⟨tables, entries, hentries, hlookup, -, hreferences⟩ := compiled_of_dataModel h
  rw [hreferences, ← List.filterMap_eq_flatMap_toList, referringNodes, ← List.filterMap_eq_filter]
  -- both sides choose from the visited data objects, with and without the register
  refine List.rel_filterMap ?_ hentries
  intro n e he
  exact rel_references? hlookup he

/-- **Summaries are complete.**  The nodes that can be reached are visited in pre-order.  There is
one summary per visited data object that has a column that counts, in the order of the walk, and it
has the entries that `SummaryOf` says. -/
theorem summaries_complete {r : Report DataModel} (h : dataModel t c = .ok r) :
    t.Preorder t.visitOrder
      ∧ List.Forall₂ (SummaryOf t) (referringNodes t) r.result.references :=
  ⟨t.preorder_visitOrder, summaries_of_dataModel h⟩

/-- A data object whose columns are references, by their names and what they lead to. -/
def referringObject (id name : String)
    (columns : List (String × String × String × Option Cardinality)) : Node :=
  Node.make id .dataObject
    (Model.DataObject.toJson
      { uuid := id, name
        properties := columns.map fun p =>
          { uuid := p.1, name := p.1, type := .toColumn p.2.1 p.2.2.1 p.2.2.2 } })

/-- A data object with one column that is no reference. -/
def plainObject (id name column : String) : Node :=
  Node.make id .dataObject
    (Model.DataObject.toJson
      { uuid := id, name
        properties := [{ uuid := column, name := column, type := .long none none }] })

/-- An order of a user at a shop.  The user is said twice, with a cardinality the second time; the
order before and an invoice do not count. -/
def shopOrders : Tree :=
  .ofNodes "__ROOT__"
    [["order", "shop", "user"].foldl Node.withChild (Node.make "__ROOT__" .root .null),
      referringObject "order" "Order"
        [("buyer", "user", "login", none), ("before", "order", "buyer", none),
          ("place", "shop", "number", none), ("bill", "invoice", "number", none),
          ("payer", "user", "login", some .manyToOne)],
      plainObject "shop" "Shop" "number", plainObject "user" "User" "login"]

theorem summaries_complete_shopOrders :
    ∃ r, dataModel shopOrders {} = .ok r
      ∧ List.Forall₂ (SummaryOf shopOrders) (referringNodes shopOrders) r.result.references
      ∧ r.result.references
        = [⟨"Order", [⟨"User", some .manyToOne, [⟨"buyer", "login"⟩, ⟨"payer", "login"⟩]⟩,
            ⟨"Shop", none, [⟨"place", "number"⟩]⟩]⟩] := by
  have hreferences : (dataModel shopOrders {}).map (fun r => r.result.references)
      = .ok [⟨"Order", [⟨"User", some .manyToOne, [⟨"buyer", "login"⟩, ⟨"payer", "login"⟩]⟩,
          ⟨"Shop", none, [⟨"place", "number"⟩]⟩]⟩] := by decide +kernel
  obtain ⟨r, hr, heq⟩ := map_ok_iff.mp hreferences
  exact ⟨r, hr, (summaries_complete hr).2, heq⟩

/-! ## Which entry a column is in -/

/-- Every column is put into one of the entries, which has the name of the object that it leads to,
and the pairs of an entry are those of the columns that are put there. -/
structure Placement (bs : List Contribution) (entries : List ReferenceTarget)
    (place : Fin bs.length → Fin entries.length) : Prop where
  target : ∀ i, (entries.get (place i)).target = (bs.get i).object.name
  pairs : ∀ k, (entries.get k).pairs
    = ((List.finRange bs.length).filter fun i => place i = k).map fun i => (bs.get i).pair

/-- Columns are in the same entry exactly if they lead to the same data object. -/
def KeptApart (bs : List Contribution) (entries : List ReferenceTarget) : Prop :=
  ∀ place, Placement bs entries place →
    ∀ i j, place i = place j ↔ (bs.get i).target = (bs.get j).target

/-- The objects that columns lead to are told apart by their names. -/
def NamesTellApart (bs : List Contribution) : Prop :=
  ∀ b ∈ bs, ∀ b' ∈ bs, b.object.name = b'.object.name → b.target = b'.target

/-- Entries of different names are different entries. -/
lemma EntriesOf.get_inj (h : EntriesOf bs entries) {k l : Fin entries.length}
    (heq : (entries.get k).target = (entries.get l).target) : k = l := by
  have hinj := List.nodup_iff_injective_get.mp (List.Nodup.of_map _ h.nodup)
  exact hinj (List.inj_on_of_nodup_map h.nodup (List.get_mem ..) (List.get_mem ..) heq)

/-- **There is one way to put columns into entries.** -/
lemma EntriesOf.existsUnique_placement (h : EntriesOf bs entries) :
    ∃! place, Placement bs entries place := by
  have hplace : ∀ i : Fin bs.length, ∃ k : Fin entries.length,
      (entries.get k).target = (bs.get i).object.name := by
    intro i
    have hname : (bs.get i).object.name ∈ entries.map (·.target) :=
      h.mem_names_iff.mpr (List.mem_map_of_mem (List.get_mem ..))
    obtain ⟨e, he, heq⟩ := List.mem_map.mp hname
    obtain ⟨k, rfl⟩ := List.mem_iff_get.mp he
    exact ⟨k, heq⟩
  choose place hplace using hplace
  refine ⟨place, ⟨hplace, fun k => ?_⟩, fun place' hplace' => funext fun i => ?_⟩
  · -- the columns that an entry is made of are those that are put there
    have hmembers : members (fun b : Contribution => b.object.name) bs (entries.get k).target
        = ((List.finRange bs.length).filter fun i => place i = k).map bs.get := by
      conv_lhs => rw [members, ← List.map_get_finRange bs]
      rw [List.filter_map]
      refine congrArg _ (List.filter_congr fun i _ => ?_)
      simp only [Function.comp_apply, ← hplace i, decide_eq_decide]
      exact ⟨h.get_inj, congrArg fun k => (entries.get k).target⟩
    rw [(h.group _ (List.get_mem entries k)).pairs, hmembers, List.map_map]
    rfl
  · exact h.get_inj ((hplace'.target i).trans (hplace i).symm)

lemma Placement.place_eq_iff {place : Fin bs.length → Fin entries.length} (h : EntriesOf bs entries)
    (hplace : Placement bs entries place) (i j : Fin bs.length) :
    place i = place j ↔ (bs.get i).object.name = (bs.get j).object.name := by
  rw [← hplace.target, ← hplace.target]
  exact ⟨congrArg fun k => (entries.get k).target, h.get_inj⟩

/-- A column leads to what was visited under the id that it names. -/
lemma visitedObject?_of_mem {b : Contribution} (h : b ∈ contributions t n) :
    visitedObject? t b.target = some b.object := by
  rw [contributions] at h
  split at h
  · obtain ⟨p, -, hp⟩ := List.mem_filterMap.mp h
    rw [contribution?] at hp
    split at hp
    · split at hp
      · cases hp
      · obtain ⟨d, hd, hp⟩ := Option.bind_eq_some_iff.mp hp
        obtain ⟨q, -, rfl⟩ := Option.map_eq_some_iff.mp hp
        exact hd
    · cases hp
  · simp at h

/-- **When columns are kept apart:** columns that lead to one object are always in one entry, and
those that lead to different ones are in different entries if these have different names. -/
lemma keptApart_iff (h : EntriesOf (contributions t n) entries) :
    KeptApart (contributions t n) entries ↔ NamesTellApart (contributions t n) := by
  constructor
  · intro hapart b hb b' hb' hname
    obtain ⟨place, hplace, -⟩ := h.existsUnique_placement
    obtain ⟨i, rfl⟩ := List.mem_iff_get.mp hb
    obtain ⟨j, rfl⟩ := List.mem_iff_get.mp hb'
    exact (hapart place hplace i j).mp ((hplace.place_eq_iff h i j).mpr hname)
  · intro hnames place hplace i j
    rw [hplace.place_eq_iff h]
    constructor
    · exact hnames _ (List.get_mem ..) _ (List.get_mem ..)
    · intro htarget
      have hi := visitedObject?_of_mem (List.get_mem (contributions t n) i)
      have hj := visitedObject?_of_mem (List.get_mem (contributions t n) j)
      rw [htarget, hj] at hi
      rw [Option.some.inj hi]

/-- How the columns of a data object are put into the entries of its summary: in one way, by the
names of the objects that they lead to. -/
structure PlacedByName (t : Tree) (n : Node) (s : DataReference) : Prop where
  placed : ∃! place, Placement (contributions t n) s.targets place
  same : ∀ place, Placement (contributions t n) s.targets place →
    ∀ i j, place i = place j
      ↔ ((contributions t n).get i).object.name = ((contributions t n).get j).object.name
  apart : KeptApart (contributions t n) s.targets ↔ NamesTellApart (contributions t n)

/-- **Columns are put together by name.**  Two columns of a data object are in the same entry
exactly if they lead to objects of the same name.  So columns that lead to different objects are
kept apart exactly if no two objects that they lead to have the same name. -/
theorem placements_by_name {r : Report DataModel} (h : dataModel t c = .ok r) :
    List.Forall₂ (PlacedByName t) (referringNodes t) r.result.references := by
  refine (summaries_of_dataModel h).imp fun n s hs => ?_
  refine ⟨hs.entries.existsUnique_placement, fun place hplace => ?_, keptApart_iff hs.entries⟩
  exact hplace.place_eq_iff hs.entries

/-- An order between a buyer and a seller, both of which are called users. -/
def twinTables : Tree :=
  .ofNodes "__ROOT__"
    [["buyer", "order", "seller"].foldl Node.withChild (Node.make "__ROOT__" .root .null),
      plainObject "buyer" "User" "login",
      referringObject "order" "Order"
        [("bought", "buyer", "login", some .manyToOne),
          ("sold", "seller", "login", some .oneToOne)],
      plainObject "seller" "User" "login"]

theorem placements_by_name_twinTables :
    ∃ r, dataModel twinTables {} = .ok r
      ∧ List.Forall₂ (PlacedByName twinTables) (referringNodes twinTables) r.result.references
      ∧ (referringNodes twinTables).map (·.id) = ["order"] := by
  have hok : (dataModel twinTables {}).map (fun _ => ()) = .ok () := by decide +kernel
  obtain ⟨r, hr, -⟩ := map_ok_iff.mp hok
  exact ⟨r, hr, placements_by_name hr, by decide +kernel⟩

/-- **References to different objects may be merged.**  What was bought leads to the buyers and what
was sold to the sellers, and both are in one entry, with the cardinality of the first. -/
theorem twins_merged :
    ∃ r, dataModel twinTables {} = .ok r
      ∧ r.result.references = [⟨"Order",
        [⟨"User", some .manyToOne, [⟨"bought", "login"⟩, ⟨"sold", "login"⟩]⟩]⟩]
      ∧ (referringNodes twinTables).map (fun n => (contributions twinTables n).map (·.target))
        = [["buyer", "seller"]]
      ∧ ¬ List.Forall₂ (fun n s => KeptApart (contributions twinTables n) s.targets)
        (referringNodes twinTables) r.result.references := by
  have hreferences : (dataModel twinTables {}).map (fun r => r.result.references)
      = .ok [⟨"Order", [⟨"User", some .manyToOne, [⟨"bought", "login"⟩, ⟨"sold", "login"⟩]⟩]⟩] := by
    decide +kernel
  have hcolumns : (referringNodes twinTables).map
      (fun n => (contributions twinTables n).map fun b => (b.object.name, b.target))
      = [[("User", "buyer"), ("User", "seller")]] := by decide +kernel
  obtain ⟨r, hr, heq⟩ := map_ok_iff.mp hreferences
  refine ⟨r, hr, heq, by decide +kernel, fun hapart => ?_⟩
  obtain ⟨n, hnodes, hnames⟩ := List.map_eq_singleton_iff.mp hcolumns
  have hsummaries := summaries_of_dataModel hr
  rw [hnodes, heq] at hapart hsummaries
  have htell := (keptApart_iff (List.forall₂_cons.mp hsummaries).1.entries).mp
    (List.forall₂_cons.mp hapart).1
  obtain ⟨b, rest, hbs, hb, hrest⟩ := List.map_eq_cons_iff.mp hnames
  obtain ⟨b', hrest', hb'⟩ := List.map_eq_singleton_iff.mp hrest
  have hbuyer := Prod.mk.inj hb
  have hseller := Prod.mk.inj hb'
  have hsame := htell b (by simp [hbs]) b' (by simp [hbs, hrest'])
    (hbuyer.1.trans hseller.1.symm)
  rw [hbuyer.2, hseller.2] at hsame
  exact absurd hsame (by decide)

end DomainDesign.Compile
