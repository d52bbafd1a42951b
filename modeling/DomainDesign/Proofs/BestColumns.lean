import DomainDesign.AutoMap
import DomainDesign.Proofs.Dictionaries
import DomainDesign.Proofs.Lists

/-!
# The column that is found for a property

Auto-mapping ranks the columns by the likeness of their names to that of a property and takes the
first that can hold the property.  What it should find is said without any ranking: a `Candidate` is
a column with a name that is enough like the property's and a type that fits, and the `Best`
candidate is the one with the highest score, the first of them if there are several.

**Ranking.**  `NameIndex.pairwise_search`: the names that are found stand in the order of their
scores, and in their own order where the scores are the same.  An index leaves names out, so what it
says about a name is the place of the name in the whole list (`NameIndex.mem_search_iff`).

**One property.**  `columnFor?_eq_some_iff`: the best candidate is what is found.

**All properties.**  `autoMap_finds_best`: every uuid of a property with a candidate is mapped, and
it is mapped to what is found for the last such property.

Scores are compared twice, as numbers and by their places in the total order of floats.  Nothing
else is asked of a measure of likeness than that the two agree on the scores it gives.
-/

namespace DomainDesign

open Model

/-! ## Ranking -/

section Ranking

variable {σ : Type} {r : Ranking σ} {names : List String} {query : String}

/-- All scores can be put in order. -/
structure Ranking.Ordered (r : Ranking σ) : Prop where
  trans : ∀ a b c, r.atLeast a b → r.atLeast b c → r.atLeast a c
  total : ∀ a b, r.atLeast a b || r.atLeast b a

/-- A ranking by likeness orders all floats, whatever the measure. -/
lemma Ranking.ordered_ofLikeness (likeness : String → String → Float) (c : AutoMapConfig) :
    (ofLikeness likeness c).Ordered where
  trans a b c := by
    simp only [ofLikeness, decide_eq_true_eq]
    intro hab hbc
    exact le_trans hbc hab
  total a b := by
    simp only [ofLikeness, Bool.or_eq_true, decide_eq_true_eq]
    exact le_total _ _

/-- Different scores have different places. -/
lemma scorePlace_injective : Function.Injective scorePlace := by
  intro a b h
  have hword : a.toBits = b.toBits := by
    apply UInt64.toNat_inj.mp
    have ha := a.toBits.toNat_lt
    have hb := b.toBits.toNat_lt
    simp only [scorePlace] at h
    split at h <;> split at h <;> omega
  obtain ⟨⟨word, _⟩⟩ := a
  obtain ⟨⟨word', _⟩⟩ := b
  obtain rfl : word = word' := hword
  rfl

namespace NameIndex

lemma mem_entries_iff {e : ℕ × String} :
    e ∈ (ofNames r names).entries
      ↔ ∃ name, names[e.1]? = some name ∧ name ≠ "" ∧ e.2 = r.form name := by
  simp only [ofNames, List.mem_map, List.mem_filter, List.mem_zipIdx_iff_getElem?]
  constructor
  · rintro ⟨⟨name, k⟩, ⟨hk, hname⟩, rfl⟩
    exact ⟨name, hk, by simpa using hname, rfl⟩
  · rintro ⟨name, hk, hname, he⟩
    exact ⟨(name, e.1), ⟨hk, by simpa using hname⟩, by rw [← he]⟩

/-- The names of an index are in the order of the list that they come from. -/
lemma pairwise_entries (r : Ranking σ) (names : List String) :
    (ofNames r names).entries.Pairwise fun a b => a.1 < b.1 := by
  rw [ofNames, List.pairwise_map]
  refine List.Pairwise.filter _ ?_
  have hplaces : (names.zipIdx.map Prod.snd).Pairwise (· < ·) := by
    rw [List.zipIdx_map_snd]
    exact List.pairwise_lt_range'
  exact List.pairwise_map.mp hplaces

/-- **What is found** are the names with a score that is enough, by their places in the whole
list. -/
lemma mem_search_iff {m : NameMatch σ} :
    m ∈ (ofNames r names).search r query
      ↔ ∃ name, names[m.index]? = some name ∧ name ≠ ""
        ∧ m.score = r.score (r.form query) (r.form name) ∧ r.isEnough m.score := by
  simp only [search, List.mem_mergeSort, List.mem_filter, List.mem_map, mem_entries_iff]
  constructor
  · rintro ⟨⟨e, ⟨name, hk, hname, he⟩, rfl⟩, henough⟩
    exact ⟨name, hk, hname, by rw [he], henough⟩
  · rintro ⟨name, hk, hname, hscore, henough⟩
    exact ⟨⟨(m.index, r.form name), ⟨name, hk, hname, rfl⟩, by rw [← hscore]⟩, henough⟩

/-- **The order in which names are found**: that of their scores, and their own where the scores are
the same. -/
lemma pairwise_search (h : r.Ordered) (names : List String) (query : String) :
    ((ofNames r names).search r query).Pairwise fun a b =>
      r.atLeast a.score b.score ∧ (r.atLeast b.score a.score → a.index < b.index) := by
  refine pairwise_mergeSort_place (fun a b c => h.trans _ _ _) (fun a b => h.total _ _) ?_
  refine List.Pairwise.filter _ ?_
  rw [List.pairwise_map]
  exact pairwise_entries r names

end NameIndex

end Ranking

/-! ## One property -/

section OneProperty

variable (likeness : String → String → Float) (c : AutoMapConfig)
  (resolve : String → Option TypeExpr) (columns : List DataProperty) (p : Property)

/-- The score of a column for a property. -/
def scoreFor (column : DataProperty) : Float :=
  likeness (c.form p.name) (c.form column.name)

/-- A column that a property could be mapped to. -/
structure Candidate (column : DataProperty) : Prop where
  named : p.name ≠ ""
  columnNamed : column.name ≠ ""
  alike : c.threshold.toFloat ≤ scoreFor likeness c p column
  fits : ∃ type, p.type = some type ∧ isCompatible resolve type column.type

/-- The column at a place is the candidate with the highest score, and the first with that score. -/
structure Best (k : ℕ) (column : DataProperty) : Prop where
  place : columns[k]? = some column
  candidate : Candidate likeness c resolve p column
  highest : ∀ other ∈ columns, Candidate likeness c resolve p other →
    scoreFor likeness c p other ≤ scoreFor likeness c p column
  first : ∀ j < k, ∀ other, columns[j]? = some other → Candidate likeness c resolve p other →
    scoreFor likeness c p other ≠ scoreFor likeness c p column

/-- As numbers, the scores of the columns for a property are ordered as they are by their places in
the total order of floats. -/
def ScoresOrdered : Prop :=
  ∀ a ∈ columns, ∀ b ∈ columns,
    scoreFor likeness c p a ≤ scoreFor likeness c p b
      ↔ scorePlace (scoreFor likeness c p a) ≤ scorePlace (scoreFor likeness c p b)

variable {likeness c resolve columns p}

instance (column : DataProperty) : Decidable (Candidate likeness c resolve p column) :=
  decidable_of_iff (p.name ≠ "" ∧ column.name ≠ ""
      ∧ c.threshold.toFloat ≤ scoreFor likeness c p column
      ∧ p.type.any fun type => isCompatible resolve type column.type)
    ⟨fun ⟨hname, hcolumn, halike, hfits⟩ =>
      ⟨hname, hcolumn, halike, (Option.any_eq_true _ _).mp hfits⟩,
    fun h => ⟨h.named, h.columnNamed, h.alike, (Option.any_eq_true _ _).mpr h.fits⟩⟩

instance (k : ℕ) (column : DataProperty) : Decidable (Best likeness c resolve columns p k column) :=
  decidable_of_iff (columns[k]? = some column ∧ Candidate likeness c resolve p column
      ∧ (∀ other ∈ columns, Candidate likeness c resolve p other →
        scoreFor likeness c p other ≤ scoreFor likeness c p column)
      ∧ ∀ j < k, ∀ other ∈ columns[j]?, Candidate likeness c resolve p other →
        scoreFor likeness c p other ≠ scoreFor likeness c p column)
    ⟨fun ⟨hplace, hcandidate, hhighest, hfirst⟩ => ⟨hplace, hcandidate, hhighest, hfirst⟩,
    fun h => ⟨h.place, h.candidate, h.highest, h.first⟩⟩

instance : Decidable (ScoresOrdered likeness c columns p) :=
  inferInstanceAs (Decidable (∀ a ∈ columns, ∀ b ∈ columns, _))

/-- The best candidate is one column only. -/
lemma Best.unique (hscores : ScoresOrdered likeness c columns p) {k j : ℕ} {a b : DataProperty}
    (ha : Best likeness c resolve columns p k a) (hb : Best likeness c resolve columns p j b) :
    a = b := by
  have hamem : a ∈ columns := List.mem_of_getElem? ha.place
  have hbmem : b ∈ columns := List.mem_of_getElem? hb.place
  have hsame : scoreFor likeness c p a = scoreFor likeness c p b := by
    apply scorePlace_injective
    apply le_antisymm
    · exact (hscores a hamem b hbmem).mp (hb.highest a hamem ha.candidate)
    · exact (hscores b hbmem a hamem).mp (ha.highest b hbmem hb.candidate)
  obtain rfl : k = j := by
    rcases lt_trichotomy k j with hlt | heq | hlt
    · exact absurd hsame (hb.first k hlt a ha.place ha.candidate)
    · exact heq
    · exact absurd hsame.symm (ha.first j hlt b hb.place hb.candidate)
  exact Option.some.inj (ha.place.symm.trans hb.place)

/-- The names that are found for a property. -/
abbrev matchesFor (likeness : String → String → Float) (c : AutoMapConfig)
    (columns : List DataProperty) (p : Property) : List (NameMatch Float) :=
  (NameIndex.ofNames (.ofLikeness likeness c) (columns.map (·.name))).search
    (.ofLikeness likeness c) p.name

/-- The column that is found for a property. -/
abbrev columnFor? (likeness : String → String → Float) (c : AutoMapConfig)
    (resolve : String → Option TypeExpr) (columns : List DataProperty) (p : Property) :
    Option DataProperty :=
  bestColumn? (.ofLikeness likeness c)
    (NameIndex.ofNames (.ofLikeness likeness c) (columns.map (·.name))) resolve columns p

/-- A match leads to a column that fits. -/
def leadsTo (resolve : String → Option TypeExpr) (columns : List DataProperty) (type : TypeExpr)
    (m : NameMatch Float) : Bool :=
  columns[m.index]?.any fun column => isCompatible resolve type column.type

variable {type : TypeExpr}

/-- **Matches are candidates**, with their scores. -/
lemma match_iff (hname : p.name ≠ "") (htype : p.type = some type) {m : NameMatch Float} :
    m ∈ matchesFor likeness c columns p ∧ leadsTo resolve columns type m
      ↔ ∃ column, columns[m.index]? = some column ∧ Candidate likeness c resolve p column
        ∧ m.score = scoreFor likeness c p column := by
  simp only [NameIndex.mem_search_iff, leadsTo, Option.any_eq_true, List.getElem?_map,
    Option.map_eq_some_iff]
  constructor
  · rintro ⟨⟨_, ⟨column, hplace, rfl⟩, hcolumn, hscore, henough⟩, column', hplace', hfits⟩
    obtain rfl : column = column' := Option.some.inj (hplace.symm.trans hplace')
    have halike : c.threshold.toFloat ≤ scoreFor likeness c p column := by
      rw [hscore] at henough
      exact of_decide_eq_true henough
    exact ⟨column, hplace, ⟨hname, hcolumn, halike, type, htype, hfits⟩, hscore⟩
  · rintro ⟨column, hplace, ⟨-, hcolumn, halike, type', htype', hfits⟩, hscore⟩
    obtain rfl : type = type' := Option.some.inj (htype.symm.trans htype')
    refine ⟨⟨column.name, ⟨column, hplace, rfl⟩, hcolumn, hscore, ?_⟩, column, hplace, hfits⟩
    rw [hscore]
    exact decide_eq_true halike

lemma columnFor?_eq (hname : p.name ≠ "") (htype : p.type = some type) :
    columnFor? likeness c resolve columns p
      = ((matchesFor likeness c columns p).find? (leadsTo resolve columns type)).bind
        fun m => columns[m.index]? := by
  rw [columnFor?, bestColumn?, if_neg (by simpa using hname), htype, Option.bind_some,
    List.find?_filterMap]
  rfl

/-- The column that is found is the best candidate. -/
lemma best_of_columnFor? (hscores : ScoresOrdered likeness c columns p) {column : DataProperty}
    (h : columnFor? likeness c resolve columns p = some column) :
    ∃ k, Best likeness c resolve columns p k column := by
  have hname : p.name ≠ "" := by
    intro hempty
    simp [columnFor?, bestColumn?, hempty] at h
  obtain ⟨type, htype⟩ : ∃ type, p.type = some type := by
    cases htype : p.type with
    | none => simp [columnFor?, bestColumn?, htype] at h
    | some type => exact ⟨type, rfl⟩
  rw [columnFor?_eq hname htype] at h
  obtain ⟨m, hfind, hplace⟩ := Option.bind_eq_some_iff.mp h
  obtain ⟨_, hplace', hcandidate, hscore⟩ :=
    (match_iff hname htype).mp ⟨List.mem_of_find?_eq_some hfind, List.find?_some hfind⟩
  obtain rfl := Option.some.inj (hplace'.symm.trans hplace)
  -- another candidate is a match too, and has been found later or is the same one
  have hother (j : ℕ) (other : DataProperty) (hj : columns[j]? = some other)
      (hcand : Candidate likeness c resolve p other) :
      scorePlace (scoreFor likeness c p other) ≤ scorePlace m.score
        ∧ (scoreFor likeness c p other = m.score → m.index ≤ j) := by
    obtain ⟨hmem, hleads⟩ := (match_iff (m := ⟨j, scoreFor likeness c p other⟩) hname htype).mpr
      ⟨other, hj, hcand, rfl⟩
    have hranked := NameIndex.pairwise_search (Ranking.ordered_ofLikeness likeness c)
      (columns.map (·.name)) p.name
    rcases find?_first hranked hfind hmem hleads with rfl | ⟨hahead, htie⟩
    · exact ⟨le_rfl, fun _ => le_rfl⟩
    · refine ⟨of_decide_eq_true hahead, fun heq => le_of_lt (htie ?_)⟩
      rw [heq]
      exact decide_eq_true le_rfl
  refine ⟨m.index, hplace, hcandidate, fun other hmem hcand => ?_,
    fun j hj other hplace hcand => ?_⟩
  · obtain ⟨j, hj⟩ := List.mem_iff_getElem?.mp hmem
    rw [hscores other hmem _ (List.mem_of_getElem? hplace), ← hscore]
    exact (hother j other hj hcand).1
  · rw [← hscore]
    intro heq
    exact absurd hj (not_lt.mpr ((hother j other hplace hcand).2 heq))

/-- Something is found if there is a candidate. -/
lemma columnFor?_isSome {column : DataProperty} (hmem : column ∈ columns)
    (hcand : Candidate likeness c resolve p column) :
    (columnFor? likeness c resolve columns p).isSome := by
  obtain ⟨type, htype, -⟩ := hcand.fits
  obtain ⟨k, hk⟩ := List.mem_iff_getElem?.mp hmem
  obtain ⟨hmatch, hleads⟩ :=
    (match_iff (m := ⟨k, scoreFor likeness c p column⟩) hcand.named htype).mpr
      ⟨column, hk, hcand, rfl⟩
  obtain ⟨m, hfind⟩ := Option.isSome_iff_exists.mp (List.find?_isSome.mpr ⟨_, hmatch, hleads⟩)
  have hm : leadsTo resolve columns type m := List.find?_some hfind
  obtain ⟨found, hfound, -⟩ := (Option.any_eq_true _ _).mp hm
  rw [columnFor?_eq hcand.named htype, hfind, Option.bind_some, hfound]
  rfl

/-- **The best candidate is what is found.** -/
lemma columnFor?_eq_some_iff (hscores : ScoresOrdered likeness c columns p)
    {column : DataProperty} :
    columnFor? likeness c resolve columns p = some column
      ↔ ∃ k, Best likeness c resolve columns p k column := by
  refine ⟨best_of_columnFor? hscores, ?_⟩
  rintro ⟨k, hbest⟩
  obtain ⟨found, hfound⟩ := Option.isSome_iff_exists.mp
    (columnFor?_isSome (List.mem_of_getElem? hbest.place) hbest.candidate)
  obtain ⟨j, hbest'⟩ := best_of_columnFor? hscores hfound
  rw [hfound, hbest'.unique hscores hbest]

end OneProperty

/-! ## All properties -/

section AllProperties

variable {likeness : String → String → Float} {c : AutoMapConfig}
  {resolve : String → Option TypeExpr} {properties : List Property} {columns : List DataProperty}

/-- What a property adds to the mapping. -/
def mappedTo (likeness : String → String → Float) (c : AutoMapConfig)
    (resolve : String → Option TypeExpr) (columns : List DataProperty) (p : Property) :
    Option (String × String) :=
  (columnFor? likeness c resolve columns p).map fun column => (p.uuid, column.uuid)

lemma mappedTo_eq_some_iff {p : Property} (hscores : ScoresOrdered likeness c columns p)
    {u v : String} :
    mappedTo likeness c resolve columns p = some (u, v)
      ↔ p.uuid = u ∧ ∃ k column, Best likeness c resolve columns p k column ∧ column.uuid = v := by
  simp only [mappedTo, Option.map_eq_some_iff, Prod.mk.injEq, columnFor?_eq_some_iff hscores]
  constructor
  · rintro ⟨column, ⟨k, hbest⟩, hu, hv⟩
    exact ⟨hu, k, column, hbest, hv⟩
  · rintro ⟨hu, k, column, hbest, hv⟩
    exact ⟨column, ⟨k, hbest⟩, hu, hv⟩

/-- A property adds something if it has a candidate. -/
lemma exists_mappedTo_iff {p : Property} (hscores : ScoresOrdered likeness c columns p)
    {u : String} :
    (∃ v, mappedTo likeness c resolve columns p = some (u, v))
      ↔ p.uuid = u ∧ ∃ column ∈ columns, Candidate likeness c resolve p column := by
  constructor
  · rintro ⟨v, hv⟩
    obtain ⟨hu, k, column, hbest, -⟩ := (mappedTo_eq_some_iff hscores).mp hv
    exact ⟨hu, column, List.mem_of_getElem? hbest.place, hbest.candidate⟩
  · rintro ⟨rfl, column, hmem, hcand⟩
    obtain ⟨found, hfound⟩ := Option.isSome_iff_exists.mp (columnFor?_isSome hmem hcand)
    exact ⟨found.uuid, by rw [mappedTo, hfound]; rfl⟩

/-- **Auto-mapping finds the best candidates.**  A uuid is mapped exactly if a property with that
uuid has a candidate, and to the best candidate of the last such property.  It is only asked of the
measure of likeness that the scores it gives are ordered as numbers as they are in the total order
of floats. -/
theorem autoMap_finds_best (likeness : String → String → Float) (c : AutoMapConfig)
    (resolve : String → Option TypeExpr) (properties : List Property) (columns : List DataProperty)
    (hscores : ∀ p ∈ properties, ScoresOrdered likeness c columns p) :
    (∀ u, u ∈ (autoMap (.ofLikeness likeness c) resolve properties columns).keys
      ↔ ∃ p ∈ properties, p.uuid = u
        ∧ ∃ column ∈ columns, Candidate likeness c resolve p column)
      ∧ ∀ u v, (autoMap (.ofLikeness likeness c) resolve properties columns).lookup u = some v
        ↔ ∃ before p after, properties = before ++ p :: after ∧ p.uuid = u
          ∧ (∃ k column, Best likeness c resolve columns p k column ∧ column.uuid = v)
          ∧ ∀ q ∈ after, q.uuid = u →
            ∀ column ∈ columns, ¬ Candidate likeness c resolve q column := by
  have hmap : autoMap (.ofLikeness likeness c) resolve properties columns
      = Dict.ofEntries (properties.filterMap (mappedTo likeness c resolve columns)) := rfl
  rw [hmap]
  refine ⟨fun u => ?_, fun u v => ?_⟩
  · rw [Dict.mem_keys_ofEntries_iff]
    simp only [List.mem_filterMap]
    constructor
    · rintro ⟨v, p, hp, hmapped⟩
      exact ⟨p, hp, (exists_mappedTo_iff (hscores p hp)).mp ⟨v, hmapped⟩⟩
    · rintro ⟨p, hp, hcand⟩
      obtain ⟨v, hmapped⟩ := (exists_mappedTo_iff (hscores p hp)).mpr hcand
      exact ⟨v, p, hp, hmapped⟩
  · rw [Dict.lookup_ofEntries_filterMap]
    constructor
    · rintro ⟨before, p, after, rfl, hmapped, hafter⟩
      obtain ⟨hu, hbest⟩ := (mappedTo_eq_some_iff (hscores p (by simp))).mp hmapped
      refine ⟨before, p, after, rfl, hu, hbest, fun q hq huq column hmem hcand => ?_⟩
      obtain ⟨w, hw⟩ := (exists_mappedTo_iff (hscores q (by simp [hq]))).mpr
        ⟨huq, column, hmem, hcand⟩
      exact hafter q hq w hw
    · rintro ⟨before, p, after, rfl, hu, hbest, hafter⟩
      refine ⟨before, p, after, rfl, ?_, fun q hq w hw => ?_⟩
      · exact (mappedTo_eq_some_iff (hscores p (by simp))).mpr ⟨hu, hbest⟩
      · obtain ⟨huq, column, hmem, hcand⟩ :=
          (exists_mappedTo_iff (hscores q (by simp [hq]))).mp ⟨w, hw⟩
        exact hafter q hq huq column hmem hcand

/-- Columns for the lines of an order: one without a name, one for texts, and two for numbers with
names that are equally like `qty`. -/
def lineColumns : List DataProperty :=
  [{ uuid := "c-0", type := .integer none none },
    { uuid := "c-1", name := "qty", type := .text },
    { uuid := "c-2", name := "QtyA", type := .integer none none },
    { uuid := "c-3", name := "qtyB", type := .long none none }]

/-- Properties under one uuid, of which the last has no candidate. -/
def lineProperties : List Property :=
  [{ uuid := "p", name := "qty", type := some (.base "String") },
    { uuid := "p", name := "qty", type := some (.base "Integer") },
    { uuid := "p", name := "tax", type := some (.base "Double") }]

theorem autoMap_finds_best_line :
    (∀ p ∈ lineProperties, ScoresOrdered Text.likeness {} lineColumns p)
      ∧ (autoMap (.ofConfig {}) (fun _ => none) lineProperties lineColumns).lookup "p"
        = some "c-2" := by
  have hscores : ∀ p ∈ lineProperties, ScoresOrdered Text.likeness {} lineColumns p := by
    decide +kernel
  refine ⟨hscores, ?_⟩
  apply ((autoMap_finds_best Text.likeness {} (fun _ => none) lineProperties lineColumns
    hscores).2 "p" "c-2").mpr
  refine ⟨[lineProperties[0]], lineProperties[1], [lineProperties[2]], rfl, rfl, ?_, ?_⟩
  · exact ⟨2, lineColumns[2], by decide +kernel, rfl⟩
  · decide +kernel

end AllProperties

end DomainDesign
