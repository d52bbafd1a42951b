import DomainDesign.Proofs.Generation

/-!
# The two mappers of a generation

A generation makes a mapper from the root to its columns, and one from the data transfer object of
the root to the same columns.  The properties of the one have been given, those of the other were
filled in one by one, perhaps while a class that leads back to the root was being carried.
`mappers_agree` says that the mappers are nevertheless the same but for the side they start from:
both pair the properties at the same places, in order, and at each place with the same column.

Which places these are can be told from the names alone (`pairedPlaces`), and the properties of the
data transfer object have the names of those of the root.  `matched_places` puts the pairs of one
mapper at their places.
-/

namespace DomainDesign.Artifacts

open Model Carrier

variable {σ : Type} [IdSource σ] {store : Store} {columns : List DataProperty}

/-- The first of the columns with a name. -/
def FirstNamed (columns : List DataProperty) (name : String) (column : DataProperty) : Prop :=
  ∃ before after, columns = before ++ column :: after ∧ column.name = name
    ∧ ∀ earlier ∈ before, earlier.name ≠ name

lemma firstNamed_iff {name : String} {column : DataProperty} :
    (columns.find? fun c => c.name = name) = some column ↔ FirstNamed columns name column := by
  rw [List.find?_eq_some_iff_append, FirstNamed]
  simp only [decide_eq_true_eq, Bool.not_eq_true', decide_eq_false_iff_not]
  constructor
  · rintro ⟨hname, before, after, hcut, hbefore⟩
    exact ⟨before, after, hcut, hname, hbefore⟩
  · rintro ⟨before, after, hcut, hname, hbefore⟩
    exact ⟨hname, before, after, hcut, hbefore⟩

/-- Whether a column has a name. -/
def isColumn (columns : List DataProperty) (name : String) : Bool :=
  columns.any fun c => c.name = name

/-- The places of the names that a column has. -/
def pairedPlaces (columns : List DataProperty) (names : List String) : List ℕ :=
  names.findIdxs (isColumn columns)

/-- A property at a place has a first column of its name. -/
def PlacedAt (columns : List DataProperty) (ps : List Property) (start : ℕ)
    (e : Property × DataProperty) (i : ℕ) : Prop :=
  ∃ k, i = start + k ∧ ps[k]? = some e.1 ∧ FirstNamed columns e.1.name e.2

/-- **The pairs of a mapper stand at the places of the names that a column has.** -/
lemma matched_places (columns : List DataProperty) (ps : List Property) (start : ℕ) :
    List.Forall₂ (PlacedAt columns ps start) (matched columns ps)
      ((ps.map (·.name)).findIdxs (isColumn columns) start) := by
  induction ps generalizing start with
  | nil => exact .nil
  | cons p rest ih =>
      have hrest : List.Forall₂ (PlacedAt columns (p :: rest) start) (matched columns rest)
          ((rest.map (·.name)).findIdxs (isColumn columns) (start + 1)) := by
        refine (ih (start + 1)).imp ?_
        rintro e _ ⟨k, rfl, hk, hfirst⟩
        exact ⟨k + 1, by omega, hk, hfirst⟩
      rw [List.map_cons, List.findIdxs_cons]
      cases hfind : columns.find? fun c => c.name = p.name with
      | none =>
          have hname : isColumn columns p.name = false := by
            simpa [isColumn] using hfind
          have hmatched : matched columns (p :: rest) = matched columns rest := by
            simp [matched, hfind]
          rw [hname, hmatched]
          exact hrest
      | some column =>
          have hname : isColumn columns p.name = true := by
            rw [isColumn, List.any_eq_true]
            exact ⟨column, List.mem_of_find?_eq_some hfind, by simpa using List.find?_some hfind⟩
          have hmatched : matched columns (p :: rest) = (p, column) :: matched columns rest := by
            simp [matched, hfind]
          rw [hname, hmatched]
          exact .cons ⟨0, rfl, rfl, firstNamed_iff.mp hfind⟩ hrest

/-- A pair of fields leads from the property at a place to the first column of its name. -/
def PairAt (columns : List DataProperty) (ps : List Property) (i : ℕ) (f : FieldMapper) : Prop :=
  ∃ p column, ps[i]? = some p ∧ FirstNamed columns p.name column
    ∧ f.source = some p.uuid ∧ f.target = some column.uuid

lemma MapperFor.pairs_at {part : ObjectSource} {c : ClassBody} {d : DataObject} {m : MapperObject}
    (h : MapperFor part c d m) :
    List.Forall₂ (PairAt d.properties c.properties)
      (pairedPlaces d.properties (c.properties.map (·.name))) m.mappers := by
  refine forall₂_of_common (matched_places d.properties c.properties 0) h.pairs ?_
  rintro ⟨p, column⟩ i f ⟨k, rfl, hk, hfirst⟩ hpair
  rw [Nat.zero_add]
  exact ⟨p, column, hk, hfirst, congrArg FieldMapper.source hpair,
    congrArg FieldMapper.target hpair⟩

lemma mem_pairedPlaces_iff {ps : List Property} {i : ℕ} :
    i ∈ pairedPlaces columns (ps.map (·.name))
      ↔ ∃ p, ps[i]? = some p ∧ ∃ column ∈ columns, column.name = p.name := by
  rw [pairedPlaces, List.mem_findIdxs_iff_exists_getElem_pos]
  simp only [List.getElem_map, List.length_map, isColumn, List.any_eq_true, decide_eq_true_eq,
    List.getElem?_eq_some_iff]
  constructor
  · rintro ⟨hi, hcolumn⟩
    exact ⟨ps[i], ⟨hi, rfl⟩, hcolumn⟩
  · rintro ⟨_, ⟨hi, rfl⟩, hcolumn⟩
    exact ⟨hi, hcolumn⟩

/-- The two mappers pair the properties at the same places, `places`, with the same columns. -/
structure Aligned (root : Entity) (rootDto : Dto) (a : Artifacts) (places : List ℕ) : Prop where
  names : rootDto.properties.map (·.name) = root.properties.map (·.name)
  ascending : places.Pairwise (· < ·)
  paired : ∀ i, i ∈ places ↔ ∃ p, root.properties[i]? = some p
    ∧ ∃ column ∈ a.dataObject.properties, column.name = p.name
  length_mapper : a.mapper.mappers.length = places.length
  length_dtoMapper : a.dtoMapper.mappers.length = places.length
  pairs : ∀ k i : ℕ, places[k]? = some i →
    ∃ (f g : FieldMapper) (p q : Property) (column : DataProperty),
      a.mapper.mappers[k]? = some f ∧ a.dtoMapper.mappers[k]? = some g
        ∧ root.properties[i]? = some p ∧ rootDto.properties[i]? = some q
        ∧ FirstNamed a.dataObject.properties p.name column
        ∧ f.source = some p.uuid ∧ f.target = some column.uuid
        ∧ g.source = some q.uuid ∧ g.target = some column.uuid

lemma aligned_of_pairs {root : Entity} {rootDto : Dto} {a : Artifacts}
    (hnames : rootDto.properties.map (·.name) = root.properties.map (·.name))
    (hmapper : MapperFor .domain root.toClassBody a.dataObject a.mapper)
    (hdtoMapper : MapperFor .struct rootDto.toClassBody a.dataObject a.dtoMapper) :
    Aligned root rootDto a
      (pairedPlaces a.dataObject.properties (root.properties.map (·.name))) := by
  have hpairs := hmapper.pairs_at
  have hdtoPairs := hdtoMapper.pairs_at
  -- the places are told by the names, which are the same
  rw [hnames] at hdtoPairs
  refine {
    names := hnames
    ascending := List.pairwise_findIdxs
    paired := fun i => mem_pairedPlaces_iff
    length_mapper := hpairs.length_eq.symm
    length_dtoMapper := hdtoPairs.length_eq.symm
    pairs := ?pairs }
  case pairs =>
    intro k i hi
    obtain ⟨f, hf, p, column, hp, hcolumn, hsource, htarget⟩ := exists_getElem?_right hpairs hi
    obtain ⟨g, hg, q, column', hq, hcolumn', hsource', htarget'⟩ :=
      exists_getElem?_right hdtoPairs hi
    have hname : q.name = p.name := by
      have hat : (rootDto.properties.map (·.name))[i]? = (root.properties.map (·.name))[i]? := by
        rw [hnames]
      simpa [hp, hq] using hat
    obtain rfl : column = column' := by
      rw [hname] at hcolumn'
      exact Option.some.inj ((firstNamed_iff.mpr hcolumn).symm.trans (firstNamed_iff.mpr hcolumn'))
    exact ⟨f, g, p, q, column, hf, hg, hp, hq, hcolumn, hsource, htarget, hsource', htarget'⟩

/-- **The two mappers agree.**  When a generation succeeds, its mappers pair the properties at the
same places of the root and of the data transfer object of the root, which is the first that is
made.  A place is paired if a column has the name of the property there, and it is paired with the
first such column. -/
theorem mappers_agree {root : Entity} {ids ids' : σ} {a : Artifacts}
    (h : generateFrom store root ids = (.ok a, ids')) :
    ∃ rootDto places, a.dtos.head? = some rootDto
      ∧ a.dtoMapper.source = some (.of .struct rootDto.uuid rootDto.name)
      ∧ Aligned root rootDto a places := by
  obtain ⟨pairs, rootDto, idProperty, idInput, hgenerated⟩ := generated_of_generate h
  have hcarried := hgenerated.carried _ hgenerated.rooted
  have hnames : rootDto.properties.map (·.name) = root.properties.map (·.name) := by
    refine map_eq_map (hcarried.properties.imp fun p q hpq => ?_)
    rw [hpq.content]
  refine ⟨rootDto, _, ?_, ?_, aligned_of_pairs hnames hgenerated.mapper hgenerated.dtoMapper⟩
  · rw [hgenerated.dtos, List.head?_map, hgenerated.leading]
    rfl
  · rw [hgenerated.dtoMapper.content]

/-- A folder that stands in another one, with two properties of one name of which the second has no
column of its own. -/
def folder : Entity :=
  { uuid := "folder", name := "Folder", idUuid := "p1", isAggregationRoot := true
    properties :=
      [.of "p1" "number" (.base "Long"), .of "p2" "parent" (.reference "folder" "Folder"),
        .of "p3" "label" (.base "String"), .of "p4" "label" (.list (.base "String"))] }

def folderStore : Store :=
  .ofEntries [{ id := "folder", object := .entity folder }]

theorem mappers_agree_folder :
    ∃ a ids', generateFrom folderStore folder ({} : IdSupply) = (.ok a, ids')
      ∧ a.mapper.mappers.map (fun f => (f.source, f.target))
        = [(some "p1", some "id-10"), (some "p3", some "id-11"), (some "p4", some "id-11")]
      ∧ ∃ rootDto places, a.dtos.head? = some rootDto
        ∧ a.dtoMapper.source = some (.of .struct rootDto.uuid rootDto.name)
        ∧ Aligned folder rootDto a places := by
  have hpairs : (generateFrom folderStore folder ({} : IdSupply)).1.map (fun a =>
      a.mapper.mappers.map fun f => (f.source, f.target))
      = .ok [(some "p1", some "id-10"), (some "p3", some "id-11"), (some "p4", some "id-11")] := by
    decide +kernel
  rcases h : generateFrom folderStore folder ({} : IdSupply) with ⟨made, ids'⟩
  rw [h] at hpairs
  obtain ⟨a, rfl, hmapped⟩ := map_ok_iff.mp hpairs
  exact ⟨a, ids', rfl, hmapped, mappers_agree h⟩

end DomainDesign.Artifacts
