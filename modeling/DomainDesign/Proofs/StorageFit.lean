import DomainDesign.Proofs.Columns
import DomainDesign.Storage.Projection

/-!
# A column that is made for a type can hold it

Two questions are asked about a type and a column.  `isCompatible` asks whether values of the type
may be written to the column, and `project?` which column is made for the type.  For base types both
go by one table, the first by all entries of a row, the second by the first entry, and by a fallback
for the names without a row.  For references they go different ways: the first asks which type
stands for the reference, the second looks at the enumeration that it leads to.

`projection_fits` says how the answers go together, whatever is found under the ids of references.
A column that is made has no attributes and can hold the type, unless the type is a base type that
no column can hold: such a type gets a column of texts.  Where no column is made, nothing but JSON
could have held the type.

The two ways for references both lead to enumerations only, `referenceStorage?_eq_some_iff` and
`project?_reference_eq_some_iff`, and what they make of an enumeration is compared by
`fitsColumn_storageType`.
-/

namespace DomainDesign

open Model

variable {find : Lookup} {base id name : String} {type : TypeExpr} {column : Storage}

/-! ## Base types -/

lemma attributeFields_ofKind (k : StorageKind) : (Storage.ofKind k).attributeFields = [] := by
  cases k <;> rfl

lemma fitsColumn_base_iff :
    fitsColumn (.base base) column ↔ column.kind ∈ compatibleKinds base := by
  rw [fitsColumn, List.contains_iff_mem]

/-- A base type that may be written to some column may be written to its usual one. -/
lemma fitsColumn_defaultKind (h : compatibleKinds base ≠ []) :
    fitsColumn (.base base) (.ofKind (defaultKind base)) := by
  rw [fitsColumn_base_iff, Compile.kind_ofKind, defaultKind, List.head?_eq_some_head h]
  exact List.head_mem h

/-- A base type that may be written to no column gets a column of texts. -/
lemma defaultKind_of_eq_nil (h : compatibleKinds base = []) : defaultKind base = .string := by
  rw [defaultKind, h]
  rfl

/-! ## References -/

/-- Only a reference to an enumeration has a type that stands for it. -/
lemma referenceStorage?_eq_some_iff :
    find.referenceStorage? id = some type
      ↔ ∃ entry e, find id = some entry ∧ entry.object = .enumeration e ∧ type = e.storageType := by
  unfold Lookup.referenceStorage?
  constructor
  · intro h
    split at h
    next e _ hfind => exact ⟨_, e, hfind, rfl, (Option.some.inj h).symm⟩
    next => cases h
  · rintro ⟨⟨_, _, parent⟩, e, hfind, rfl, rfl⟩
    rw [hfind]

/-- **The column for a reference** is made if the reference leads to an enumeration, and is one for
its codes. -/
lemma project?_reference_eq_some_iff :
    project? (some find) (some (.reference id name)) = some column
      ↔ ∃ entry e, find id = some entry ∧ entry.object = .enumeration e
        ∧ column = .ofKind (codeKind e.base) := by
  simp only [project?, Option.bind_eq_bind, Option.bind_some, Option.bind_eq_some_iff]
  constructor
  · rintro ⟨entry, hfind, h⟩
    split at h
    next e hobject => exact ⟨entry, e, hfind, hobject, (Option.some.inj h).symm⟩
    next => cases h
  · rintro ⟨entry, e, hfind, hobject, rfl⟩
    exact ⟨entry, hfind, by rw [hobject]⟩

/-- The type that stands for an enumeration may be written to the columns for its codes. -/
lemma fitsColumn_storageType (e : Enumeration) :
    fitsColumn e.storageType (.ofKind (codeKind e.base)) := by
  rw [Enumeration.storageType]
  cases e.base <;> decide

/-- A reference to an enumeration may be written to a column for its codes. -/
lemma isCompatible_codeKind {entry : StoreEntry} {e : Enumeration} (hfind : find id = some entry)
    (hobject : entry.object = .enumeration e) :
    isCompatible find.referenceStorage? (.reference id name) (.ofKind (codeKind e.base)) := by
  rw [isCompatible, referenceStorage?_eq_some_iff.mpr ⟨entry, e, hfind, hobject, rfl⟩]
  exact fitsColumn_storageType e

/-- A reference for which no column is made may be written to none. -/
lemma not_isCompatible_reference
    (h : project? (some find) (some (.reference id name)) = none) :
    ¬ isCompatible find.referenceStorage? (.reference id name) column := by
  cases hstorage : find.referenceStorage? id with
  | none => simp [isCompatible, hstorage]
  | some type =>
      obtain ⟨entry, e, hfind, hobject, -⟩ := referenceStorage?_eq_some_iff.mp hstorage
      rw [project?_reference_eq_some_iff.mpr ⟨entry, e, hfind, hobject, rfl⟩] at h
      cases h

/-! ## All types -/

/-- **A column that is made for a type can hold it, and one that could hold it is made.**  The
exceptions are the base types without a row, which no column can hold and which get a column of
texts, and what is kept as JSON, for which no column is made. -/
theorem projection_fits (find : Lookup) (type : TypeExpr) :
    (∀ s, project? (some find) (some type) = some s →
      s.attributeFields = []
        ∧ (isCompatible find.referenceStorage? type s
          ∨ (∃ base, type = .base base ∧ compatibleKinds base = []) ∧ s.kind = .string
            ∧ ∀ column, ¬ isCompatible find.referenceStorage? type column))
      ∧ (project? (some find) (some type) = none →
        ∀ column, isCompatible find.referenceStorage? type column → column.kind = .json) := by
  cases type with
  | base base =>
      refine ⟨?_, nofun⟩
      rintro s ⟨⟩
      refine ⟨attributeFields_ofKind _, ?_⟩
      by_cases hrow : compatibleKinds base = []
      · refine .inr ⟨⟨base, rfl, hrow⟩, ?_, fun column hcolumn => ?_⟩
        · rw [Compile.kind_ofKind, defaultKind_of_eq_nil hrow]
        · have hmem := fitsColumn_base_iff.mp hcolumn
          rw [hrow] at hmem
          exact List.not_mem_nil hmem
      · exact .inl (fitsColumn_defaultKind hrow)
  | reference id name =>
      refine ⟨fun s hs => ?_, fun hnone column hcolumn => ?_⟩
      · obtain ⟨entry, e, hfind, hobject, rfl⟩ := project?_reference_eq_some_iff.mp hs
        exact ⟨attributeFields_ofKind _, .inl (isCompatible_codeKind hfind hobject)⟩
      · exact absurd hcolumn (not_isCompatible_reference hnone)
  | container name params =>
      refine ⟨nofun, fun _ column hcolumn => ?_⟩
      simpa [isCompatible, fitsColumn] using hcolumn

/-- An enumeration of numbers and a class under other ids than their own. -/
def stateLookup : Lookup
  | "state" => some { id := "status", object := .enumeration { uuid := "status", base := .number } }
  | "order" => some { id := "order", object := .entity { uuid := "purchase", name := "Order" } }
  | _ => none

theorem projection_fits_state :
    project? (some stateLookup) (some (.reference "state" "State")) = some (.ofKind .integer)
      ∧ isCompatible stateLookup.referenceStorage? (.reference "state" "State") (.ofKind .integer)
      ∧ project? (some stateLookup) (some (.reference "order" "Order")) = none
      ∧ (∀ column, isCompatible stateLookup.referenceStorage? (.reference "order" "Order") column →
        column.kind = .json)
      ∧ project? (some stateLookup) (some (.base "Money")) = some (.ofKind .string)
      ∧ ∀ column, ¬ isCompatible stateLookup.referenceStorage? (.base "Money") column := by
  have hstate := (projection_fits stateLookup (.reference "state" "State")).1 _ rfl
  have hmoney := (projection_fits stateLookup (.base "Money")).1 _ rfl
  refine ⟨rfl, ?_, rfl, (projection_fits stateLookup (.reference "order" "Order")).2 rfl, rfl, ?_⟩
  · rcases hstate.2 with hfits | ⟨⟨base, hbase, -⟩, -⟩
    · exact hfits
    · cases hbase
  · rcases hmoney.2 with hfits | ⟨-, -, hnone⟩
    · exact absurd hfits (by decide)
    · exact hnone

end DomainDesign
