import DomainDesign.Proofs.Recompilation

/-!
# Every id of a generation is drawn once and used once

Artifacts are full of uuids, and nothing but the order of the steps keeps them apart: ids are drawn
before, between and after the steps that make the data transfer objects, which draw some
themselves.  `ids_used_once` says that the uuids in artifacts are the ids that have been drawn,
each in one place.

`Generated.minted` counts the ids along the steps.  What is added here is that it counts all of
them: `Artifacts.occurring` looks wherever a part of an artifact could have a uuid, also at methods
and indexes, which artifacts do not have (`Generated.occurring_eq`).
-/

namespace DomainDesign

namespace Model

/-- The uuids of a method and of its parameters. -/
def Method.uuids (m : Method) : List String :=
  m.uuid :: m.parameters.map (·.uuid)

/-- The uuids of a class and of everything in it. -/
def ClassBody.uuids (c : ClassBody) : List String :=
  c.uuid :: (c.properties ++ c.classProperties).map (·.uuid)
    ++ (c.methods ++ c.classMethods).flatMap Method.uuids

/-- The uuids of a data object, of its columns and of its indexes. -/
def DataObject.uuids (d : DataObject) : List String :=
  d.uuid :: d.properties.map (·.uuid) ++ d.indexes.map (·.uuid)

end Model

namespace Artifacts

open Model Carrier

/-- The uuids that occur anywhere in artifacts, each as often as it occurs. -/
def occurring (a : Artifacts) : List String :=
  queryUuids a.detailQuery ++ queryUuids a.pageQuery
    ++ a.dtos.flatMap (fun d => d.toClassBody.uuids) ++ a.dataObject.uuids
    ++ mapperUuids a.mapper ++ mapperUuids a.dtoMapper

variable {store : Store} {root : Entity} {ids ids' : IdSupply} {a : Artifacts}
  {pairs : List (ClassBody × Dto)} {rootDto : Dto} {idProperty idInput : Property}

/-- There are no other uuids in artifacts than those that have been counted. -/
lemma Generated.occurring_eq
    (h : Generated store root ids ids' a pairs rootDto idProperty idInput) :
    a.occurring = a.uuids := by
  have hdtos : a.dtos.flatMap (fun d => d.toClassBody.uuids) = a.dtos.flatMap uuidsOf := by
    refine List.flatMap_congr fun d hd => ?_
    obtain ⟨hmethods, hclassProperties, hclassMethods⟩ :=
      (selfContained_of_generated h).plain d hd
    simp [ClassBody.uuids, uuidsOf, hmethods, hclassProperties, hclassMethods]
  have htable : a.dataObject.uuids = tableUuids a.dataObject := by
    have hindexes : a.dataObject.indexes = [] := by rw [h.dataObject]
    simp [DataObject.uuids, tableUuids, hindexes]
  rw [occurring, uuids, hdtos, htable]

/-- **Every id is drawn once and used once.**  When a generation succeeds, the uuids in what it
makes are the ids that it has drawn from the supply, and no two parts have the same one. -/
theorem ids_used_once (h : generate store root ids = (.ok a, ids')) :
    ∃ n, ids' = { ids with issued := ids.issued + n }
      ∧ a.occurring.Nodup ∧ a.occurring.length = n
      ∧ ∀ id, id ∈ a.occurring
        ↔ ∃ k, 1 ≤ k ∧ k ≤ n ∧ id = ids.label ++ "-" ++ toString (ids.issued + k) := by
  obtain ⟨pairs, rootDto, idProperty, idInput, hgenerated⟩ := generated_of_generate h
  have hminted : IdSupply.Minted ids ids' a.occurring := by
    rw [hgenerated.occurring_eq]
    exact hgenerated.minted
  refine ⟨a.occurring.length, ?_, hminted.nodup, rfl, fun id => ?_⟩
  · cases ids'
    simpa using ⟨hminted.label, hminted.issued⟩
  · rw [hminted.drawn.mem_iff, List.mem_map]
    constructor
    · rintro ⟨m, hm, rfl⟩
      obtain ⟨hfirst, hlast⟩ := List.mem_range'_1.mp hm
      refine ⟨m - ids.issued, by omega, by omega, ?_⟩
      rw [IdSupply.idAt, show ids.issued + (m - ids.issued) = m by omega]
    · rintro ⟨k, hfirst, hlast, rfl⟩
      exact ⟨ids.issued + k, List.mem_range'_1.mpr ⟨by omega, by omega⟩, rfl⟩

theorem ids_used_once_order :
    ∃ a, generate orderStore order { label := "gen", issued := 40 }
        = (.ok a, { label := "gen", issued := 64 })
      ∧ a.occurring.Nodup
      ∧ ∀ id, id ∈ a.occurring
        ↔ ∃ k, 1 ≤ k ∧ k ≤ 24 ∧ id = "gen" ++ "-" ++ toString (40 + k) := by
  have hids : (match generate orderStore order { label := "gen", issued := 40 } with
      | (.ok _, ids') => some ids'
      | (.error _, _) => none) = some { label := "gen", issued := 64 } := by decide +kernel
  rcases h : generate orderStore order { label := "gen", issued := 40 } with ⟨e | a, ids'⟩
  · rw [h] at hids
    cases hids
  · rw [h] at hids
    cases hids
    obtain ⟨n, hn, hnodup, -, hmem⟩ := ids_used_once h
    obtain rfl : n = 24 := by
      have hissued : 64 = 40 + n := congrArg IdSupply.issued hn
      omega
    exact ⟨a, rfl, hnodup, hmem⟩

end Artifacts

end DomainDesign
