import DomainDesign.Proofs.ModelCodec
import DomainDesign.Proofs.Synthesis

/-!
# The types of data transfer objects

A type that has been carried refers to nothing but data transfer objects, and its parameters stand
in key order whatever the order in the source.

**Replacing.**  `mem_references_replaceReferences` and `ordered_replaceReferences` say what the
references and the parameters are where references have been replaced.

**Writing out.**  The text of a type depends only on what its references are written as:
`render_congr`.
-/

namespace DomainDesign

namespace TypeExpr

variable {f : String → TypeExpr}

/-! ## References -/

mutual

/-- The references in a type, at any depth, with the names that they show. -/
def references : TypeExpr → List (String × String)
  | .base _ => []
  | .container _ params => paramReferences params
  | .reference id name => [(id, name)]

/-- The references in the parameters of a type. -/
def paramReferences : List (String × Option TypeExpr) → List (String × String)
  | [] => []
  | (_, none) :: rest => paramReferences rest
  | (_, some t) :: rest => references t ++ paramReferences rest

end

/-- The references in a type, if there is one. -/
def references? : Option TypeExpr → List (String × String)
  | none => []
  | some t => t.references

mutual

lemma map_fst_references : (t : TypeExpr) → t.references.map (·.1) = t.targets
  | .base _ => rfl
  | .container _ params => map_fst_paramReferences params
  | .reference _ _ => rfl

lemma map_fst_paramReferences : (params : List (String × Option TypeExpr)) →
    (paramReferences params).map (·.1) = paramTargets params
  | [] => rfl
  | (_, none) :: rest => map_fst_paramReferences rest
  | (_, some t) :: rest => by
      rw [paramReferences, paramTargets, List.map_append, map_fst_references t,
        map_fst_paramReferences rest]

end

lemma map_fst_references? (type : Option TypeExpr) :
    (references? type).map (·.1) = targets? type := by
  cases type with
  | none => rfl
  | some t => exact map_fst_references t

lemma mem_paramReferences {params : List (String × Option TypeExpr)} {r : String × String} :
    r ∈ paramReferences params ↔ ∃ key t, (key, some t) ∈ params ∧ r ∈ t.references := by
  induction params with
  | nil => simp [paramReferences]
  | cons e rest ih =>
      rcases e with ⟨k, _ | s⟩
      · simp only [paramReferences, ih, List.mem_cons, Prod.mk.injEq, reduceCtorEq, and_false,
          false_or]
      · simp only [paramReferences, List.mem_append, ih, List.mem_cons, Prod.mk.injEq,
          Option.some.injEq]
        constructor
        · rintro (hr | ⟨key, t, ht, hr⟩)
          · exact ⟨k, s, .inl ⟨rfl, rfl⟩, hr⟩
          · exact ⟨key, t, .inr ht, hr⟩
        · rintro ⟨key, t, ⟨-, rfl⟩ | ht, hr⟩
          · exact .inl hr
          · exact .inr ⟨key, t, ht, hr⟩

mutual

/-- Where references have been replaced, only what stands for them refers to anything. -/
lemma mem_references_replaceReferences {r : String × String} :
    (t : TypeExpr) → r ∈ (t.replaceReferences f).references →
    ∃ source ∈ t.targets, r ∈ (f source).references
  | .base _, h => by simp [replaceReferences, references] at h
  | .reference source _, h => ⟨source, by simp [targets], h⟩
  | .container _ params, h => by
      obtain ⟨key, t, ht, hr⟩ := mem_paramReferences.mp h
      exact mem_references_replaceParams params (Dict.mem_of_mem_ofEntries ht) hr

lemma mem_references_replaceParams {r : String × String} {key : String} {t : TypeExpr} :
    (params : List (String × Option TypeExpr)) → (key, some t) ∈ replaceParams f params →
    r ∈ t.references →
    ∃ source ∈ paramTargets params, r ∈ (f source).references
  | [], h, _ => by simp [replaceParams] at h
  | (_, none) :: rest, h, hr => by
      simp only [replaceParams, List.mem_cons, Prod.mk.injEq, reduceCtorEq, and_false,
        false_or] at h
      exact mem_references_replaceParams rest h hr
  | (_, some s) :: rest, h, hr => by
      simp only [replaceParams, List.mem_cons, Prod.mk.injEq, Option.some.injEq] at h
      simp only [paramTargets, List.mem_append]
      rcases h with ⟨-, rfl⟩ | h
      · obtain ⟨source, hsource, hmem⟩ := mem_references_replaceReferences s hr
        exact ⟨source, .inl hsource, hmem⟩
      · obtain ⟨source, hsource, hmem⟩ := mem_references_replaceParams rest h hr
        exact ⟨source, .inr hsource, hmem⟩

end

/-! ## Order -/

lemma paramsOrdered_iff {params : List (String × Option TypeExpr)} :
    ParamsOrdered params ↔ ∀ key t, (key, some t) ∈ params → t.Ordered := by
  induction params with
  | nil => simp [ParamsOrdered]
  | cons e rest ih =>
      rcases e with ⟨k, _ | s⟩
      · simp [ParamsOrdered, ih]
      · simp only [ParamsOrdered, ih, List.mem_cons, Prod.mk.injEq, Option.some.injEq]
        constructor
        · rintro ⟨hs, hrest⟩ key t (⟨-, rfl⟩ | ht)
          · exact hs
          · exact hrest key t ht
        · intro h
          exact ⟨h k s (.inl ⟨rfl, rfl⟩), fun key t ht => h key t (.inr ht)⟩

mutual

/-- Where references have been replaced by ordered types, the whole is ordered. -/
lemma ordered_replaceReferences : (t : TypeExpr) → (∀ id ∈ t.targets, (f id).Ordered) →
    (t.replaceReferences f).Ordered
  | .base _, _ => trivial
  | .reference id _, h => h id (by simp [targets])
  | .container _ params, h => by
      refine ⟨Dict.sorted_ofEntries _, paramsOrdered_iff.mpr fun key t ht => ?_⟩
      exact ordered_of_mem_replaceParams params h (Dict.mem_of_mem_ofEntries ht)

lemma ordered_of_mem_replaceParams {key : String} {t : TypeExpr} :
    (params : List (String × Option TypeExpr)) → (∀ id ∈ paramTargets params, (f id).Ordered) →
    (key, some t) ∈ replaceParams f params → t.Ordered
  | [], _, ht => by simp [replaceParams] at ht
  | (_, none) :: rest, h, ht => by
      simp only [replaceParams, List.mem_cons, Prod.mk.injEq, reduceCtorEq, and_false,
        false_or] at ht
      exact ordered_of_mem_replaceParams rest h ht
  | (_, some s) :: rest, h, ht => by
      simp only [replaceParams, List.mem_cons, Prod.mk.injEq, Option.some.injEq] at ht
      simp only [paramTargets, List.mem_append] at h
      rcases ht with ⟨-, rfl⟩ | ht
      · exact ordered_replaceReferences s fun id hid => h id (.inl hid)
      · exact ordered_of_mem_replaceParams rest (fun id hid => h id (.inr hid)) ht

end

/-! ## Text -/

variable {void : String} {resolve resolve' : String → String → String}

mutual

/-- Only what the references of a type are written as matters for its text. -/
lemma render_congr :
    (t : TypeExpr) → (∀ id ∈ t.targets, ∀ name, resolve id name = resolve' id name) →
    t.render void resolve = t.render void resolve'
  | .base _, _ => rfl
  | .reference id name, h => h id (by simp [targets]) name
  | .container _ params, h => by rw [render, render, renderParams_congr params h]

lemma renderParams_congr : (params : List (String × Option TypeExpr)) →
    (∀ id ∈ paramTargets params, ∀ name, resolve id name = resolve' id name) →
    renderParams void resolve params = renderParams void resolve' params
  | [], _ => rfl
  | (_, none) :: rest, h => by rw [renderParams, renderParams, renderParams_congr rest h]
  | (_, some t) :: rest, h => by
      simp only [paramTargets, List.mem_append] at h
      rw [renderParams, renderParams, render_congr t fun id hid => h id (.inl hid),
        renderParams_congr rest fun id hid => h id (.inr hid)]

end

lemma render?_congr {type : Option TypeExpr}
    (h : ∀ id ∈ targets? type, ∀ name, resolve id name = resolve' id name) :
    render? void resolve type = render? void resolve' type := by
  cases type with
  | none => rfl
  | some t => exact render_congr t h

end TypeExpr

/-! ## Carried types -/

namespace Carrier

open Model

variable {store : Store} {pairs : List (ClassBody × Dto)} {id : String} {t : TypeExpr}

/-- What stands for an id is a base type or refers to a data transfer object. -/
lemma base_or_reference (h : carrier? store (pairHeaders pairs) id = some t) :
    (∃ name, t = .base name) ∨ ∃ e ∈ pairs, t = reference e.2 := by
  rw [carrier?] at h
  split at h
  · split at h <;> exact .inl ⟨_, (Option.some.inj h).symm⟩
  · obtain ⟨c, -, hlook⟩ := Option.bind_eq_some_iff.mp h
    obtain ⟨e, he, heq⟩ := List.mem_map.mp (Dict.mem_of_lookup hlook)
    exact .inr ⟨e, he, (congrArg Prod.snd heq).symm⟩

variable {source target : Option TypeExpr}

/-- A carried type refers to data transfer objects only, and shows their names. -/
lemma TypeCarried.references (h : TypeCarried store (pairHeaders pairs) source target) :
    ∀ r ∈ TypeExpr.references? target, ∃ e ∈ pairs, r = (e.2.uuid, e.2.name) := by
  intro r hr
  rw [h.replaced] at hr
  cases source with
  | none => simp [TypeExpr.references?] at hr
  | some s =>
      obtain ⟨origin, horigin, hr⟩ := TypeExpr.mem_references_replaceReferences s hr
      obtain ⟨t, ht⟩ := Option.isSome_iff_exists.mp (h.resolved origin horigin)
      rw [ht, Option.getD_some] at hr
      rcases base_or_reference ht with ⟨name, rfl⟩ | ⟨e, he, rfl⟩
      · simp [TypeExpr.references] at hr
      · exact ⟨e, he, by simpa [reference, TypeExpr.references] using hr⟩

/-- The parameters of a carried type stand in key order. -/
lemma TypeCarried.ordered (h : TypeCarried store (pairHeaders pairs) source target) :
    TypeExpr.Ordered? target := by
  intro t ht
  rw [h.replaced] at ht
  obtain ⟨s, rfl, rfl⟩ := Option.map_eq_some_iff.mp ht
  refine TypeExpr.ordered_replaceReferences s fun id hid => ?_
  obtain ⟨t, ht⟩ := Option.isSome_iff_exists.mp (h.resolved id hid)
  rw [ht, Option.getD_some]
  rcases base_or_reference ht with ⟨name, rfl⟩ | ⟨e, -, rfl⟩ <;> trivial

end Carrier

end DomainDesign
