import DomainDesign.Proofs.DepthFirst
import DomainDesign.Proofs.Stores

/-!
# The graph of the classes of a store

The properties of a class have types, types refer to ids, and a store has classes under ids: so
classes have `neighbours`, in the order in which the references stand.

**Types.**  `TypeExpr.targets` are the ids that a type refers to, at any depth, and
`TypeExpr.replaceReferences` puts other types in their place.

**Walks.**  `Walk store` is the depth-first search through classes by their uuids, from each class
to its neighbours.

**What is reached.**  `Reached store root` is the least set that holds the root and is closed under
neighbours.  A walk from the root meets exactly that: `Walk.mem_iff_reached`.
-/

namespace DomainDesign

open Model

/-! ## References in types -/

namespace TypeExpr

mutual

/-- The ids that a type refers to, at any depth, in the order in which they stand. -/
def targets : TypeExpr → List String
  | .base _ => []
  | .container _ params => paramTargets params
  | .reference id _ => [id]

/-- The ids that the parameters of a type refer to. -/
def paramTargets : List (String × Option TypeExpr) → List String
  | [] => []
  | (_, none) :: rest => paramTargets rest
  | (_, some t) :: rest => targets t ++ paramTargets rest

end

mutual

/-- The type with every reference replaced by what stands for its id.  The parameters of a container
keep their names, and stand in the order of these. -/
def replaceReferences (f : String → TypeExpr) : TypeExpr → TypeExpr
  | .base n => .base n
  | .container n params => .container n (Dict.ofEntries (replaceParams f params))
  | .reference id _ => f id

/-- The parameters with every reference replaced. -/
def replaceParams (f : String → TypeExpr) :
    List (String × Option TypeExpr) → List (String × Option TypeExpr)
  | [] => []
  | (k, none) :: rest => (k, none) :: replaceParams f rest
  | (k, some t) :: rest => (k, some (replaceReferences f t)) :: replaceParams f rest

end

mutual

/-- Only what stands for the ids in a type matters. -/
lemma replaceReferences_congr {f g : String → TypeExpr} :
    (t : TypeExpr) → (∀ id ∈ t.targets, f id = g id) → t.replaceReferences f = t.replaceReferences g
  | .base _, _ => rfl
  | .container n params, h => by
      rw [replaceReferences, replaceReferences, replaceParams_congr params h]
  | .reference id _, h => h id (by simp [targets])

lemma replaceParams_congr {f g : String → TypeExpr} : (params : List (String × Option TypeExpr)) →
    (∀ id ∈ paramTargets params, f id = g id) → replaceParams f params = replaceParams g params
  | [], _ => rfl
  | (k, none) :: rest, h => by
      rw [replaceParams, replaceParams, replaceParams_congr rest h]
  | (k, some t) :: rest, h => by
      simp only [paramTargets, List.mem_append] at h
      rw [replaceParams, replaceParams, replaceReferences_congr t fun id hid => h id (.inl hid),
        replaceParams_congr rest fun id hid => h id (.inr hid)]

end

/-- The ids that a type refers to, if there is one. -/
def targets? : Option TypeExpr → List String
  | none => []
  | some t => t.targets

end TypeExpr

/-! ## Neighbours -/

/-- The class under an id: the body of an entity or of a value object. -/
def Store.classAt? (store : Store) (id : String) : Option ClassBody :=
  (store.get? id).bind fun entry =>
    match entry.object with
    | .entity e => some e.toClassBody
    | .valueObject v => some v.toClassBody
    | _ => none

/-- The classes that a type refers to. -/
def typeClasses (store : Store) (type : Option TypeExpr) : List ClassBody :=
  (TypeExpr.targets? type).filterMap store.classAt?

/-- The classes that properties refer to. -/
def propertyClasses (store : Store) (ps : List Property) : List ClassBody :=
  ps.flatMap fun p => typeClasses store p.type

/-- The classes that a class refers to. -/
def neighbours (store : Store) (c : ClassBody) : List ClassBody :=
  propertyClasses store c.properties

/-! ## Walks -/

/-- The depth-first walk through the pending classes, passing over uuids that have been seen. -/
abbrev Walk (store : Store) :
    (pending : List ClassBody) → (seen : List String) → (met : List ClassBody) → Prop :=
  Search (·.uuid) (neighbours store)

/-- The least set that holds the root and is closed under neighbours, where the root stands for
every class with its uuid. -/
inductive Reached (store : Store) (root : ClassBody) : ClassBody → Prop
  | start : Reached store root root
  | step {o c : ClassBody} (reached : Reached store root o) (next : c ∈ neighbours store o) :
      Reached store root (if c.uuid = root.uuid then root else c)

variable {store : Store} {root c o : ClassBody} {met : List ClassBody}

/-! ## What is reached -/

/-- Every object stands under its own uuid. -/
def Store.Keyed (store : Store) : Prop :=
  ∀ id entry, store.get? id = some entry → entry.object.uuid = id

lemma Store.keyed_of_objects (h : ∀ e ∈ store.objects, e.object.uuid = e.id) : store.Keyed := by
  intro id entry hget
  obtain rfl := id_of_get? hget
  exact h entry (mem_objects_iff.mpr hget)

lemma Store.Keyed.uuid_of_classAt? {id : String} (h : store.Keyed)
    (hc : store.classAt? id = some c) :
    c.uuid = id := by
  obtain ⟨entry, hentry, hbody⟩ := Option.bind_eq_some_iff.mp hc
  rw [← h id entry hentry]
  cases hobject : entry.object with
  | entity e =>
      rw [hobject] at hbody
      cases hbody
      rfl
  | valueObject v =>
      rw [hobject] at hbody
      cases hbody
      rfl
  | _ => simp [hobject] at hbody

lemma mem_neighbours : c ∈ neighbours store o
    ↔ ∃ p ∈ o.properties, ∃ id ∈ TypeExpr.targets? p.type, store.classAt? id = some c := by
  simp [neighbours, propertyClasses, typeClasses]

/-- What is reached is the root, or is what the store has under its uuid. -/
lemma Reached.eq_root_or_classAt? (hkeyed : store.Keyed) (h : Reached store root o) :
    o = root ∨ o.uuid ≠ root.uuid ∧ store.classAt? o.uuid = some o := by
  cases h with
  | start => exact .inl rfl
  | @step _ c _ next =>
      obtain ⟨p, -, id, -, hclass⟩ := mem_neighbours.mp next
      by_cases hroot : c.uuid = root.uuid
      · exact .inl (if_pos hroot)
      · rw [if_neg hroot]
        refine .inr ⟨hroot, ?_⟩
        rw [hkeyed.uuid_of_classAt? hclass]
        exact hclass

/-- Classes that are reached are told apart by their uuids. -/
lemma Reached.eq_of_uuid_eq {o' : ClassBody} (hkeyed : store.Keyed) (h : Reached store root o)
    (h' : Reached store root o') (huuid : o.uuid = o'.uuid) : o = o' := by
  rcases h.eq_root_or_classAt? hkeyed with rfl | ⟨hne, hclass⟩
  · rcases h'.eq_root_or_classAt? hkeyed with rfl | ⟨hne', -⟩
    · rfl
    · exact absurd huuid.symm hne'
  · rcases h'.eq_root_or_classAt? hkeyed with rfl | ⟨-, hclass'⟩
    · exact absurd huuid hne
    · rw [huuid, hclass'] at hclass
      exact (Option.some.inj hclass).symm

/-- What a walk from the root meets is reached from it. -/
lemma Walk.reached_of_mem (h : Walk store [root] [] met) : ∀ o ∈ met, Reached store root o := by
  cases h with
  | pass old => simp at old
  | @meet _ _ inner outer _ _ inside further =>
      cases further
      -- below the root its uuid has been seen, so a class that is met there stands for itself
      have hstep : ∀ o c, Reached store root o → c ∈ neighbours store o →
          c.uuid ∉ [root.uuid] → Reached store root c := by
        intro o c ho hc hnew
        have hne : c.uuid ≠ root.uuid := by simpa using hnew
        simpa [hne] using Reached.step ho hc
      have hinner := inside.forall_met (fun c hc => hstep root c .start hc) hstep
      rw [List.append_nil]
      exact List.forall_mem_cons.mpr ⟨.start, hinner⟩

/-- **A walk from the root meets exactly what is reached from it.** -/
theorem Walk.mem_iff_reached (hkeyed : store.Keyed) (h : Walk store [root] [] met) (o : ClassBody) :
    o ∈ met ↔ Reached store root o := by
  refine ⟨h.reached_of_mem o, fun ho => ?_⟩
  induction ho with
  | start =>
      obtain ⟨others, rfl⟩ := h.eq_cons_of_new (by simp)
      exact List.mem_cons_self
  | @step o c reached next ih =>
      have hcovered : c.uuid ∈ met.map (·.uuid) := by simpa using h.covers_next ih next
      obtain ⟨m, hm, huuid⟩ := List.mem_map.mp hcovered
      have hsame : (if c.uuid = root.uuid then root else c).uuid = c.uuid := by
        by_cases hc : c.uuid = root.uuid <;> simp [hc]
      have heq := (h.reached_of_mem m hm).eq_of_uuid_eq hkeyed (reached.step next)
        (huuid.trans hsame.symm)
      exact heq ▸ hm

end DomainDesign
