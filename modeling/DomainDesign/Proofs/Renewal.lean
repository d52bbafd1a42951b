import DomainDesign.Proofs.FreshIds
import DomainDesign.Retarget

/-!
# Parts under fresh uuids

Copying an object, and turning it into one of another kind, puts parts of it under fresh uuids.  Two
things are said about that: what is drawn is what the new parts have, and nothing else about the
parts is new.

`Minting.Draws m post` says the first, and leaves it to `post` to say the second: whatever the
supply, `m` draws ids that go with its result by `post`.  There is one rule for each way in which
computations that draw ids are put together, and one lemma for each part.  That two parts differ in
nothing but their uuids is an equation between what is left of them without uuids
(`Naming.withoutUuid` and those after it), so what is kept step by step is kept in the end.

`Pattern.draws_clone` is the sum of it for the copy of a whole object.
-/

namespace DomainDesign

open Model

/-! ## What a computation draws -/

namespace Minting

variable {α β : Type} {P : List String → α → Prop} {Q : List String → β → Prop}

/-- Whatever the supply, the computation draws ids that go with what it gives. -/
def Draws (m : Minting α) (post : List String → α → Prop) : Prop :=
  ∀ s, ∃ ids, IdSupply.Minted s (m.run s).2 ids ∧ post ids (m.run s).1

lemma draws_pure {a : α} (h : P [] a) : Draws (pure a) P :=
  fun s => ⟨[], .refl s, h⟩

lemma draws_nextId : Draws nextId fun ids id => ids = [id] :=
  fun s => ⟨[s.next.1], .next s, rfl⟩

namespace Draws

/-- What is drawn first comes before what is drawn with the first result at hand. -/
lemma bind {m : Minting α} {f : α → Minting β} (h : Draws m P)
    (hf : ∀ ids a, P ids a → Draws (f a) fun more b => Q (ids ++ more) b) :
    Draws (m >>= f) Q := by
  intro s
  obtain ⟨ids, hids, hP⟩ := h s
  obtain ⟨more, hmore, hQ⟩ := hf ids _ hP (m.run s).2
  exact ⟨ids ++ more, hids.trans hmore, hQ⟩

/-- The last thing done to a result draws nothing. -/
lemma map {m : Minting α} {f : α → β} (h : Draws m P) (hf : ∀ ids a, P ids a → Q ids (f a)) :
    Draws (do let a ← m; pure (f a)) Q := by
  refine h.bind fun ids a ha => draws_pure ?_
  rw [List.append_nil]
  exact hf ids a ha

lemma mono {m : Minting α} {P' : List String → α → Prop} (h : Draws m P)
    (himp : ∀ ids a, P ids a → P' ids a) : Draws m P' := by
  intro s
  obtain ⟨ids, hids, hP⟩ := h s
  exact ⟨ids, hids, himp ids _ hP⟩

/-- No id is drawn twice. -/
lemma nodup {m : Minting α} (h : Draws m P) : Draws m fun ids a => ids.Nodup ∧ P ids a := by
  intro s
  obtain ⟨ids, hids, hP⟩ := h s
  exact ⟨ids, hids, hids.nodup, hP⟩

end Draws

/-- The computation puts things under fresh uuids: it draws those that the new thing has, and the
new thing is the old one in everything else. -/
def Renews (renew : α → Minting α) (uuids : α → List String) (bare : α → α) : Prop :=
  ∀ a, Draws (renew a) fun ids b => ids = uuids b ∧ bare b = bare a

/-- A list is put under fresh uuids item by item. -/
lemma Renews.draws_mapM {renew : α → Minting α} {uuids : α → List String} {bare : α → α}
    (h : Renews renew uuids bare) (as : List α) :
    Draws (as.mapM renew) fun ids bs => ids = bs.flatMap uuids ∧ bs.map bare = as.map bare := by
  induction as with
  | nil => exact draws_pure ⟨rfl, rfl⟩
  | cons a rest ih =>
      rw [List.mapM_cons]
      refine (h a).bind fun ids b ⟨hids, hbare⟩ => ?_
      refine ih.map fun more others ⟨hmore, hothers⟩ => ⟨?_, ?_⟩
      · rw [List.flatMap_cons, hids, hmore]
      · rw [List.map_cons, List.map_cons, hbare, hothers]

end Minting

/-! ## The parts of a class -/

namespace Model

open Minting

/-- What is left of a naming without its uuid. -/
def Naming.withoutUuid (n : Naming) : Naming :=
  n.withUuid ""

/-- What is left of a property without its uuid. -/
def Property.withoutUuid (p : Property) : Property :=
  { p with toNaming := p.toNaming.withoutUuid }

/-- What is left of a parameter without its uuid. -/
def Parameter.withoutUuid (p : Parameter) : Parameter :=
  { p with toNaming := p.toNaming.withoutUuid }

/-- What is left of a method without the uuids in it. -/
def Method.withoutUuids (m : Method) : Method :=
  { m with toNaming := m.toNaming.withoutUuid
           parameters := m.parameters.map Parameter.withoutUuid }

/-- What is left of a class without the uuids in it. -/
def ClassBody.withoutUuids (c : ClassBody) : ClassBody :=
  { c with toNaming := c.toNaming.withoutUuid
           properties := c.properties.map Property.withoutUuid
           methods := c.methods.map Method.withoutUuids
           classProperties := c.classProperties.map Property.withoutUuid
           classMethods := c.classMethods.map Method.withoutUuids }

lemma Naming.renews : Renews Naming.freshen (fun n => [n.uuid]) Naming.withoutUuid :=
  fun _ => draws_nextId.map fun _ _ hids => ⟨hids, rfl⟩

lemma Property.renews : Renews Property.freshen (fun p => [p.uuid]) Property.withoutUuid := by
  intro p
  refine (Naming.renews p.toNaming).map fun ids naming ⟨hids, hnaming⟩ => ⟨hids, ?_⟩
  rw [withoutUuid, withoutUuid, hnaming]

lemma Parameter.renews : Renews Parameter.freshen (fun p => [p.uuid]) Parameter.withoutUuid := by
  intro p
  refine (Naming.renews p.toNaming).map fun ids naming ⟨hids, hnaming⟩ => ⟨hids, ?_⟩
  rw [withoutUuid, withoutUuid, hnaming]

lemma Property.draws_mapM (ps : List Property) :
    Draws (ps.mapM freshen) fun ids qs =>
      ids = qs.map (·.uuid) ∧ qs.map withoutUuid = ps.map withoutUuid := by
  simpa only [← List.map_eq_flatMap] using Property.renews.draws_mapM ps

lemma Method.renews : Renews Method.freshen Method.uuids Method.withoutUuids := by
  intro m
  refine (Naming.renews m.toNaming).bind fun ids naming ⟨hids, hnaming⟩ => ?_
  refine (Parameter.renews.draws_mapM m.parameters).map
    fun more parameters ⟨hmore, hparameters⟩ => ⟨?_, ?_⟩
  · rw [hids, hmore, ← List.map_eq_flatMap]
    rfl
  · rw [withoutUuids, withoutUuids, hnaming, hparameters]

lemma ClassBody.length_properties_eq {c d : ClassBody} (h : d.withoutUuids = c.withoutUuids) :
    d.properties.length = c.properties.length := by
  simpa [withoutUuids] using congrArg (fun b => b.properties.length) h

/-- A class is put under fresh uuids with everything in it. -/
lemma ClassBody.draws_freshen (c : ClassBody) :
    Draws c.freshen fun ids d => ids.Perm d.uuids ∧ d.withoutUuids = c.withoutUuids := by
  refine (Naming.renews c.toNaming).bind fun ids₁ naming ⟨hids₁, hnaming⟩ => ?_
  refine (Property.draws_mapM c.properties).bind fun ids₂ properties ⟨hids₂, hproperties⟩ => ?_
  refine (Method.renews.draws_mapM c.methods).bind fun ids₃ methods ⟨hids₃, hmethods⟩ => ?_
  refine (Property.draws_mapM c.classProperties).bind
    fun ids₄ classProperties ⟨hids₄, hclassProperties⟩ => ?_
  refine (Method.renews.draws_mapM c.classMethods).map
    fun ids₅ classMethods ⟨hids₅, hclassMethods⟩ => ⟨?_, ?_⟩
  · -- the class properties are drawn between the two lists of methods, and listed before both
    rw [hids₁, hids₂, hids₃, hids₄, hids₅]
    simp only [uuids, List.map_append, List.flatMap_append, List.cons_append, List.nil_append,
      List.append_assoc]
    exact ((List.perm_append_comm_assoc _ _ _).append_left _).cons _
  · rw [withoutUuids, withoutUuids, hnaming, hproperties, hmethods, hclassProperties, hclassMethods]

end Model

/-! ## Copies -/

namespace Pattern

open Minting

/-- The uuids of an object and of everything in it. -/
def uuids : Pattern → List String
  | .entity e => e.toClassBody.uuids
  | .valueObject v => v.toClassBody.uuids
  | .dto d => d.toClassBody.uuids
  | .query q => q.uuid :: q.properties.map (·.uuid)
  | .command c => c.uuid :: c.properties.map (·.uuid) ++ c.eventProperties.map (·.uuid)

/-- What is left of an object without the uuids in it. -/
def withoutUuids : Pattern → Pattern
  | .entity e => .entity { e with toClassBody := e.toClassBody.withoutUuids, idUuid := "" }
  | .valueObject v => .valueObject ⟨v.toClassBody.withoutUuids⟩
  | .dto d => .dto ⟨d.toClassBody.withoutUuids⟩
  | .query q =>
    .query { q with toNaming := q.toNaming.withoutUuid
                    properties := q.properties.map Property.withoutUuid }
  | .command c =>
    .command { c with toNaming := c.toNaming.withoutUuid
                      properties := c.properties.map Property.withoutUuid
                      eventProperties := c.eventProperties.map Property.withoutUuid }

@[simp] lemma naming_withoutUuids (p : Pattern) : p.withoutUuids.naming = p.naming.withoutUuid := by
  cases p <;> rfl

@[simp] lemma properties_withoutUuids (p : Pattern) :
    p.withoutUuids.properties = p.properties.map Property.withoutUuid := by
  cases p <;> rfl

@[simp] lemma kind_withoutUuids (p : Pattern) : p.withoutUuids.kind = p.kind := by
  cases p <;> rfl

/-- What identifies an object, if anything does, is one of its properties. -/
def HasId (p : Pattern) : Prop :=
  ∀ id, p.idUuid? = some id → id ∈ p.properties.map (·.uuid)

/-- The copy of an entity is identified by the property at the place of the one that identifies the
entity. -/
lemma draws_cloneEntity {e : Entity} (hid : (Pattern.entity e).HasId) :
    Draws (cloneEntity e) fun ids r => ∃ copy, r = .ok copy ∧ ids.Perm copy.toClassBody.uuids
      ∧ copy.toClassBody.withoutUuids = e.toClassBody.withoutUuids
      ∧ copy.isAggregationRoot = e.isAggregationRoot
      ∧ (copy.properties.map (·.uuid))[e.properties.findIdx fun p => p.uuid = e.idUuid]?
        = some copy.idUuid := by
  refine (ClassBody.draws_freshen e.toClassBody).bind fun ids body ⟨hids, hbody⟩ => ?_
  have hplace : (e.properties.findIdx fun p => p.uuid = e.idUuid) < body.properties.length := by
    rw [ClassBody.length_properties_eq hbody, List.findIdx_lt_length]
    simpa [properties] using hid e.idUuid rfl
  simp only [List.getElem?_eq_getElem hplace]
  refine draws_pure ⟨_, rfl, ?_, hbody, rfl, ?_⟩
  · rwa [List.append_nil]
  · simp [hplace]

/-- **A copy is the object under fresh uuids.**  An object that is identified by one of its
properties, or by nothing, has a copy. -/
lemma draws_clone {p : Pattern} (hid : p.HasId) :
    Draws p.clone fun ids r => ∃ q, r = .ok q ∧ ids.Perm q.uuids
      ∧ q.withoutUuids = p.withoutUuids ∧ q.HasId := by
  cases p with
  | entity e =>
      refine (draws_cloneEntity hid).map ?_
      rintro ids _ ⟨copy, rfl, hids, hbody, hroot, hplace⟩
      refine ⟨.entity copy, rfl, hids, ?_, ?_⟩
      · rw [withoutUuids, withoutUuids, hbody, hroot]
      · rintro id ⟨⟩
        exact List.mem_of_getElem? hplace
  | valueObject v =>
      refine (ClassBody.draws_freshen v.toClassBody).map fun ids body ⟨hids, hbody⟩ => ?_
      exact ⟨_, rfl, hids, congrArg (fun c => Pattern.valueObject ⟨c⟩) hbody, nofun⟩
  | dto d =>
      refine (ClassBody.draws_freshen d.toClassBody).map fun ids body ⟨hids, hbody⟩ => ?_
      exact ⟨_, rfl, hids, congrArg (fun c => Pattern.dto ⟨c⟩) hbody, nofun⟩
  | query q =>
      refine (Naming.renews q.toNaming).bind fun ids naming ⟨hids, hnaming⟩ => ?_
      refine (Property.draws_mapM q.properties).map fun more properties ⟨hmore, hproperties⟩ => ?_
      refine ⟨_, rfl, ?_, ?_, nofun⟩
      · rw [hids, hmore]
        rfl
      · rw [withoutUuids, withoutUuids, hnaming, hproperties]
  | command c =>
      refine (Naming.renews c.toNaming).bind fun ids naming ⟨hids, hnaming⟩ => ?_
      refine (Property.draws_mapM c.properties).bind fun more properties ⟨hmore, hproperties⟩ => ?_
      refine (Property.draws_mapM c.eventProperties).map
        fun others eventProperties ⟨hothers, heventProperties⟩ => ?_
      refine ⟨_, rfl, ?_, ?_, nofun⟩
      · rw [hids, hmore, hothers]
        rfl
      · rw [withoutUuids, withoutUuids, hnaming, hproperties, heventProperties]

end Pattern

end DomainDesign
