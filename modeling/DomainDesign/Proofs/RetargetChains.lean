import DomainDesign.Proofs.Renewal

/-!
# Chains of copies and turns

An object can be turned into one of another kind, the result copied, the copy turned again, and so
on.  Only a copy can fail, and only that of an entity whose identifying property is not there.  The
statement of this file, `chain_keeps_content`, is that after a first turn this does not happen:
every turn into an entity picks one of the properties, or makes one if there is none, and every copy
picks the one at its place.  So a chain of any length arrives, and what arrives is the object it
started from, under other uuids.

A step is described by two things.  What it hands on is `KeptFrom`, which composes along the chain.
What it leaves an object with, different uuids and an identifying property that is there, is
`Sound`, which is what the next step needs.
-/

namespace DomainDesign.Pattern

open Model Minting

variable {p q r : Pattern}

/-! ## Steps -/

/-- A step of a chain: the object is turned into one of a kind that can be turned further, or it is
copied. -/
inductive Step where
  | turn (kind : { k : PatternKind // k ≠ .dataObject })
  | copy
deriving DecidableEq

namespace Step

/-- What a step makes of an object. -/
def apply (find : Option Lookup) (p : Pattern) : Step → Minting (Except Error Retargeted)
  | .turn kind => do
    let made ← p.retarget find kind
    pure (.ok made)
  | .copy => do
    let made ← p.clone
    pure (made.map .pattern)

/-- The kind of object that a step makes of one of a kind. -/
def kindAfter (kind : PatternKind) : Step → PatternKind
  | .turn k => k
  | .copy => kind

/-- Whether a step turns an object into an entity. -/
def makesEntity : Step → Bool
  | .turn k => k.val = .entity
  | .copy => false

end Step

/-- The objects that the steps of a chain make, each from the one before; nothing if one of the
steps fails or leads to what cannot be turned further. -/
def chain (find : Option Lookup) : Pattern → List Step → Minting (Option (List Pattern))
  | _, [] => pure (some [])
  | p, step :: rest => do
    match ← step.apply find p with
    | .ok (.pattern q) =>
      let others ← chain find q rest
      pure (others.map (q :: ·))
    | _ => pure none

/-- The kinds of the objects that the steps of a chain make. -/
def kindsAlong : PatternKind → List Step → List PatternKind
  | _, [] => []
  | kind, step :: rest => step.kindAfter kind :: kindsAlong (step.kindAfter kind) rest

/-! ## What is kept -/

/-- What properties without uuids come to when they are handed on, with or without a turn into an
entity on the way. -/
def handedOn (entity : Bool) (ps : List Property) : List Property :=
  if ps.isEmpty && entity then [idProperty ""] else ps

/-- Properties are handed on again as if all turns had come at once. -/
lemma handedOn_handedOn (entity entity' : Bool) (ps : List Property) :
    handedOn entity' (handedOn entity ps) = handedOn (entity || entity') ps := by
  cases ps <;> cases entity <;> cases entity' <;> rfl

lemma handedOn_of_ne_nil {ps : List Property} (entity : Bool) (h : ps ≠ []) :
    handedOn entity ps = ps := by
  simp [handedOn, h]

/-- One object has its naming and its properties from another. -/
structure KeptFrom (entity : Bool) (p q : Pattern) : Prop where
  naming : q.naming.withoutUuid = p.naming.withoutUuid
  properties : q.properties.map Property.withoutUuid
    = handedOn entity (p.properties.map Property.withoutUuid)

namespace KeptFrom

lemma trans {entity entity' : Bool} (h : KeptFrom entity p q) (h' : KeptFrom entity' q r) :
    KeptFrom (entity || entity') p r := by
  refine ⟨h'.naming.trans h.naming, ?_⟩
  rw [h'.properties, h.properties, handedOn_handedOn]

lemma of_eq (hnaming : q.naming.withoutUuid = p.naming.withoutUuid)
    (hproperties : q.properties.map Property.withoutUuid
      = p.properties.map Property.withoutUuid) : KeptFrom false p q := by
  refine ⟨hnaming, ?_⟩
  rw [hproperties, handedOn, Bool.and_false]
  rfl

/-- An object that differs from another in nothing but uuids has everything from it. -/
lemma of_withoutUuids (h : q.withoutUuids = p.withoutUuids) : KeptFrom false p q := by
  refine of_eq ?_ ?_
  · simpa using congrArg Pattern.naming h
  · simpa using congrArg Pattern.properties h

/-- The only property of what was turned into an entity without having one. -/
lemma exists_id (h : KeptFrom true p q) (hempty : p.properties = []) :
    ∃ id, q.properties = [id] ∧ id.name = "id" ∧ id.type = some (.base "Long") := by
  have hid : q.properties.map Property.withoutUuid = [idProperty ""] := by
    rw [h.properties, hempty]
    rfl
  obtain ⟨id, hq, heq⟩ := List.map_eq_singleton_iff.mp hid
  exact ⟨id, hq, congrArg (fun x => x.name) heq, congrArg (fun x => x.type) heq⟩

lemma properties_eq {entity : Bool} (h : KeptFrom entity p q)
    (hrest : ¬ (p.properties = [] ∧ entity)) :
    q.properties.map Property.withoutUuid = p.properties.map Property.withoutUuid := by
  rw [h.properties, handedOn, if_neg]
  simpa using hrest

end KeptFrom

/-- The uuids in an object are different, and what identifies it, if anything does, is one of its
properties. -/
structure Sound (p : Pattern) : Prop where
  distinct : p.uuids.Nodup
  hasId : p.HasId

/-- The uuids of the properties are among those of the object. -/
lemma propertyUuids_sublist (p : Pattern) : (p.properties.map (·.uuid)).Sublist p.uuids := by
  have hbody (c : ClassBody) : (c.properties.map (·.uuid)).Sublist c.uuids := by
    rw [ClassBody.uuids, List.map_append, List.cons_append, List.append_assoc]
    exact (List.sublist_append_left _ _).cons _
  cases p with
  | entity e => exact hbody e.toClassBody
  | valueObject v => exact hbody v.toClassBody
  | dto d => exact hbody d.toClassBody
  | query q => exact (List.Sublist.refl _).cons _
  | command c => exact (List.sublist_append_left _ _).cons _

/-- Only one property has the uuid that identifies an entity. -/
lemma Sound.count_idUuid {e : Entity} (h : (Pattern.entity e).Sound) :
    (e.properties.map (·.uuid)).count e.idUuid = 1 :=
  List.count_eq_one_of_mem (h.distinct.sublist (propertyUuids_sublist (.entity e)))
    (h.hasId e.idUuid rfl)

/-! ## One step -/

/-- What is made of the naming and the properties of an object has them under fresh uuids. -/
lemma draws_heading (p : Pattern) {α : Type} (make : Naming → List Property → α) :
    Draws (do
        let naming ← p.naming.freshen
        let properties ← p.properties.mapM Property.freshen
        pure (make naming properties))
      fun ids made => ∃ naming properties, made = make naming properties
        ∧ ids = naming.uuid :: properties.map (·.uuid)
        ∧ naming.withoutUuid = p.naming.withoutUuid
        ∧ properties.map Property.withoutUuid = p.properties.map Property.withoutUuid := by
  refine (Naming.renews p.naming).bind fun ids naming ⟨hids, hnaming⟩ => ?_
  refine (Property.draws_mapM p.properties).map fun more properties ⟨hmore, hproperties⟩ => ?_
  refine ⟨naming, properties, rfl, ?_, hnaming, hproperties⟩
  rw [hids, hmore]
  rfl

lemma mem_of_pickId? {ps : List Property} {id : Property} (h : pickId? ps = some id) : id ∈ ps := by
  rcases Option.or_eq_some_iff.mp h with hfind | ⟨-, hhead⟩
  · exact List.mem_of_find?_eq_some hfind
  · exact List.mem_of_head? hhead

lemma pickId?_eq_none {ps : List Property} (h : pickId? ps = none) : ps = [] :=
  List.head?_eq_none_iff.mp (Option.or_eq_none_iff.mp h).2

/-- An entity is identified by one of the properties that it got, or by one that it got for that. -/
lemma draws_toEntity (p : Pattern) :
    Draws p.toEntity fun ids e => ids.Perm (Pattern.entity e).uuids
      ∧ KeptFrom true p (.entity e) ∧ (Pattern.entity e).HasId := by
  have hbody : Draws p.shellBody _ :=
    draws_heading p fun naming properties => ({ toNaming := naming, properties } : ClassBody)
  refine hbody.bind ?_
  rintro ids _ ⟨naming, properties, rfl, rfl, hnaming, hproperties⟩
  cases hpick : pickId? properties with
  | some id =>
      have hid : id ∈ properties := mem_of_pickId? hpick
      refine draws_pure ⟨?_, ⟨hnaming, ?_⟩, ?_⟩
      · simp [uuids, ClassBody.uuids]
      · have hne : p.properties.map Property.withoutUuid ≠ [] := by
          rw [← hproperties]
          simpa using List.ne_nil_of_mem hid
        rw [handedOn_of_ne_nil true hne]
        exact hproperties
      · rintro _ ⟨⟩
        exact List.mem_map_of_mem hid
  | none =>
      -- nothing is picked only where there is nothing to pick from
      obtain rfl : properties = [] := pickId?_eq_none hpick
      refine draws_nextId.map ?_
      rintro more id rfl
      refine ⟨?_, ⟨hnaming, ?_⟩, ?_⟩
      · simp [uuids, ClassBody.uuids, idProperty]
      · rw [← hproperties]
        rfl
      · rintro _ ⟨⟩
        exact List.mem_cons_self

/-- Nothing identifies an object that is no entity. -/
lemma hasId_of_kind (h : q.kind ≠ .entity) : q.HasId := by
  cases q with
  | entity e => exact absurd rfl h
  | _ => nofun

/-- The naming and the properties of an object, given to one that has nothing else. -/
lemma draws_shell (p : Pattern) (kind : PatternKind) (make : Naming → List Property → Pattern)
    (hkind : kind ≠ .entity)
    (hmake : ∀ naming properties, (make naming properties).kind = kind
      ∧ (make naming properties).naming = naming
      ∧ (make naming properties).properties = properties
      ∧ (make naming properties).uuids = naming.uuid :: properties.map (·.uuid)) :
    Draws (do
        let naming ← p.naming.freshen
        let properties ← p.properties.mapM Property.freshen
        pure (Retargeted.pattern (make naming properties)))
      fun ids made => ∃ q, made = .pattern q ∧ ids.Perm q.uuids
        ∧ q.kind = kind ∧ KeptFrom (kind = .entity) p q ∧ q.HasId := by
  have hheading := draws_heading p fun naming properties =>
    Retargeted.pattern (make naming properties)
  refine hheading.mono ?_
  rintro _ _ ⟨naming, properties, rfl, rfl, hn, hp⟩
  obtain ⟨hmade, hnaming, hproperties, huuids⟩ := hmake naming properties
  refine ⟨make naming properties, rfl, ?_, hmade, ?_, hasId_of_kind (hmade ▸ hkind)⟩
  · rw [huuids]
  · rw [decide_eq_false hkind]
    refine .of_eq ?_ ?_
    · rw [hnaming, hn]
    · rw [hproperties, hp]

/-- **A turn.**  The object can be turned into every kind, and only a data object has lost what the
others keep. -/
lemma draws_retarget (find : Option Lookup) (p : Pattern) {kind : PatternKind}
    (h : kind ≠ .dataObject) :
    Draws (p.retarget find kind) fun ids made => ∃ q, made = .pattern q ∧ ids.Perm q.uuids
      ∧ q.kind = kind ∧ KeptFrom (kind = .entity) p q ∧ q.HasId := by
  have hbody (naming : Naming) (properties : List Property) :
      ({ toNaming := naming, properties } : ClassBody).uuids
        = naming.uuid :: properties.map (·.uuid) := by
    simp [ClassBody.uuids]
  cases kind with
  | entity =>
      refine (draws_toEntity p).map ?_
      rintro ids e ⟨hids, hkept, hid⟩
      exact ⟨.entity e, rfl, hids, rfl, hkept, hid⟩
  | valueObject =>
      exact draws_shell p .valueObject
        (fun naming properties => .valueObject ⟨{ toNaming := naming, properties }⟩)
        (by decide) fun naming properties => ⟨rfl, rfl, rfl, hbody naming properties⟩
  | dto =>
      exact draws_shell p .dto (fun naming properties => .dto ⟨{ toNaming := naming, properties }⟩)
        (by decide) fun naming properties => ⟨rfl, rfl, rfl, hbody naming properties⟩
  | query =>
      exact draws_shell p .query
        (fun naming properties => .query { toNaming := naming, properties })
        (by decide) fun naming properties => ⟨rfl, rfl, rfl, rfl⟩
  | command =>
      exact draws_shell p .command
        (fun naming properties =>
          .command { toNaming := naming, properties, repository := .modify })
        (by decide) fun naming properties => ⟨rfl, rfl, rfl, by simp [uuids]⟩
  | dataObject => exact absurd rfl h

/-- **A step** succeeds, if it is a turn or there is something to be copied, and leaves a sound
object with the content of the one before. -/
lemma draws_apply (find : Option Lookup) {p : Pattern} {step : Step}
    (h : step = .copy → p.HasId) :
    Draws (step.apply find p) fun _ made => ∃ q, made = .ok (.pattern q)
      ∧ q.kind = step.kindAfter p.kind ∧ KeptFrom step.makesEntity p q ∧ q.Sound := by
  cases step with
  | turn kind =>
      refine (draws_retarget find p kind.property).nodup.map ?_
      rintro ids _ ⟨hnodup, q, rfl, hids, hkind, hkept, hid⟩
      exact ⟨q, rfl, hkind, hkept, hids.nodup_iff.mp hnodup, hid⟩
  | copy =>
      refine (draws_clone (h rfl)).nodup.map ?_
      rintro ids _ ⟨hnodup, q, rfl, hids, hq, hid⟩
      refine ⟨q, rfl, ?_, .of_withoutUuids hq, hids.nodup_iff.mp hnodup, hid⟩
      simpa [Step.kindAfter] using congrArg Pattern.kind hq

/-! ## Chains -/

/-- **A chain** of steps arrives, if its first step is possible.  Every object on the way is sound,
and the last has the content of the first. -/
lemma draws_chain (find : Option Lookup) (steps : List Step) (p : Pattern)
    (h : steps.head? = some .copy → p.HasId) :
    Draws (chain find p steps) fun _ made => ∃ way, made = some way
      ∧ way.map kind = kindsAlong p.kind steps ∧ (∀ q ∈ way, q.Sound)
      ∧ KeptFrom (steps.any Step.makesEntity) p (way.getLast?.getD p) := by
  induction steps generalizing p with
  | nil =>
      rw [chain]
      exact draws_pure ⟨[], rfl, rfl, List.forall_mem_nil _, .of_eq rfl rfl⟩
  | cons step rest ih =>
      rw [chain]
      refine (draws_apply find fun hstep => h (congrArg some hstep)).bind ?_
      rintro ids _ ⟨q, rfl, hkind, hkept, hsound⟩
      -- the object is sound now, so the rest may start with any step
      refine (ih q fun _ => hsound.hasId).map ?_
      rintro more _ ⟨way, rfl, hkinds, hway, hlast⟩
      refine ⟨q :: way, rfl, ?_, ?_, ?_⟩
      · rw [List.map_cons, kindsAlong, hkinds, hkind]
      · rintro r (_ | ⟨_, hr⟩)
        · exact hsound
        · exact hway r hr
      · rw [List.any_cons, List.getLast?_cons]
        exact hkept.trans hlast

/-- What has come of an object at the end of a chain of steps, and on the way there. -/
structure Arrives (p : Pattern) (steps : List Step) (way : List Pattern) (last : Pattern) :
    Prop where
  ends : way.getLast? = some last
  kinds : way.map kind = kindsAlong p.kind steps
  naming : last.naming.withoutUuid = p.naming.withoutUuid
  properties :
    if p.properties = [] ∧ steps.any Step.makesEntity then
      ∃ id, last.properties = [id] ∧ id.name = "id" ∧ id.type = some (.base "Long")
    else last.properties.map Property.withoutUuid = p.properties.map Property.withoutUuid
  distinct : last.uuids.Nodup
  /-- One property of an entity has the uuid that identifies it, and one only. -/
  identified : ∀ e, Pattern.entity e ∈ way → (e.properties.map (·.uuid)).count e.idUuid = 1

/-- **A chain keeps the content of what it starts from, and can always go on.**  Whatever the object
and the supply of ids, and whatever steps come after a first turn, none of them fails. -/
theorem chain_keeps_content (find : Option Lookup) (p : Pattern)
    (first : { k : PatternKind // k ≠ .dataObject }) (steps : List Step) (ids : IdSupply) :
    ∃ way last, ((chain find p (.turn first :: steps)).run ids).1 = some way
      ∧ p.Arrives (.turn first :: steps) way last := by
  obtain ⟨-, -, way, hrun, hkinds, hsound, hkept⟩ :=
    draws_chain find (.turn first :: steps) p nofun ids
  obtain ⟨last, hlast⟩ : ∃ last, way.getLast? = some last := by
    cases way with
    | nil => cases hkinds
    | cons q rest => exact ⟨_, List.getLast?_cons⟩
  rw [hlast, Option.getD_some] at hkept
  refine ⟨way, last, hrun, ?_⟩
  refine {
    ends := hlast
    kinds := hkinds
    naming := hkept.naming
    properties := ?content
    distinct := (hsound last (List.mem_of_getLast? hlast)).distinct
    identified := fun e he => (hsound _ he).count_idUuid }
  case content =>
    split
    next hempty =>
      rw [hempty.2] at hkept
      exact hkept.exists_id hempty.1
    next hrest => exact hkept.properties_eq hrest

end DomainDesign.Pattern
