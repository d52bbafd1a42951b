import DomainDesign.Proofs.Renewal

/-!
# A copy is its original under fresh uuids

`Pattern.clone` puts an object and everything in it under fresh uuids.  `Renewed p q ids ids'` says
what that comes to: without the uuids nothing tells the copy from the original, the uuids of the
copy are the ids that have been drawn, and a copy of an entity is identified by the property at the
place of the one that identifies the entity.  Several properties of the original may have the uuid
that identifies it; the first of them counts.

The statement of this file, `clone_renews`, is that every copy is like that, and that only an entity
with an identifier that none of its properties has cannot be copied.  The content and the ids of a
copy are known from `draws_clone`; what is added is the place of the identifying property and the
failure.
-/

namespace DomainDesign

open Model

/-- Two things that are known about what a computation gives are known together. -/
lemma Minting.Draws.and {α : Type} {m : Minting α} {P Q : List String → α → Prop} (h : Draws m P)
    (h' : Draws m Q) : Draws m fun ids a => P ids a ∧ ∃ more, Q more a := by
  intro s
  obtain ⟨ids, hids, hP⟩ := h s
  obtain ⟨more, -, hQ⟩ := h' s
  exact ⟨ids, hids, hP, more, hQ⟩

namespace Pattern

open Minting

variable {p : Pattern} {e copy : Entity}

/-- A copy of an entity is identified by the property at the place of the first one that identifies
the entity. -/
def SamePlace (e copy : Entity) : Prop :=
  ∃ k old new, e.properties[k]? = some old ∧ old.uuid = e.idUuid
    ∧ (∀ earlier ∈ e.properties.take k, earlier.uuid ≠ e.idUuid)
    ∧ copy.properties[k]? = some new ∧ copy.idUuid = new.uuid

/-- An object is identified by something that it does not have if it is an entity and none of its
properties has its identifier. -/
lemma not_hasId_iff :
    ¬ p.HasId ↔ ∃ e, p = .entity e ∧ ∀ q ∈ e.properties, q.uuid ≠ e.idUuid := by
  cases p with
  | entity e => simp [HasId, idUuid?, properties]
  | _ => simp [HasId, idUuid?]

/-- The place of the first property with a uuid. -/
lemma samePlace_of_findIdx (hid : (Pattern.entity e).HasId)
    (h : (copy.properties.map (·.uuid))[e.properties.findIdx fun p => p.uuid = e.idUuid]?
      = some copy.idUuid) : SamePlace e copy := by
  have hlt : (e.properties.findIdx fun p => p.uuid = e.idUuid) < e.properties.length := by
    rw [List.findIdx_lt_length]
    simpa [properties] using hid e.idUuid rfl
  rw [List.getElem?_map] at h
  obtain ⟨new, hnew, huuid⟩ := Option.map_eq_some_iff.mp h
  refine ⟨_, _, new, List.getElem?_eq_getElem hlt, ?_, fun earlier hmem => ?_, hnew, huuid.symm⟩
  · simpa using List.findIdx_getElem (w := hlt)
  · obtain ⟨j, hj, rfl⟩ := List.mem_take_iff_getElem.mp hmem
    simpa using List.not_of_lt_findIdx (Nat.lt_of_lt_of_le hj (Nat.min_le_left _ _))

lemma draws_clone_entity (hid : (Pattern.entity e).HasId) :
    Draws (Pattern.entity e).clone fun _ r =>
      ∃ copy, r = .ok (.entity copy) ∧ SamePlace e copy := by
  refine (draws_cloneEntity hid).map ?_
  rintro ids _ ⟨copy, rfl, -, -, -, hplace⟩
  exact ⟨copy, rfl, samePlace_of_findIdx hid hplace⟩

/-- An entity with an identifier that none of its properties has cannot be copied. -/
lemma draws_clone_error (hid : ∀ q ∈ e.properties, q.uuid ≠ e.idUuid) :
    Draws (Pattern.entity e).clone fun _ r => r = .error (.missingIdProperty e.name) := by
  have hentity : Draws (cloneEntity e) fun _ r => r = .error (.missingIdProperty e.name) := by
    refine (ClassBody.draws_freshen e.toClassBody).bind fun ids body ⟨_, hbody⟩ => ?_
    have hplace : (e.properties.findIdx fun p => p.uuid = e.idUuid) = body.properties.length := by
      rw [ClassBody.length_properties_eq hbody, List.findIdx_eq_length]
      simpa using hid
    simp only [hplace, List.getElem?_length]
    exact draws_pure rfl
  refine hentity.map ?_
  rintro ids _ rfl
  rfl

/-- What a copy of an object is, when ids have been drawn for it. -/
structure Renewed (p q : Pattern) (ids ids' : IdSupply) : Prop where
  kind : q.kind = p.kind
  content : q.withoutUuids = p.withoutUuids
  distinct : q.uuids.Nodup
  drawn : IdSupply.Minted ids ids' q.uuids
  identified : ∀ e copy, p = .entity e → q = .entity copy → SamePlace e copy

lemma renewed_of_drawn {q : Pattern} {drawn : List String} {ids ids' : IdSupply}
    (hdrawn : IdSupply.Minted ids ids' drawn) (hids : drawn.Perm q.uuids)
    (hcontent : q.withoutUuids = p.withoutUuids)
    (hplace : ∀ e copy, p = .entity e → q = .entity copy → SamePlace e copy) :
    Renewed p q ids ids' := by
  have hminted : IdSupply.Minted ids ids' q.uuids := hdrawn.of_perm hids
  refine ⟨?_, hcontent, hminted.nodup, hminted, hplace⟩
  simpa using congrArg Pattern.kind hcontent

/-- An object that is identified by one of its properties, or by nothing, has a copy. -/
lemma exists_renewed (hid : p.HasId) (ids : IdSupply) :
    ∃ q, (p.clone.run ids).1 = .ok q ∧ Renewed p q ids (p.clone.run ids).2 := by
  cases p with
  | entity e =>
      obtain ⟨drawn, hdrawn, ⟨q, hq, hids, hcontent, -⟩, -, copy, hcopy, hplace⟩ :=
        (draws_clone hid).and (draws_clone_entity hid) ids
      obtain rfl : q = .entity copy := Except.ok.inj (hq.symm.trans hcopy)
      refine ⟨_, hq, renewed_of_drawn hdrawn hids hcontent ?_⟩
      rintro _ _ ⟨⟩ ⟨⟩
      exact hplace
  | _ =>
      obtain ⟨drawn, hdrawn, q, hq, hids, hcontent, -⟩ := draws_clone hid ids
      refine ⟨q, hq, renewed_of_drawn hdrawn hids hcontent ?_⟩
      rintro _ _ ⟨⟩

/-- **A copy is the object under fresh uuids.**  Copying fails for an entity with an identifier that
none of its properties has, and for nothing else. -/
theorem clone_renews (p : Pattern) (ids : IdSupply) :
    ((∃ error, (p.clone.run ids).1 = .error error)
      ↔ ∃ e, p = .entity e ∧ ∀ q ∈ e.properties, q.uuid ≠ e.idUuid)
      ∧ ∀ q, (p.clone.run ids).1 = .ok q → Renewed p q ids (p.clone.run ids).2 := by
  by_cases hid : p.HasId
  · obtain ⟨q, hq, hrenewed⟩ := exists_renewed hid ids
    rw [← not_hasId_iff, hq]
    refine ⟨iff_of_false (by simp) (not_not_intro hid), ?_⟩
    rintro _ ⟨⟩
    exact hrenewed
  · obtain ⟨e, rfl, hnone⟩ := not_hasId_iff.mp hid
    obtain ⟨drawn, -, herror⟩ := draws_clone_error hnone ids
    rw [herror]
    refine ⟨iff_of_true ⟨_, rfl⟩ ⟨e, rfl, hnone⟩, ?_⟩
    rintro _ ⟨⟩

/-- A ticket with two properties under the uuid that identifies it. -/
def ticket : Entity :=
  { uuid := "ticket", name := "Ticket", idUuid := "p2"
    properties :=
      [.of "p1" "seat" (.base "String"), .of "p2" "number" (.base "Long"),
        .of "p2" "code" (.base "String")]
    methods := [
      { uuid := "m1", name := "move", parameters := [.of "a1" "seat" (.base "String")] }] }

theorem clone_renews_ticket :
    ∃ copy, ((Pattern.entity ticket).clone.run { label := "t", issued := 6 }).1 = .ok (.entity copy)
      ∧ copy.idUuid = "t-9" ∧ SamePlace ticket copy
      ∧ (Pattern.entity copy).withoutUuids = (Pattern.entity ticket).withoutUuids := by
  refine ⟨_, rfl, rfl, ?_, ?_⟩
  · exact ((clone_renews (.entity ticket) { label := "t", issued := 6 }).2 _ rfl).identified
      _ _ rfl rfl
  · exact ((clone_renews (.entity ticket) { label := "t", issued := 6 }).2 _ rfl).content

end Pattern

end DomainDesign
