import DomainDesign.Proofs.Generation
import DomainDesign.Proofs.Refusals

/-!
# When a generation succeeds

Once there is a root with an identifying property, a generation can only fail at a reference that it
cannot carry.  `generate_outcome` says that it follows the tour from its root: the columns and the
mappers meet no references, and the property that asks for one object meets those again that the
root has met.

`generation_succeeds_iff` puts this in terms of what is reachable from the root, where the store has
every object under its own uuid.
-/

namespace DomainDesign.Artifacts

open Model Carrier

variable {σ : Type} [IdSource σ] {store : Store} {root : Entity} {p : Property}
  {seen met : List String} {entered : List ClassBody}

/-! ## The other artifacts -/

lemma addColumns_follows (idUuid : String) (ps : List Property) (d : DataObject) :
    Follows store (addColumns (σ := σ) store idUuid ps d) seen [] [] := by
  induction ps generalizing d with
  | nil => exact .pure d
  | cons p rest ih =>
      rw [addColumns]
      split
      · exact ih d
      · exact Follows.nextId.quiet_bind fun _ => ih _

lemma makeDataObject_follows (root : Entity) :
    Follows store (makeDataObject (σ := σ) store root) seen [] [] :=
  Follows.nextId.quiet_bind fun _ => addColumns_follows ..

lemma pairColumns_follows (columns : List DataProperty) (ps : List Property) :
    Follows store (pairColumns (σ := σ) columns ps) seen [] [] := by
  induction ps with
  | nil => exact .pure _
  | cons p rest ih =>
      rw [pairColumns]
      split
      · exact ih
      · exact Follows.nextId.quiet_bind fun _ => ih.bind_pure _

lemma makeMapper_follows (part : ObjectSource) (c : ClassBody) (d : DataObject) :
    Follows store (makeMapper (σ := σ) part c d) seen [] [] :=
  (pairColumns_follows ..).quiet_bind fun _ => Follows.nextId.bind_pure _

/-- The type of the property that asks for one object is carried once more. -/
lemma makeIdInput_follows
    (hknown : ∀ id ∈ TypeExpr.targets? p.type, ∀ c, store.classAt? id = some c → c.uuid ∈ seen) :
    Follows store (makeIdInput (σ := σ) store p) seen (TypeExpr.targets? p.type) [] := by
  have hleft : unseen store seen ≤ fuel store := (unseen_le_size ..).trans (Nat.le_succ _)
  refine Follows.nextId.quiet_bind fun _ => ?_
  exact (carry_follows (tours_make store (fuel store)) hleft (tour_of_known hknown)).bind_pure _

/-! ## The whole -/

/-- **Making artifacts follows the tour from the root.** -/
lemma make_follows (hp : p ∈ root.properties)
    (htour : Tour store (propertyTargets root.properties) [root.uuid] met entered) :
    Follows store (make (σ := σ) store root p) [] (met ++ TypeExpr.targets? p.type)
      (root.toClassBody :: entered) := by
  have hanswer : Follows store (ofClass (σ := σ) store root.toClassBody) [] met
      (root.toClassBody :: entered) :=
    make_enters (tours_make store store.size) List.not_mem_nil (unseen_le_size ..) htour
  -- whatever the identifying property refers to, the root refers to, so it has been seen
  have hknown : ∀ id ∈ TypeExpr.targets? p.type, ∀ c, store.classAt? id = some c →
      c.uuid ∈ [] ++ (root.toClassBody :: entered).map (·.uuid) := by
    intro id hid c hc
    have hpending : c ∈ (propertyTargets root.properties).filterMap store.classAt? :=
      List.mem_filterMap.mpr ⟨id, mem_propertyTargets.mpr ⟨p, hp, hid⟩, hc⟩
    simpa using htour.walk.covers_pending hpending
  rw [← List.append_nil (root.toClassBody :: entered)]
  refine hanswer.bind fun answer => ?_
  refine (makeIdInput_follows hknown).bind_quiet fun idInput => ?_
  rw [List.map_nil, List.append_nil]
  refine Follows.nextId.quiet_bind fun _ => ?_
  refine Follows.nextId.quiet_bind fun _ => ?_
  refine (makeDataObject_follows root).quiet_bind fun _ => ?_
  refine (makeMapper_follows ..).quiet_bind fun _ => ?_
  refine .get_bind fun w hw => ?_
  have hkey : root.uuid ∈ w.keys := by simp [hw]
  obtain ⟨rootDto, hroot⟩ := exists_get?_of_mem_keys hkey
  simp only [hroot]
  refine (makeMapper_follows ..).quiet_bind fun _ => ?_
  exact .get_bind fun _ _ => .pure _

/-- **A generation ends as the tour from the root says**: with the first refusal, or else with
artifacts. -/
theorem generate_outcome (ids : σ) (hroot : root.isAggregationRoot = true)
    (hp : root.idProperty? = some p)
    (htour : Tour store (propertyTargets root.properties) [root.uuid] met entered) :
    (met.findSome? (refusal? store) = none → ∃ a, (generateFrom store root ids).1 = .ok a)
      ∧ ∀ e, met.findSome? (refusal? store) = some e →
        (generateFrom store root ids).1 = .error e := by
  have hmem : p ∈ root.properties := List.mem_of_find?_eq_some hp
  have hmake := make_follows (σ := σ) hmem htour
  have hagain : TypeExpr.targets? p.type ⊆ met := fun id hid =>
    htour.mem_met.mpr (.inl (mem_propertyTargets.mpr ⟨p, hmem, hid⟩))
  have hfirst : (met ++ TypeExpr.targets? p.type).findSome? (refusal? store)
      = met.findSome? (refusal? store) := findSome?_append_of_subset hagain
  have hofRoot : (ofRoot store root : MakingFrom σ Artifacts) = make store root p := by
    rw [ofRoot, if_pos hroot, hp]
  rw [generateFrom, hofRoot]
  refine ⟨fun hnone => ?_, fun e he => ?_⟩
  · obtain ⟨a, w', hrun, -⟩ := hmake.succeeds (hfirst.trans hnone) { ids } (Workshop.keys_start ids)
    exact ⟨a, by rw [EStateM.run, hrun]⟩
  · obtain ⟨w', hrun⟩ := hmake.fails e (hfirst.trans he) { ids } (Workshop.keys_start ids)
    rw [EStateM.run, hrun]

/-! ## What is reachable -/

/-- A class is reachable from another one, from each class to those that its properties refer to. -/
def Reachable (store : Store) : ClassBody → ClassBody → Prop :=
  Relation.ReflTransGen fun o c => c ∈ neighbours store o

/-- Whatever is reachable refers to enumerations, value objects and entities only. -/
def AllResolve (store : Store) (root : ClassBody) : Prop :=
  ∀ o, Reachable store root o → ∀ p ∈ o.properties, ∀ id ∈ TypeExpr.targets? p.type,
    store.Resolves id

/-- The first reference on the tour from a class that does not resolve. -/
def FirstUnresolved (store : Store) (root : ClassBody) (id : String) : Prop :=
  ∃ before after entered,
    Tour store (propertyTargets root.properties) [root.uuid] (before ++ id :: after) entered
      ∧ (∀ other ∈ before, store.Resolves other) ∧ ¬ store.Resolves id

/-- An entity is flagged as a root, and what is to identify it is one of its properties. -/
structure Identified (root : Entity) : Prop where
  flagged : root.isAggregationRoot = true
  property : ∃ p ∈ root.properties, p.uuid = root.idUuid

variable {c o : ClassBody}

/-- Where the store has nothing else under the uuid of a class, this class stands for itself. -/
lemma reached_iff_reachable (hkeyed : store.Keyed)
    (hroot : ∀ other, store.classAt? c.uuid = some other → other = c) :
    Reached store c o ↔ Reachable store c o := by
  have hself : ∀ {o next}, next ∈ neighbours store o →
      (if next.uuid = c.uuid then c else next) = next := by
    intro o next hnext
    obtain ⟨p, -, id, -, hclass⟩ := mem_neighbours.mp hnext
    split
    case isTrue huuid =>
      rw [← hkeyed.uuid_of_classAt? hclass, huuid] at hclass
      exact (hroot next hclass).symm
    case isFalse => rfl
  constructor
  · intro h
    induction h with
    | start => exact .refl
    | step _ next ih =>
        rw [hself next]
        exact ih.tail next
  · intro h
    induction h with
    | refl => exact .start
    | tail _ next ih => exact hself next ▸ ih.step next

/-- **The tour from a class enters what is reachable from it.** -/
lemma mem_tour_iff_reachable (hkeyed : store.Keyed)
    (hroot : ∀ other, store.classAt? c.uuid = some other → other = c)
    (htour : Tour store (propertyTargets c.properties) [c.uuid] met entered) :
    o ∈ c :: entered ↔ Reachable store c o := by
  have hinside : Walk store (neighbours store c) [c.uuid] entered := by
    have hwalk := htour.walk
    rwa [filterMap_propertyTargets] at hwalk
  have hwalk : Walk store [c] [] (c :: (entered ++ [])) := .meet List.not_mem_nil hinside .done
  rw [List.append_nil] at hwalk
  rw [hwalk.mem_iff_reached hkeyed, reached_iff_reachable hkeyed hroot]

/-- Everything resolves exactly if no reference on the tour is refused. -/
lemma allResolve_iff (hkeyed : store.Keyed)
    (hroot : ∀ other, store.classAt? c.uuid = some other → other = c)
    (htour : Tour store (propertyTargets c.properties) [c.uuid] met entered) :
    AllResolve store c ↔ met.findSome? (refusal? store) = none := by
  have hmet : ∀ id, id ∈ met ↔ ∃ o ∈ c :: entered, id ∈ propertyTargets o.properties := by
    intro id
    rw [htour.mem_met, List.exists_mem_cons_iff]
  simp only [List.findSome?_eq_none_iff, refusal?_eq_none_iff, hmet, mem_propertyTargets,
    mem_tour_iff_reachable hkeyed hroot htour, AllResolve]
  constructor
  · rintro h id ⟨o, ho, p, hp, hid⟩
    exact h o ho p hp id hid
  · intro h o ho p hp id hid
    exact h id ⟨o, ho, p, hp, hid⟩

/-- **The first refusal names the first reference that does not resolve.** -/
lemma firstUnresolved_iff {id : String}
    (htour : Tour store (propertyTargets c.properties) [c.uuid] met entered) :
    FirstUnresolved store c id
      ↔ ∃ detail, met.findSome? (refusal? store) = some (.unsupportedReference id detail) := by
  constructor
  · rintro ⟨before, after, others, hother, hbefore, hid⟩
    obtain ⟨rfl, -⟩ := htour.unique hother
    obtain ⟨e, he⟩ := Option.ne_none_iff_exists'.mp (mt refusal?_eq_none_iff.mp hid)
    obtain ⟨-, detail, rfl⟩ := of_refusal? he
    refine ⟨detail, List.findSome?_eq_some_iff.mpr ⟨before, id, after, rfl, he, ?_⟩⟩
    exact fun other hother => refusal?_eq_none_iff.mpr (hbefore other hother)
  · rintro ⟨detail, h⟩
    obtain ⟨before, other, after, rfl, he, hbefore⟩ := List.findSome?_eq_some_iff.mp h
    obtain ⟨hunresolved, detail, heq⟩ := of_refusal? he
    cases heq
    refine ⟨before, after, entered, htour, fun other hother => ?_, hunresolved⟩
    exact refusal?_eq_none_iff.mp (hbefore other hother)

/-! ## Success -/

lemma identified_iff : Identified root ↔
    root.isAggregationRoot = true ∧ ∃ p, root.idProperty? = some p := by
  have hfind : (∃ p, root.idProperty? = some p) ↔ ∃ p ∈ root.properties, p.uuid = root.idUuid := by
    rw [← Option.isSome_iff_exists, Entity.idProperty?, List.find?_isSome]
    simp
  rw [hfind]
  exact ⟨fun h => ⟨h.flagged, h.property⟩, fun h => ⟨h.1, h.2⟩⟩

/-- Without the flag or the property that identifies, nothing is made. -/
lemma generate_of_not_identified (ids : σ) (h : ¬ Identified root) :
    ∃ detail, (generateFrom store root ids).1 = .error (.validation detail) := by
  rw [identified_iff] at h
  rw [generateFrom, ofRoot]
  by_cases hflag : root.isAggregationRoot = true
  · rw [if_pos hflag]
    cases hp : root.idProperty? with
    | none => exact ⟨_, rfl⟩
    | some p => exact absurd ⟨hflag, p, hp⟩ h
  · rw [if_neg hflag]
    exact ⟨_, rfl⟩

/-- **When a generation succeeds.**  It does exactly if the root is flagged and identified and all
references in what is reachable from it resolve.  If it does not, a root that is not flagged or not
identified is invalid, and otherwise the error names the first reference that does not resolve. -/
theorem generation_succeeds_iff (hkeyed : store.Keyed)
    (hroot : ∀ entry, store.get? root.uuid = some entry → entry.object = .entity root) (ids : σ) :
    ((∃ a, (generateFrom store root ids).1 = .ok a)
        ↔ Identified root ∧ AllResolve store root.toClassBody)
      ∧ (¬ Identified root →
          ∃ detail, (generateFrom store root ids).1 = .error (.validation detail))
      ∧ (Identified root → ¬ AllResolve store root.toClassBody →
          ∃ id detail, (generateFrom store root ids).1 = .error (.unsupportedReference id detail)
            ∧ ∀ other, FirstUnresolved store root.toClassBody other ↔ other = id) := by
  have hself : ∀ other, store.classAt? root.uuid = some other → other = root.toClassBody := by
    intro other hother
    obtain ⟨entry, hget, hbody⟩ := Option.bind_eq_some_iff.mp hother
    rw [hroot entry hget] at hbody
    exact (Option.some.inj hbody).symm
  obtain ⟨met, entered, htour⟩ := exists_tour store (propertyTargets root.properties) [root.uuid]
  have hall := allResolve_iff (c := root.toClassBody) hkeyed hself htour
  refine ⟨⟨?_, ?_⟩, generate_of_not_identified ids, ?_⟩
  · rintro ⟨a, ha⟩
    have hidentified : Identified root := by
      by_contra hnot
      obtain ⟨detail, herror⟩ : ∃ detail, (generateFrom store root ids).1
          = .error (.validation detail) := generate_of_not_identified ids hnot
      rw [ha] at herror
      cases herror
    obtain ⟨hflag, p, hp⟩ := identified_iff.mp hidentified
    refine ⟨hidentified, hall.mpr (Option.eq_none_iff_forall_ne_some.mpr fun e he => ?_)⟩
    rw [(generate_outcome ids hflag hp htour).2 e he] at ha
    cases ha
  · rintro ⟨hidentified, hresolve⟩
    obtain ⟨hflag, p, hp⟩ := identified_iff.mp hidentified
    exact (generate_outcome ids hflag hp htour).1 (hall.mp hresolve)
  · intro hidentified hnot
    obtain ⟨hflag, p, hp⟩ := identified_iff.mp hidentified
    obtain ⟨e, he⟩ := Option.ne_none_iff_exists'.mp (mt hall.mpr hnot)
    obtain ⟨id, detail, rfl⟩ := of_findSome?_refusal? he
    refine ⟨id, detail, (generate_outcome ids hflag hp htour).2 _ he, fun other => ?_⟩
    rw [firstUnresolved_iff (c := root.toClassBody) htour, he]
    constructor
    · rintro ⟨_, heq⟩
      cases heq
      rfl
    · rintro rfl
      exact ⟨detail, rfl⟩

/-- A depot whose shelves lead back to it before they refer to a row that cannot be carried; the
depot itself refers further on to something that is not there. -/
def depot : Entity :=
  { uuid := "depot", name := "Depot", idUuid := "p1", isAggregationRoot := true
    properties :=
      [.of "p1" "number" (.base "Long"), .of "p2" "shelves" (.list (.reference "shelf" "Shelf")),
        .of "p3" "owner" (.reference "nobody" "Nobody")] }

def depotStore : Store :=
  .ofEntries
    [{ id := "shelf"
       object := .valueObject
         { uuid := "shelf", name := "Shelf"
           properties :=
             [.of "p4" "depot" (.reference "depot" "Depot"),
               .of "p5" "rows" (.map (.base "String") (.reference "row" "Row"))] } },
      { id := "row", object := .dto { uuid := "row", name := "Row" } },
      { id := "depot", object := .entity depot }]

theorem generation_succeeds_iff_depot :
    (generateFrom depotStore depot ({} : RandomIds)).1 = .error (.uncarriable "row" "dto")
      ∧ ¬ AllResolve depotStore depot.toClassBody
      ∧ FirstUnresolved depotStore depot.toClassBody "row" := by
  have hkeyed : depotStore.Keyed := Store.keyed_of_objects (by decide)
  have hroot : ∀ entry, depotStore.get? depot.uuid = some entry → entry.object = .entity depot := by
    intro entry hget
    cases hget
    rfl
  have hidentified : Identified depot := ⟨rfl, _, List.mem_cons_self, rfl⟩
  have hrun : (generateFrom depotStore depot ({} : RandomIds)).1
      = .error (.uncarriable "row" "dto") := by decide +kernel
  obtain ⟨hiff, -, hfails⟩ := generation_succeeds_iff hkeyed hroot ({} : RandomIds)
  have hnot : ¬ AllResolve depotStore depot.toClassBody := by
    intro hall
    obtain ⟨a, ha⟩ := hiff.mpr ⟨hidentified, hall⟩
    rw [hrun] at ha
    cases ha
  obtain ⟨id, detail, herror, hfirst⟩ := hfails hidentified hnot
  rw [hrun] at herror
  cases herror
  exact ⟨hrun, hnot, (hfirst "row").mpr rfl⟩

end DomainDesign.Artifacts
