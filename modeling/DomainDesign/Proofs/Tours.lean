import DomainDesign.Proofs.ObjectGraph
import Mathlib.Data.Finset.Card
import Mathlib.Data.Finset.Dedup
import Mathlib.Data.Finset.SDiff

/-!
# Tours over references

A `Walk` is about classes.  What goes wrong on the way to them is about references: one that leads
nowhere, or to something else than a class, stands between two that lead to classes.  A `Tour` is
the same search, told by the references.  Each is met in its place, also one to a class that has
been seen, and right behind one to a class that is new come those in the properties of this class.

**There is one tour.**  A tour enters each class of the store at most once.  `unseen` counts the
uuids of classes that have not been seen; it falls whenever a class is entered, so `exists_tour`.
What is met does not depend on anything else: `Tour.unique`.

**Tours and walks.**  The classes that a tour enters are those that a walk meets (`Tour.walk`), and
it meets the references in their properties and no others (`Tour.mem_met`).
-/

namespace DomainDesign

open Model

/-- The ids that properties refer to, in the order in which they stand. -/
def propertyTargets (ps : List Property) : List String :=
  ps.flatMap fun p => TypeExpr.targets? p.type

/-- The depth-first tour over the pending references, where `seen` are the uuids of the classes that
have been entered before, `met` are the references that are met, and `entered` the classes. -/
inductive Tour (store : Store) :
    (pending seen met : List String) → (entered : List ClassBody) → Prop
  | done {seen : List String} : Tour store [] seen [] []
  | pass {id : String} {rest seen met : List String} {entered : List ClassBody}
      (known : ∀ c, store.classAt? id = some c → c.uuid ∈ seen)
      (further : Tour store rest seen met entered) :
      Tour store (id :: rest) seen (id :: met) entered
  | enter {id : String} {c : ClassBody} {rest seen inner outer : List String}
      {below others : List ClassBody} (leads : store.classAt? id = some c) (new : c.uuid ∉ seen)
      (inside : Tour store (propertyTargets c.properties) (seen ++ [c.uuid]) inner below)
      (further : Tour store rest (seen ++ c.uuid :: below.map (·.uuid)) outer others) :
      Tour store (id :: rest) seen (id :: (inner ++ outer)) (c :: (below ++ others))

variable {store : Store} {c : ClassBody} {id : String} {pending seen met : List String}
  {entered : List ClassBody}

lemma mem_propertyTargets {ps : List Property} :
    id ∈ propertyTargets ps ↔ ∃ p ∈ ps, id ∈ TypeExpr.targets? p.type :=
  List.mem_flatMap

lemma filterMap_propertyTargets (store : Store) (ps : List Property) :
    (propertyTargets ps).filterMap store.classAt? = propertyClasses store ps :=
  List.filterMap_flatMap ..

/-! ## What has not been seen -/

/-- The uuids of the classes that a store has under its ids. -/
def Store.classUuids (store : Store) : List String :=
  store.objects.filterMap fun e => (store.classAt? e.id).map (·.uuid)

/-- How many uuids of classes have not been seen. -/
def unseen (store : Store) (seen : List String) : ℕ :=
  (store.classUuids.toFinset \ seen.toFinset).card

lemma Store.mem_classUuids (h : store.classAt? id = some c) : c.uuid ∈ store.classUuids := by
  obtain ⟨entry, hget, -⟩ := Option.bind_eq_some_iff.mp h
  obtain rfl := id_of_get? hget
  refine List.mem_filterMap.mpr ⟨entry, mem_objects_iff.mpr hget, ?_⟩
  rw [h, Option.map_some]

lemma unseen_le_size (store : Store) (seen : List String) : unseen store seen ≤ store.size :=
  calc unseen store seen
    _ ≤ store.classUuids.toFinset.card := Finset.card_le_card Finset.sdiff_subset
    _ ≤ store.classUuids.length := List.toFinset_card_le _
    _ ≤ store.objects.length := List.length_filterMap_le ..
    _ = store.size := store.length_objects

lemma sdiff_append_subset (store : Store) (seen more : List String) :
    store.classUuids.toFinset \ (seen ++ more).toFinset
      ⊆ store.classUuids.toFinset \ seen.toFinset := by
  refine Finset.sdiff_subset_sdiff subset_rfl ?_
  rw [List.toFinset_append]
  exact Finset.subset_union_left

lemma unseen_append_le (store : Store) (seen more : List String) :
    unseen store (seen ++ more) ≤ unseen store seen :=
  Finset.card_le_card (sdiff_append_subset ..)

/-- Seeing a new class leaves fewer to be seen. -/
lemma unseen_append_lt (h : store.classAt? id = some c) (hnew : c.uuid ∉ seen) :
    unseen store (seen ++ [c.uuid]) < unseen store seen := by
  refine Finset.card_lt_card ((Finset.ssubset_iff_of_subset (sdiff_append_subset ..)).mpr ?_)
  exact ⟨c.uuid, by simp [Store.mem_classUuids h, hnew], by simp⟩

/-! ## There are tours -/

/-- References to classes that have been seen, and to none, are met and passed over. -/
lemma tour_of_known (h : ∀ id ∈ pending, ∀ c, store.classAt? id = some c → c.uuid ∈ seen) :
    Tour store pending seen pending [] := by
  induction pending with
  | nil => exact .done
  | cons id rest ih =>
      obtain ⟨hid, hrest⟩ := List.forall_mem_cons.mp h
      exact .pass hid (ih hrest)

/-- **There is a tour over whatever is pending.**  The induction is on the classes that are left to
be seen, and for each number of them on what is pending. -/
theorem exists_tour (store : Store) (pending seen : List String) :
    ∃ met entered, Tour store pending seen met entered := by
  induction hleft : unseen store seen using Nat.strong_induction_on generalizing pending seen with
  | _ left ih =>
  subst hleft
  -- the classes seen so far may become more while the pending references are worked off
  suffices hall : ∀ more, ∃ met entered, Tour store pending (seen ++ more) met entered by
    simpa using hall []
  induction pending with
  | nil => exact fun more => ⟨[], [], .done⟩
  | cons id rest ihRest =>
      intro more
      by_cases hknown : ∀ c, store.classAt? id = some c → c.uuid ∈ seen ++ more
      · obtain ⟨met, entered, hrest⟩ := ihRest more
        exact ⟨id :: met, entered, .pass hknown hrest⟩
      · push Not at hknown
        obtain ⟨c, hleads, hnew⟩ := hknown
        have hfewer : unseen store (seen ++ more ++ [c.uuid]) < unseen store seen :=
          (unseen_append_lt hleads hnew).trans_le (unseen_append_le ..)
        obtain ⟨inner, below, hinside⟩ := ih _ hfewer (propertyTargets c.properties) _ rfl
        obtain ⟨outer, others, hrest⟩ := ihRest (more ++ c.uuid :: below.map (·.uuid))
        rw [← List.append_assoc] at hrest
        exact ⟨_, _, .enter hleads hnew hinside hrest⟩

namespace Tour

/-! ## One tour after another -/

/-- A tour over two lists is a tour over the first and one over the second. -/
lemma split {more : List String} (h : Tour store (pending ++ more) seen met entered) :
    ∃ inner outer below others, met = inner ++ outer ∧ entered = below ++ others
      ∧ Tour store pending seen inner below
      ∧ Tour store more (seen ++ below.map (·.uuid)) outer others := by
  induction pending generalizing seen met entered with
  | nil => exact ⟨[], met, [], entered, rfl, rfl, .done, by simpa using h⟩
  | cons id rest ih =>
      cases h with
      | pass known further =>
          obtain ⟨inner, outer, below, others, rfl, rfl, hinner, houter⟩ := ih further
          exact ⟨id :: inner, outer, below, others, rfl, rfl, .pass known hinner, houter⟩
      | @enter _ c _ _ within _ deeper _ leads new inside further =>
          obtain ⟨inner, outer, below, others, rfl, rfl, hinner, houter⟩ := ih further
          refine ⟨id :: (within ++ inner), outer, c :: (deeper ++ below), others, by simp, by simp,
            .enter leads new inside hinner, ?_⟩
          simpa using houter

/-- **There is one tour** over what is pending.  A reference is passed over or entered by what the
store has under it and by what has been seen. -/
lemma unique {others : List ClassBody} {other : List String}
    (h : Tour store pending seen met entered) (hother : Tour store pending seen other others) :
    other = met ∧ others = entered := by
  induction h generalizing other others with
  | done =>
      cases hother
      exact ⟨rfl, rfl⟩
  | pass known _ ih =>
      cases hother with
      | pass _ further =>
          obtain ⟨rfl, rfl⟩ := ih further
          exact ⟨rfl, rfl⟩
      | enter leads new => exact absurd (known _ leads) new
  | enter leads new _ _ ihInside ihFurther =>
      cases hother with
      | pass known => exact absurd (known _ leads) new
      | enter leads' _ inside further =>
          obtain rfl := Option.some.inj (leads.symm.trans leads')
          obtain ⟨rfl, rfl⟩ := ihInside inside
          obtain ⟨rfl, rfl⟩ := ihFurther further
          exact ⟨rfl, rfl⟩

/-! ## Tours and walks -/

/-- **The classes that a tour enters are those that a walk meets.** -/
lemma walk (h : Tour store pending seen met entered) :
    Walk store (pending.filterMap store.classAt?) seen entered := by
  induction h with
  | done => exact .done
  | @pass id rest seen met entered known _ ih =>
      cases hclass : store.classAt? id with
      | none => rwa [List.filterMap_cons_none hclass]
      | some c =>
          rw [List.filterMap_cons_some hclass]
          exact .pass (known c hclass) ih
  | enter leads new _ _ ihInside ihFurther =>
      rw [filterMap_propertyTargets] at ihInside
      rw [List.filterMap_cons_some leads]
      exact .meet new ihInside ihFurther

/-- **A tour meets what was pending and what the classes refer to that it enters.** -/
lemma mem_met (h : Tour store pending seen met entered) :
    id ∈ met ↔ id ∈ pending ∨ ∃ c ∈ entered, id ∈ propertyTargets c.properties := by
  induction h with
  | done => simp
  | pass _ _ ih => rw [List.mem_cons, List.mem_cons, ih, or_assoc]
  | enter _ _ _ _ ihInside ihFurther =>
      simp only [List.mem_cons, List.mem_append, ihInside, ihFurther, or_and_right, exists_or,
        exists_eq_left]
      grind

end Tour

end DomainDesign
