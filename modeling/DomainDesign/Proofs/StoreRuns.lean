import DomainDesign.Proofs.Loading
import Mathlib.Data.Finset.Card

/-!
# The first object under an id stays

A store is loaded from trees and then filled by hand, and an id may be offered to it any number of
times, by several trees and several calls.  `first_offer_stays` says what the store has at any time:
of everything that was offered under an id, the first.

**Offers.**  An offer is an entry that goes in if its id is free.  Nodes make offers (`loaded`), and
so do calls (`Call.offer`); `Call.perform` is the call itself.

**The invariant.**  `KeepsFirst s offered` says what a store is that has been offered a list of
entries.  One more offer is `KeepsFirst.take`, and everything else is a run of offers:
`keepsFirst_addTrees` for trees, `KeepsFirst.after` for calls.
-/

namespace DomainDesign.Store

open Model

/-! ## Calls -/

/-- A call that offers an object to a store: on its own, or as a member of an aggregation. -/
inductive Call where
  | insert (object : StoredObject) (parent : Option Naming)
  | member (object : StoredObject) (parent : Option Naming)

namespace Call

/-- The entry that a call offers. -/
def offer : Call → StoreEntry
  | .insert object parent => ⟨object.uuid, object, parent⟩
  | .member (.dto d) _ => ⟨d.uuid, .dto d, none⟩
  | .member (.dataObject d) _ => ⟨d.uuid, .dataObject d, none⟩
  | .member object parent => ⟨object.uuid, object, parent⟩

/-- The store that a call leaves behind. -/
def perform (s : Store) : Call → Store
  | .insert object parent => (s.insert object parent).2
  | .member object parent => s.insertMember object parent

end Call

/-- The store that calls leave behind. -/
def after (s : Store) (calls : List Call) : Store :=
  calls.foldl Call.perform s

lemma perform_eq (s : Store) (call : Call) : call.perform s = s.take call.offer := by
  cases call with
  | insert object parent => rfl
  | member object parent => cases object <;> rfl

/-! ## The invariant -/

/-- What a store is when the entries have been offered to it, in this order. -/
structure KeepsFirst (s : Store) (offered : List StoreEntry) : Prop where
  /-- Under an id there is the first object that was offered there, with its parent. -/
  found : ∀ id, s.get? id = offered.find? fun e => e.id = id
  /-- The ids stand in the order in which they were first offered, each once. -/
  order : s.order = unique (offered.map (·.id))

variable {s : Store} {offered : List StoreEntry} {e : StoreEntry} {id : String}

lemma keepsFirst_empty : KeepsFirst .empty [] :=
  ⟨fun _ => rfl, rfl⟩

namespace KeepsFirst

/-- An id is taken if something was offered under it. -/
lemma contains_iff (h : s.KeepsFirst offered) : s.contains id = true ↔ id ∈ offered.map (·.id) := by
  rw [contains_eq, h.found, List.find?_isSome]
  simp

lemma take_of_taken (h : s.KeepsFirst offered) (he : e.id ∈ offered.map (·.id)) : s.take e = s := by
  rw [take, insertAs_of_taken (h.contains_iff.mpr he)]

/-- **One more offer.**  It goes in at the end, or not at all. -/
lemma take (h : s.KeepsFirst offered) (e : StoreEntry) :
    (s.take e).KeepsFirst (offered ++ [e]) := by
  refine ⟨fun id => ?_, ?_⟩
  · rw [Store.take, get?_insertAs, h.found, List.find?_append, List.find?_singleton]
    by_cases hid : id = e.id
    · simp [hid]
    · simp [hid, Ne.symm hid]
  · rw [List.map_append, List.map_singleton, unique_concat]
    by_cases he : e.id ∈ offered.map (·.id)
    · rw [if_pos he, h.take_of_taken he, h.order]
    · rw [if_neg he, Store.take, insertAs_of_free (mt h.contains_iff.mp he), order_add, h.order]

lemma size (h : s.KeepsFirst offered) : s.size = (offered.map (·.id)).toFinset.card := by
  have hsame : (unique (offered.map (·.id))).toFinset = (offered.map (·.id)).toFinset := by
    ext id
    rw [List.mem_toFinset, List.mem_toFinset, mem_unique]
  rw [← s.length_objects, ← List.length_map (·.id), map_id_objects, h.order, ← hsame,
    List.toFinset_card_of_nodup (nodup_unique _)]

end KeepsFirst

/-! ## Runs -/

lemma keepsFirst_addNodes {t : Tree} {nodes : List Node} {s' : Store} (h : s.KeepsFirst offered)
    (hload : addNodes t nodes s = .ok s') : s'.KeepsFirst (offered ++ offers t nodes) := by
  induction nodes generalizing s offered with
  | nil =>
      cases hload
      simpa [offers] using h
  | cons n rest ih =>
      obtain ⟨made, hmade, hload⟩ := bind_ok_iff.mp hload
      cases made with
      | none =>
          rw [offers_cons_of_none hmade]
          exact ih h hload
      | some e =>
          rw [offers_cons_of_some hmade, List.append_cons]
          exact ih (h.take e) hload

lemma keepsFirst_addTrees {trees : List Tree} {s' : Store} (h : s.KeepsFirst offered)
    (hload : addTrees trees s = .ok s') : s'.KeepsFirst (offered ++ trees.flatMap loaded) := by
  induction trees generalizing s offered with
  | nil =>
      cases hload
      simpa using h
  | cons t rest ih =>
      obtain ⟨s₁, hfirst, hrest⟩ := bind_ok_iff.mp hload
      rw [List.flatMap_cons, ← List.append_assoc]
      exact ih (keepsFirst_addNodes h hfirst) hrest

/-- **A run of calls** makes their offers, one after the other. -/
lemma KeepsFirst.after (h : s.KeepsFirst offered) (calls : List Call) :
    (s.after calls).KeepsFirst (offered ++ calls.map Call.offer) := by
  induction calls generalizing s offered with
  | nil =>
      rw [List.map_nil, List.append_nil]
      exact h
  | cons call rest ih =>
      rw [Store.after, List.foldl_cons, perform_eq, List.map_cons, List.append_cons]
      exact ih (h.take call.offer)

/-- **Whatever is found stays**, whatever else is offered. -/
lemma get?_after {calls : List Call} (h : s.get? id = some e) :
    (s.after calls).get? id = some e := by
  induction calls generalizing s with
  | nil => exact h
  | cons call rest ih =>
      refine ih ?_
      rw [perform_eq, take, get?_insertAs, h, Option.some_or]

/-! ## The whole -/

/-- A tree has an object that can be stored under an id. -/
def HasObject (t : Tree) (id : String) : Prop :=
  ∃ n, t.get? id = some n ∧ StoredObject.isKind n.kind = true

lemma find?_loaded_eq_none {t : Tree} (h : ¬ HasObject t id) :
    ((loaded t).find? fun e => e.id = id) = none := by
  rw [List.find?_eq_none]
  intro e he hid
  obtain rfl : e.id = id := of_decide_eq_true hid
  obtain ⟨n, hn, hmade⟩ := mem_loaded.mp he
  exact h ⟨n, hn, (isSome_of_nodeEntry hmade).symm⟩

/-- **The earliest tree wins**, whatever is offered after it. -/
lemma find?_of_earliest {earlier later : List Tree} {t : Tree} {n : Node} {more : List StoreEntry}
    (hearlier : ∀ u ∈ earlier, ¬ HasObject u n.id) (hn : t.get? n.id = some n)
    (hmade : nodeEntry t n = .ok (some e)) :
    (((earlier ++ t :: later).flatMap loaded ++ more).find? fun e => e.id = n.id) = some e := by
  have hnone : ((earlier.flatMap loaded).find? fun e => e.id = n.id) = none := by
    rw [List.find?_flatMap, List.findSome?_eq_none_iff]
    exact fun u hu => find?_loaded_eq_none (hearlier u hu)
  have hid : e.id = n.id := (of_nodeEntry hmade).1
  have hhere : ((loaded t).find? fun e => e.id = n.id) = some e := by
    rw [← hid]
    refine find?_key (mem_loaded.mpr ⟨n, by rwa [hid], hmade⟩) fun f hf hsame => ?_
    obtain ⟨m, hm, hother⟩ := mem_loaded.mp hf
    -- a tree has one node under an id
    rw [hsame, hid, hn] at hm
    cases hm
    rw [hmade] at hother
    exact (Option.some.inj (Except.ok.inj hother)).symm
  rw [List.flatMap_append, List.flatMap_cons, List.find?_append, List.find?_append,
    List.find?_append, hnone, hhere]
  rfl

/-- Everything that is offered to a store that is loaded from trees and then called, in order. -/
def allOffered (trees : List Tree) (calls : List Call) : List StoreEntry :=
  trees.flatMap loaded ++ calls.map Call.offer

/-- What a store is that has been loaded from trees and has then taken calls, and what a further
call does to it. -/
structure HasTaken (s : Store) (trees : List Tree) (calls : List Call) : Prop where
  /-- Under an id there is the first object that was offered there, with its parent. -/
  found : ∀ id, s.get? id = (allOffered trees calls).find? fun e => e.id = id
  /-- The objects are listed in the order in which their ids were first offered. -/
  order : s.objects.map (·.id) = unique ((allOffered trees calls).map (·.id))
  listed : ∀ e, e ∈ s.objects ↔ s.get? e.id = some e
  once : s.objects.Nodup
  size : s.objects.length = s.size
    ∧ s.size = ((allOffered trees calls).map (·.id)).toFinset.card
  /-- An object under an id that is taken is refused, and changes nothing. -/
  refused : ∀ object parent, object.uuid ∈ (allOffered trees calls).map (·.id) →
    s.insert object parent = (false, s)
  /-- Any other object is put at the end, and nothing else changes. -/
  accepted : ∀ object parent, object.uuid ∉ (allOffered trees calls).map (·.id) →
    ∃ s', s.insert object parent = (true, s')
      ∧ ∀ other : Store,
        other.objects = s.objects ++ [⟨object.uuid, object, parent⟩] ↔ other = s'
  unchanged : ∀ call : Call, call.offer.id ∈ (allOffered trees calls).map (·.id) →
    call.perform s = s
  stays : ∀ id e further, s.get? id = some e → (s.after further).get? id = some e
  /-- Of the trees that have an object under an id, the earliest wins. -/
  earliest : ∀ earlier t later n, trees = earlier ++ t :: later →
    (∀ u ∈ earlier, ¬ HasObject u n.id) → t.get? n.id = some n →
    StoredObject.isKind n.kind = true →
    ∃ e, nodeEntry t n = .ok (some e) ∧ s.get? n.id = some e

/-- **The first object under an id stays**, over any run: whatever trees a store is loaded from, and
whatever calls follow. -/
theorem first_offer_stays {trees : List Tree} (h : ofTrees trees = .ok s) (calls : List Call) :
    (s.after calls).HasTaken trees calls := by
  have hkeeps : (s.after calls).KeepsFirst (allOffered trees calls) :=
    (keepsFirst_addTrees keepsFirst_empty h).after calls
  refine
    { found := hkeeps.found
      order := (map_id_objects _).trans hkeeps.order
      listed := fun e => mem_objects_iff
      once := nodup_objects _
      size := ⟨length_objects _, hkeeps.size⟩
      refused := fun object parent htaken => ?refused
      accepted := fun object parent hfree => ?accepted
      unchanged := fun call htaken => ?unchanged
      stays := fun id e further hfound => get?_after hfound
      earliest := fun earlier t later n htrees hearlier hn hkind => ?earliest }
  case refused =>
    exact insertAs_of_taken (hkeeps.contains_iff.mpr htaken)
  case accepted =>
    have hnew := mt hkeeps.contains_iff.mp hfree
    have hobjects : ((s.after calls).add object.uuid ⟨object, parent⟩ hnew).objects
        = (s.after calls).objects ++ [⟨object.uuid, object, parent⟩] := objects_add _ hnew
    refine ⟨_, insertAs_of_free hnew, fun other => ⟨fun hother => ?_, ?_⟩⟩
    · exact eq_of_objects_eq (hother.trans hobjects.symm)
    · rintro rfl
      exact hobjects
  case unchanged =>
    rw [perform_eq]
    exact hkeeps.take_of_taken htaken
  case earliest =>
    have hread := nodeEntry_of_addTrees h t (by simp [htrees]) n (Tree.mem_nodeList.mpr hn)
    obtain ⟨made, hmade⟩ := hread
    obtain ⟨e, rfl⟩ := Option.isSome_iff_exists.mp ((isSome_of_nodeEntry hmade).trans hkind)
    refine ⟨e, hmade, ?_⟩
    rw [hkeeps.found, allOffered, htrees]
    exact find?_of_earliest hearlier hn hmade

/-- A tree with an address, and with an order that belongs to sales. -/
def salesTree : Tree :=
  .ofNodes "__ROOT__"
    [Node.make "address" .valueObject (.obj [("uuid", .str "address"), ("name", .str "Address")]),
      { Node.make "order" .entity (.obj [("uuid", .str "order"), ("name", .str "Order")]) with
        parentId := some "sales" },
      Node.make "sales" .aggregation (.obj [("uuid", .str "sales"), ("name", .str "Sales")])]

/-- A tree with another address and a table. -/
def tablesTree : Tree :=
  .ofNodes "__ROOT__"
    [Node.make "address" .dataObject (.obj [("uuid", .str "address"), ("name", .str "Addresses")]),
      Node.make "people" .dataObject (.obj [("uuid", .str "people"), ("name", .str "People")])]

/-- Two calls, one of them under an id that is taken. -/
def laterCalls : List Call :=
  [.insert (.dto { uuid := "order", name := "OrderDTO" }) none,
    .member (.dto { uuid := "note", name := "Note" }) (some { uuid := "sales" })]

theorem first_offer_stays_sales :
    ∃ s, ofTrees [salesTree, tablesTree] = .ok s
      ∧ (s.after laterCalls).HasTaken [salesTree, tablesTree] laterCalls
      ∧ (s.after laterCalls).objects.map (fun e => (e.id, e.object.name, e.parent.map (·.name)))
        = [("address", "Address", none), ("order", "Order", some "Sales"),
          ("people", "People", none), ("note", "Note", none)] := by
  have hstore : (ofTrees [salesTree, tablesTree]).map (fun s =>
      (s.after laterCalls).objects.map (fun e => (e.id, e.object.name, e.parent.map (·.name))))
      = .ok [("address", "Address", none), ("order", "Order", some "Sales"),
          ("people", "People", none), ("note", "Note", none)] := by decide +kernel
  obtain ⟨s, hs, hentries⟩ := map_ok_iff.mp hstore
  exact ⟨s, hs, first_offer_stays hs laterCalls, hentries⟩

end DomainDesign.Store
