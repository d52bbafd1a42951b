import DomainDesign.Proofs.Reading
import DomainDesign.Proofs.StoreRuns
import DomainDesign.Proofs.Synthesis

/-!
# When a store is keyed by uuid

A call puts an object under its own uuid, but loading puts it under the id of its node, and a node
may declare another uuid or none.  A store loaded from such a node has an object under an id that is
not its uuid.  The memo of a generation goes by uuids, so two objects without a uuid are one to it:
`unlabelled_objects_mixed_up`.

`keyed_iff_declared` says exactly when a store is keyed by uuid: if every node that an id leads to
declares it, whatever calls follow.  Then uuids tell objects apart, and what a memo has under the
uuid of an object was made from that object: `memo_carries`.
-/

namespace DomainDesign

open Model

/-! ## What a node declares -/

lemma StoredObject.naming_of_ofJson? {kind : Kind} {fields : Json.Fields} {o : StoredObject}
    (h : ofJson? kind (.obj fields) = some o) : Naming.ofFields? fields = some o.naming := by
  cases kind with
  | entity =>
      obtain ⟨e, he, rfl⟩ := Option.map_eq_some_iff.mp h
      exact Entity.naming_of_ofJson? he
  | valueObject =>
      obtain ⟨v, hv, rfl⟩ := Option.map_eq_some_iff.mp h
      exact ValueObject.naming_of_ofJson? hv
  | enumeration =>
      obtain ⟨e, he, rfl⟩ := Option.map_eq_some_iff.mp h
      exact Enumeration.naming_of_ofJson? he
  | dto =>
      obtain ⟨d, hd, rfl⟩ := Option.map_eq_some_iff.mp h
      exact Dto.naming_of_ofJson? hd
  | dataObject =>
      obtain ⟨d, hd, rfl⟩ := Option.map_eq_some_iff.mp h
      exact DataObject.naming_of_ofJson? hd
  | _ => cases h

namespace Store

variable {s : Store} {trees : List Tree} {id : String}

/-- The uuid that an object is loaded with is the one that its node declares. -/
lemma uuid_of_nodeEntry {t : Tree} {n : Node} {e : StoreEntry}
    (h : nodeEntry t n = .ok (some e)) : e.object.uuid = (n.text? "uuid").getD "" := by
  have hread := Node.read_eq_ok.mp (of_nodeEntry h).2.1
  exact Naming.uuid_of_ofFields? (StoredObject.naming_of_ofJson? hread)

/-! ## Keys -/

/-- **A loaded store is keyed exactly if the nodes that ids lead to declare them.** -/
lemma keyed_ofTrees_iff (h : ofTrees trees = .ok s) :
    s.Keyed ↔ ∀ id n, storable? trees id = some n → (n.text? "uuid").getD "" = id := by
  refine forall_congr' fun id => ?_
  have hrel := rel_get?_storable? h id
  generalize s.get? id = stored, storable? trees id = found at hrel ⊢
  cases hrel with
  | none => simp
  | @some e n hmade =>
      obtain ⟨t, hmade⟩ := hmade
      simp [uuid_of_nodeEntry hmade]

lemma uuid_offer (call : Call) : call.offer.object.uuid = call.offer.id := by
  cases call with
  | insert object parent => rfl
  | member object parent => cases object <;> rfl

lemma Keyed.take (h : s.Keyed) {e : StoreEntry} (he : e.object.uuid = e.id) : (s.take e).Keyed := by
  intro id entry hget
  rw [Store.take, get?_insertAs] at hget
  cases hold : s.get? id with
  | some =>
      rw [hold, Option.some_or] at hget
      cases hget
      exact h id _ hold
  | none =>
      rw [hold, Option.none_or] at hget
      split at hget
      case isTrue hid =>
        cases hget
        exact he.trans hid.symm
      case isFalse => cases hget

/-- **Calls neither key a store nor spoil it.** -/
lemma keyed_after_iff (s : Store) (calls : List Call) : (s.after calls).Keyed ↔ s.Keyed := by
  constructor
  · exact fun h id e he => h id e (get?_after he)
  · intro h
    induction calls generalizing s with
    | nil => exact h
    | cons call rest ih =>
        refine ih _ ?_
        rw [perform_eq]
        exact h.take (uuid_offer call)

/-- In a keyed store an object is under one id only. -/
lemma Keyed.id_eq (h : s.Keyed) {id' : String} {e e' : StoreEntry} (he : s.get? id = some e)
    (he' : s.get? id' = some e') (huuid : e.object.uuid = e'.object.uuid) : id = id' := by
  rw [← h id e he, ← h id' e' he', huuid]

/-! ## Memos -/

/-- **What a memo has under the uuid of an object was made from it**, when a class of a keyed store
has been carried. -/
lemma Keyed.memo_carries {σ : Type} [IdSource σ] (h : s.Keyed) {root c : ClassBody} {ids : σ}
    {t : TypeExpr} {w : Workshop σ} {d : Dto} (hroot : s.classAt? root.uuid = some root)
    (hmake : Carrier.ofClass s root { ids } = .ok t w) (hc : s.classAt? id = some c)
    (hd : w.memo.get? c.uuid = some d) : Carrier.ClassCarried s (Carrier.headers w.memo) c d := by
  obtain ⟨made, hgrown, -⟩ := Carrier.make_grown s _ _ _ _ _ hmake
  have hmem : (c.uuid, d) ∈ made.map Carrier.entryOf := by
    rw [Memo.get?_eq, hgrown.entries_of_start] at hd
    exact Dict.mem_of_lookup hd
  obtain ⟨⟨c', d'⟩, hmade, hentry⟩ := List.mem_map.mp hmem
  obtain ⟨huuid, rfl⟩ := Prod.ext_iff.mp hentry
  -- the class that the memo has seen is the one in the store, as is the root
  have hstored : s.classAt? c'.uuid = some c' := by
    have hreached := Walk.reached_of_mem hgrown.walk_of_start c' (List.mem_map_of_mem hmade)
    rcases hreached.eq_root_or_classAt? h with rfl | ⟨-, hclass⟩
    · exact hroot
    · exact hclass
  have hsame : c'.uuid = id := huuid.trans (h.uuid_of_classAt? hc)
  rw [hsame, hc] at hstored
  cases hstored
  exact hgrown.complete _ hmade

/-- **A store is keyed by uuid exactly if the nodes that ids lead to declare them**, whatever calls
follow the loading.  Then objects are told apart by their uuids, and the memo of a generation never
has the data transfer object of another object. -/
theorem keyed_iff_declared (h : ofTrees trees = .ok s) (calls : List Call) :
    ((s.after calls).Keyed
        ↔ ∀ id n, storable? trees id = some n → (n.text? "uuid").getD "" = id)
      ∧ ((s.after calls).Keyed →
        (∀ id id' e e', (s.after calls).get? id = some e → (s.after calls).get? id' = some e' →
          e.object.uuid = e'.object.uuid → id = id')
        ∧ ∀ (σ : Type) [IdSource σ] root (ids : σ) t w,
          (s.after calls).classAt? root.uuid = some root →
          Carrier.ofClass (s.after calls) root { ids } = .ok t w →
          ∀ id c d, (s.after calls).classAt? id = some c → w.memo.get? c.uuid = some d →
            Carrier.ClassCarried (s.after calls) (Carrier.headers w.memo) c d) := by
  refine ⟨(keyed_after_iff s calls).trans (keyed_ofTrees_iff h), fun hkeyed => ⟨?_, ?_⟩⟩
  · exact fun id id' e e' he he' => hkeyed.id_eq he he'
  · exact fun σ _ root ids t w hroot hmake id c d hc hd => hkeyed.memo_carries hroot hmake hc hd

/-! ## Objects without a uuid -/

/-- A person with two addresses, where the nodes have these fields to declare their uuids. -/
def personTree (declaring : String → Json.Fields) : Tree :=
  let property (uuid name : String) (type : TypeExpr) : Json := (Property.of uuid name type).toJson
  let node (id name : String) (kind : Kind) (properties : List Json) : Node :=
    { Node.make id kind
        (.obj ([("name", .str name), ("properties", .arr properties)] ++ declaring id)) with
      parentId := some "__ROOT__" }
  .ofNodes "__ROOT__"
    [["home", "person", "work"].foldl Node.withChild (Node.make "__ROOT__" .root .null),
      node "home" "Home" .valueObject [property "h1" "street" (.base "String")],
      node "person" "Person" .entity
        [property "p1" "home" (.reference "home" "Home"),
          property "p2" "work" (.reference "work" "Work")],
      node "work" "Work" .valueObject [property "w1" "desk" (.base "Integer")]]

/-- The names of the data transfer objects that are made to carry a class, and the types of the
properties of the first of them. -/
def carriedNames (s : Store) (c : ClassBody) : List String × List (Option TypeExpr) :=
  match Carrier.ofClass s c {} with
  | .ok _ w => (w.memo.toList.map (·.name), (w.memo.toList.take 1).flatMap fun d =>
      d.properties.map (·.type))
  | .error _ _ => ([], [])

theorem keyed_iff_declared_person :
    ∃ s, ofTrees [personTree fun id => [("uuid", .str id)]] = .ok s
      ∧ (∀ id n, storable? [personTree fun id => [("uuid", .str id)]] id = some n →
        (n.text? "uuid").getD "" = id)
      ∧ (s.after [.insert (.dto { uuid := "note" }) none]).Keyed
      ∧ (s.classAt? "person").map (fun c => (carriedNames s c).1)
        = some ["PersonDTO", "HomeDTO", "WorkDTO"] := by
  have hstore : (ofTrees [personTree fun id => [("uuid", .str id)]]).map (fun s =>
      ((s.after [.insert (.dto { uuid := "note" }) none]).objects.all
        (fun e => e.object.uuid = e.id),
        (s.classAt? "person").map fun c => (carriedNames s c).1))
      = .ok (true, some ["PersonDTO", "HomeDTO", "WorkDTO"]) := by decide +kernel
  obtain ⟨s, hs, hparts⟩ := map_ok_iff.mp hstore
  obtain ⟨hkeys, hnames⟩ := Prod.ext_iff.mp hparts
  have hkeyed : (s.after [.insert (.dto { uuid := "note" }) none]).Keyed :=
    keyed_of_objects (by simpa using hkeys)
  exact ⟨s, hs, (keyed_iff_declared hs _).1.mp hkeyed, hkeyed, hnames⟩

/-- **Objects without a uuid are mixed up.**  The two addresses are different objects under
different ids, but have the same uuid, and both properties of the person are carried by the data
transfer object of the first address. -/
theorem unlabelled_objects_mixed_up :
    ∃ s, ofTrees [personTree fun id => if id = "person" then [("uuid", .str id)] else []] = .ok s
      ∧ ¬ s.Keyed
      ∧ (s.get? "home").map (fun e => (e.object.name, e.object.uuid)) = some ("Home", "")
      ∧ (s.get? "work").map (fun e => (e.object.name, e.object.uuid)) = some ("Work", "")
      ∧ (s.classAt? "person").map (carriedNames s)
        = some (["PersonDTO", "HomeDTO"],
          [some (.reference "id-2" "HomeDTO"), some (.reference "id-2" "HomeDTO")]) := by
  have hstore : (ofTrees
      [personTree fun id => if id = "person" then [("uuid", .str id)] else []]).map (fun s =>
        ((s.get? "home").map (fun e => (e.object.name, e.object.uuid)),
          (s.get? "work").map (fun e => (e.object.name, e.object.uuid)),
          (s.classAt? "person").map (carriedNames s)))
      = .ok (some ("Home", ""), some ("Work", ""), some (["PersonDTO", "HomeDTO"],
          [some (.reference "id-2" "HomeDTO"), some (.reference "id-2" "HomeDTO")])) := by
    with_unfolding_all rfl
  obtain ⟨s, hs, hparts⟩ := map_ok_iff.mp hstore
  simp only [Prod.mk.injEq] at hparts
  obtain ⟨hhome, hwork, hperson⟩ := hparts
  refine ⟨s, hs, fun hkeyed => ?_, hhome, hwork, hperson⟩
  obtain ⟨e, he, hnaming⟩ := Option.map_eq_some_iff.mp hhome
  have huuid : e.object.uuid = "home" := hkeyed "home" e he
  simp [huuid] at hnaming

end Store

end DomainDesign
