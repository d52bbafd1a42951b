import DomainDesign.Proofs.Dictionaries
import DomainDesign.Store

/-!
# What a store lists

A store keeps two accounts of its objects, what there is under the ids and the order of the ids.
`objects` reads both.

**In step.**  The ids that are listed are those that are taken, each once, so every object that can
be found is listed once and nothing else is: `mem_objects_iff`, `nodup_objects`, `length_objects`.
Hence a store is the list of its objects: `eq_of_objects_eq`.

**Insertion.**  An id that is taken is refused and changes nothing, `insertAs_of_taken`.  Any other
object can be found afterwards and is listed last, `insertAs_of_free` with `get?_add` and
`objects_add`.
-/

namespace DomainDesign.Store

variable {s s' : Store} {id : String} {e : StoreEntry} {slot : StoreSlot}

lemma id_of_get? (h : s.get? id = some e) : e.id = id := by
  obtain ⟨slot, -, rfl⟩ := Option.map_eq_some_iff.mp h
  rfl

lemma contains_eq (s : Store) (id : String) : s.contains id = (s.get? id).isSome := by
  rw [contains, Dict.has, get?, Option.isSome_map]

/-! ## The two accounts -/

lemma mem_order_iff : id ∈ s.order ↔ s.contains id :=
  s.listed.mem_iff.trans Dict.mem_keys_iff

lemma nodup_order (s : Store) : s.order.Nodup :=
  s.listed.nodup_iff.mpr (Dict.nodup_keys s.sorted)

/-- **Every id that is listed leads to an object**, so the objects stand in the order of the ids. -/
lemma map_id_objects (s : Store) : s.objects.map (·.id) = s.order := by
  have hfound : ∀ id ∈ s.order, (s.get? id).map (·.id) = some id := by
    intro id hid
    rw [mem_order_iff, contains_eq, Option.isSome_iff_exists] at hid
    obtain ⟨e, he⟩ := hid
    rw [he, Option.map_some, id_of_get? he]
  rw [objects, List.map_filterMap, List.filterMap_congr hfound, List.filterMap_some]

lemma mem_objects_iff : e ∈ s.objects ↔ s.get? e.id = some e := by
  rw [objects, List.mem_filterMap]
  constructor
  · rintro ⟨id, -, he⟩
    rwa [id_of_get? he]
  · intro he
    refine ⟨e.id, mem_order_iff.mpr ?_, he⟩
    rw [contains_eq, he]
    rfl

lemma nodup_objects (s : Store) : s.objects.Nodup :=
  .of_map (·.id) (s.map_id_objects ▸ s.nodup_order)

/-- **As many objects are listed as can be found.** -/
lemma length_objects (s : Store) : s.objects.length = s.size := by
  rw [← List.length_map (·.id), map_id_objects, s.listed.length_eq, Dict.keys, List.length_map,
    size]

/-- **A store is the list of its objects**: there is nothing else to it. -/
lemma eq_of_objects_eq (h : s.objects = s'.objects) : s = s' := by
  have horder : s.order = s'.order := by rw [← map_id_objects, h, map_id_objects]
  have hget (id : String) : s.get? id = s'.get? id := by
    refine Option.ext fun e => ⟨fun he => ?_, fun he => ?_⟩
    · obtain rfl := id_of_get? he
      rwa [← mem_objects_iff, ← h, mem_objects_iff]
    · obtain rfl := id_of_get? he
      rwa [← mem_objects_iff, h, mem_objects_iff]
  have hslots : s.slots = s'.slots := by
    refine Dict.eq_of_lookup_eq s.sorted s'.sorted fun id => ?_
    refine Option.map_injective ?_ (hget id)
    rintro ⟨object, parent⟩ ⟨object', parent'⟩ hslot
    obtain ⟨-, rfl, rfl⟩ := StoreEntry.mk.inj hslot
    rfl
  cases s
  cases s'
  exact mk.injEq .. ▸ ⟨hslots, horder⟩

/-! ## Insertion -/

lemma get?_add (s : Store) (free : ¬ s.contains id) (k : String) :
    (s.add id slot free).get? k
      = if k = id then some ⟨id, slot.object, slot.parent⟩ else s.get? k := by
  rw [get?, add, Dict.lookup_insert, get?]
  split
  case isTrue hk => rw [hk, Option.map_some]
  case isFalse => rfl

lemma order_add (s : Store) (free : ¬ s.contains id) :
    (s.add id slot free).order = s.order ++ [id] :=
  rfl

/-- An object that is put in is listed last. -/
lemma objects_add (s : Store) (free : ¬ s.contains id) :
    (s.add id slot free).objects = s.objects ++ [⟨id, slot.object, slot.parent⟩] := by
  have hbefore : ∀ k ∈ s.order, (s.add id slot free).get? k = s.get? k := by
    intro k hk
    rw [get?_add, if_neg]
    rintro rfl
    exact free (mem_order_iff.mp hk)
  have hlast : (s.add id slot free).get? id = some ⟨id, slot.object, slot.parent⟩ := by
    rw [get?_add, if_pos rfl]
  rw [objects, order_add, List.filterMap_append, List.filterMap_congr hbefore,
    List.filterMap_cons_some hlast, List.filterMap_nil, objects]

variable {object : StoredObject} {parent : Option Model.Naming}

lemma insertAs_of_taken (h : s.contains id) : s.insertAs id object parent = (false, s) :=
  dif_pos h

lemma insertAs_of_free (h : ¬ s.contains id) :
    s.insertAs id object parent = (true, s.add id ⟨object, parent⟩ h) :=
  dif_neg h

/-- **What is found after an insertion**: what was there before, if there was something. -/
lemma get?_insertAs (s : Store) (id : String) (object : StoredObject) (parent : Option Model.Naming)
    (k : String) : (s.insertAs id object parent).2.get? k
      = (s.get? k).or (if k = id then some ⟨id, object, parent⟩ else none) := by
  by_cases h : s.contains id
  · rw [insertAs_of_taken h]
    rw [contains_eq, Option.isSome_iff_exists] at h
    obtain ⟨e, he⟩ := h
    by_cases hk : k = id
    · rw [hk, he, Option.some_or]
    · rw [if_neg hk, Option.or_none]
  · rw [insertAs_of_free h, get?_add]
    rw [contains_eq, Option.not_isSome_iff_eq_none] at h
    by_cases hk : k = id
    · rw [hk, h, Option.none_or, if_pos rfl]
    · rw [if_neg hk, if_neg hk, Option.or_none]

/-- The store with an entry under its id, unless there is one already. -/
def take (s : Store) (e : StoreEntry) : Store :=
  (s.insertAs e.id e.object e.parent).2

/-- The store of entries, of which the first one under an id stays. -/
def ofEntries (entries : List StoreEntry) : Store :=
  entries.foldl take .empty

end DomainDesign.Store
