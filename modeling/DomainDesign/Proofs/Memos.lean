import DomainDesign.Generate.Memo
import DomainDesign.Proofs.Dictionaries
import DomainDesign.Proofs.Registers
import Mathlib.Data.List.Perm.Basic

/-!
# What a memo holds

A memo has a list and the places of uuids in it.  `entries` puts the two together again: the uuids
in the order of their places, each with what stands there.  That this loses nothing is
`holds_entries`, and it rests on the places being those of the list, each once.

Everything a memo does is then said about its entries:

* `get?_eq`, `get?_eq_none_iff`, `toList_eq` and `contains_iff` — what is read off them;
* `save_of_taken`, `save_of_free` — a uuid that has been used is refused, and any other one comes
  last, with what is put under it (`entries_save`);
* `entries_modify` — a change is made to one entry and leaves the others alone.
-/

namespace DomainDesign.Memo

variable {α : Type} {m : Memo α} {uuid : String} {place : ℕ}

/-! ## Entries -/

/-- The uuids and their places, in the order of the places. -/
def inOrder (m : Memo α) : List (String × ℕ) :=
  m.places.mergeSort fun a b => a.2 ≤ b.2

lemma perm_inOrder (m : Memo α) : m.inOrder.Perm m.places :=
  List.mergeSort_perm ..

/-- The places are numbered through. -/
lemma places_inOrder (m : Memo α) : m.inOrder.map (·.2) = List.range m.items.length := by
  have hascending : (m.inOrder.map (·.2)).Pairwise (· ≤ ·) := by
    have hsort : m.inOrder.Pairwise fun a b => decide (a.2 ≤ b.2) = true := by
      refine List.pairwise_mergeSort (fun a b c => ?_) (fun a b => ?_) _
      · simpa only [decide_eq_true_eq] using Nat.le_trans
      · simpa only [Bool.or_eq_true, decide_eq_true_eq] using Nat.le_total a.2 b.2
    exact List.pairwise_map.mpr (hsort.imp of_decide_eq_true)
  have hperm := (m.perm_inOrder.map (·.2)).trans m.placed
  exact hperm.eq_of_pairwise (fun _ _ _ _ => Nat.le_antisymm) hascending List.pairwise_le_range

lemma length_inOrder (m : Memo α) : (m.inOrder.map (·.1)).length = m.items.length := by
  simpa using congrArg List.length m.places_inOrder

lemma mem_inOrder : (uuid, place) ∈ m.inOrder ↔ m.place? uuid = some place :=
  m.perm_inOrder.mem_iff.trans ⟨Dict.lookup_of_mem m.sorted, Dict.mem_of_lookup⟩

/-- A uuid comes at its place. -/
lemma getElem?_inOrder :
    (m.inOrder.map (·.1))[place]? = some uuid ↔ m.place? uuid = some place := by
  have hplace {e : String × ℕ} {i : ℕ} (h : m.inOrder[i]? = some e) : e.2 = i := by
    have hrange : (m.inOrder.map (·.2))[i]? = some e.2 := by
      rw [List.getElem?_map, h, Option.map_some]
    rw [places_inOrder, List.getElem?_eq_some_iff] at hrange
    obtain ⟨hlt, heq⟩ := hrange
    rw [← heq, List.getElem_range]
  rw [← mem_inOrder, List.getElem?_map, Option.map_eq_some_iff]
  constructor
  · rintro ⟨e, he, rfl⟩
    obtain rfl := hplace he
    exact List.mem_of_getElem? he
  · intro hmem
    obtain ⟨i, hi⟩ := List.mem_iff_getElem?.mp hmem
    obtain rfl := hplace hi
    exact ⟨_, hi, rfl⟩

/-- What has been made, each under its uuid, in order. -/
def entries (m : Memo α) : List (String × α) :=
  (m.inOrder.map (·.1)).zip m.items

lemma keys_entries (m : Memo α) : m.entries.map (·.1) = m.inOrder.map (·.1) :=
  List.map_fst_zip (Nat.le_of_eq m.length_inOrder)

/-- A uuid is used once. -/
lemma nodup_keys (m : Memo α) : (m.entries.map (·.1)).Nodup := by
  have hkeys : (m.places.map (·.1)).Nodup := Dict.nodup_keys m.sorted
  rw [keys_entries]
  exact (m.perm_inOrder.map (·.1)).nodup_iff.mpr hkeys

/-- **A memo is its entries**, listed and placed. -/
lemma holds_entries (m : Memo α) : m.Holds m.entries := by
  refine ⟨(List.map_snd_zip (Nat.le_of_eq m.length_inOrder.symm)).symm, fun uuid => ?_⟩
  refine Option.ext fun place => ?_
  rw [Register.findIdx?_eq_some_iff m.nodup_keys, ← getElem?_inOrder, ← keys_entries,
    List.getElem?_map, Option.map_eq_some_iff]
  constructor
  · rintro ⟨⟨_, item⟩, he, rfl⟩
    exact ⟨item, he⟩
  · rintro ⟨item, he⟩
    exact ⟨_, he, rfl⟩

lemma entries_eq {entries : List (String × α)} (h : m.Holds entries)
    (hnodup : (entries.map (·.1)).Nodup) : m.entries = entries :=
  m.holds_entries.unique h m.nodup_keys hnodup

@[simp] lemma entries_empty : ({} : Memo α).entries = [] :=
  entries_eq Register.holds_empty List.nodup_nil

/-! ## Reading -/

lemma get?_eq (m : Memo α) (uuid : String) : m.get? uuid = m.entries.lookup uuid :=
  m.holds_entries.get?_eq uuid

lemma get?_of_mem {a : α} (h : (uuid, a) ∈ m.entries) : m.get? uuid = some a := by
  obtain ⟨place, hplace⟩ := List.mem_iff_getElem?.mp h
  have hfind := (Register.findIdx?_eq_some_iff m.nodup_keys).mpr ⟨a, hplace⟩
  rw [Register.get?, m.holds_entries.place, hfind, m.holds_entries.items, Option.bind_some,
    List.getElem?_map, hplace, Option.map_some]

lemma get?_eq_none_iff : m.get? uuid = none ↔ uuid ∉ m.entries.map (·.1) := by
  rw [get?_eq, List.lookup_eq_none_iff]
  simp only [bne_iff_ne, List.mem_map, not_exists, not_and]
  exact forall₂_congr fun e _ => ne_comm

lemma toList_eq (m : Memo α) : m.toList = m.entries.map (·.2) :=
  m.holds_entries.items

lemma contains_iff : m.contains uuid ↔ uuid ∈ m.entries.map (·.1) := by
  rw [contains, ← Option.ne_none_iff_isSome, Ne, m.holds_entries.place?_eq_none_iff, not_not]

/-! ## Writing -/

lemma save_of_taken (h : uuid ∈ m.entries.map (·.1)) (a : α) :
    m.save uuid a = (.error (.memoCollision uuid), m) :=
  dif_pos (contains_iff.mpr h)

lemma save_of_free (h : uuid ∉ m.entries.map (·.1)) (a : α) :
    m.save uuid a = (.ok m.size, m.add uuid a (mt contains_iff.mp h)) :=
  dif_neg (mt contains_iff.mp h)

lemma entries_add {a : α} {free : ¬ m.contains uuid} :
    (m.add uuid a free).entries = m.entries ++ [(uuid, a)] := by
  have hnew : uuid ∉ m.entries.map (·.1) := mt contains_iff.mpr free
  refine entries_eq (m.holds_entries.push hnew a) ?_
  rw [List.map_append, List.map_singleton, ← List.concat_eq_append]
  exact m.nodup_keys.concat hnew

lemma entries_save (h : uuid ∉ m.entries.map (·.1)) (a : α) :
    (m.save uuid a).2.entries = m.entries ++ [(uuid, a)] := by
  rw [save_of_free h, entries_add]

lemma entries_modify (m : Memo α) (uuid : String) (change : α → α) :
    (m.modify uuid change).entries = Register.changeAt uuid change m.entries := by
  rw [modify]
  cases hplace : m.place? uuid with
  | none => exact (m.holds_entries.changeAt_eq hplace change).symm
  | some place =>
      refine entries_eq (m.holds_entries.modifyAt m.nodup_keys hplace change) ?_
      rw [Register.keys_changeAt]
      exact m.nodup_keys

end DomainDesign.Memo
