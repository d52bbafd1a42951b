import DomainDesign.Register
import Mathlib.Data.List.Basic
import Mathlib.Data.List.Nodup
import Mathlib.Tactic.Common

/-!
# What a register holds

A register keeps two things that have to fit together, a list and the places of its items.  `Holds r
entries` says that they do: `r` is what is made of the entries, a list of items with their ids, by
putting them in one after the other.  Everything a register is used for is then said about the
entries:

* `Holds.push` — putting an item in under a new id adds an entry;
* `Holds.modifyAt` — changing the item at the place of an id changes the entry of that id only;
* `Holds.get?_eq` — what stands under an id is what the entries have under it;
* `Holds.unique` — where no two entries have the same id, the register tells what they are.

`forall_mem_modifyAt` is about the items alone, wherever they have come from.
-/

namespace DomainDesign.Register

variable {α : Type}

/-- **The invariant of a register.**  The items are those of the entries, and the place of an id is
the place of its first entry. -/
structure Holds (r : Register α) (entries : List (String × α)) : Prop where
  items : r.items = entries.map (·.2)
  place : ∀ id, r.place? id = entries.findIdx? fun e => e.1 = id

lemma holds_empty : Holds ({} : Register α) [] :=
  ⟨rfl, fun _ => rfl⟩

variable {r : Register α} {entries : List (String × α)}

lemma Holds.place?_eq_none_iff (h : r.Holds entries) (id : String) :
    r.place? id = none ↔ id ∉ entries.map (·.1) := by
  rw [h.place, List.findIdx?_eq_none_iff]
  simp only [decide_eq_false_iff_not, List.mem_map, not_exists, not_and]

/-- Putting an item in under a new id adds an entry. -/
lemma Holds.push (h : r.Holds entries) {id : String} (hid : id ∉ entries.map (·.1)) (item : α) :
    (r.push id item).Holds (entries ++ [(id, item)]) := by
  refine ⟨by simp [Register.push, h.items], fun k => ?_⟩
  have hlen : r.items.length = entries.length := by rw [h.items, List.length_map]
  rw [List.findIdx?_append, ← h.place k]
  simp only [Register.push, place?, Dict.lookup_insert]
  by_cases hk : k = id
  · have hnone : r.places.lookup k = none := (h.place?_eq_none_iff k).mpr (hk ▸ hid)
    subst hk
    simp [hnone, hlen]
  · simp [hk, Ne.symm hk]

/-- The place of an id, where no two entries have the same id. -/
lemma findIdx?_eq_some_iff {id : String} {place : ℕ} (hnodup : (entries.map (·.1)).Nodup) :
    entries.findIdx? (fun e => e.1 = id) = some place
      ↔ ∃ item, entries[place]? = some (id, item) := by
  rw [List.findIdx?_eq_some_iff_getElem]
  constructor
  · rintro ⟨hlt, hid, -⟩
    obtain rfl := of_decide_eq_true hid
    exact ⟨entries[place].2, List.getElem?_eq_getElem hlt⟩
  · rintro ⟨item, hitem⟩
    obtain ⟨hlt, heq⟩ := List.getElem?_eq_some_iff.mp hitem
    refine ⟨hlt, by simp [heq], fun before hbefore hid => ?_⟩
    -- an earlier entry of the same id would stand at the same place
    have hsame : (entries.map (·.1))[before]? = (entries.map (·.1))[place]? := by
      have hfirst := List.getElem?_eq_getElem (Nat.lt_trans hbefore hlt)
      rw [List.getElem?_map, List.getElem?_map, hfirst, hitem, Option.map_some, Option.map_some,
        of_decide_eq_true hid]
    have hlength : before < (entries.map (·.1)).length := by
      rw [List.length_map]
      omega
    have hplace := (List.getElem?_inj hlength hnodup).mp hsame
    omega

/-- A register holds one list of entries with distinct ids. -/
lemma Holds.unique {others : List (String × α)} (h : r.Holds entries) (h' : r.Holds others)
    (hnodup : (entries.map (·.1)).Nodup) (hnodup' : (others.map (·.1)).Nodup) :
    entries = others := by
  have hitems : entries.map (·.2) = others.map (·.2) := h.items.symm.trans h'.items
  have hlength : entries.length = others.length := by simpa using congrArg List.length hitems
  refine List.ext_getElem hlength fun place hlt hlt' => ?_
  have hfirst : r.place? entries[place].1 = some place :=
    (h.place _).trans
      ((findIdx?_eq_some_iff hnodup).mpr ⟨entries[place].2, List.getElem?_eq_getElem hlt⟩)
  obtain ⟨item, hitem⟩ := (findIdx?_eq_some_iff hnodup').mp ((h'.place _).symm.trans hfirst)
  have hother := (List.getElem?_eq_some_iff.mp hitem).2
  have hsecond : entries[place].2 = others[place].2 := by
    simpa [hlt, hlt'] using congrArg (·[place]?) hitems
  rw [Prod.ext_iff, hsecond, hother]
  exact ⟨rfl, rfl⟩

/-- The entries where the item under an id is changed. -/
def changeAt (id : String) (change : α → α) (entries : List (String × α)) : List (String × α) :=
  entries.map fun e => (e.1, if e.1 = id then change e.2 else e.2)

lemma keys_changeAt (id : String) (change : α → α) (entries : List (String × α)) :
    (changeAt id change entries).map (·.1) = entries.map (·.1) := by
  rw [changeAt, List.map_map]
  rfl

lemma changeAt_of_notMem {id : String} (change : α → α) (hid : id ∉ entries.map (·.1)) :
    changeAt id change entries = entries := by
  have hsame : ∀ e ∈ entries, (e.1, if e.1 = id then change e.2 else e.2) = e := by
    intro e he
    rw [if_neg]
    rintro rfl
    exact hid (List.mem_map_of_mem he)
  rw [changeAt, List.map_congr_left hsame, List.map_id']

lemma lookup_changeAt (id : String) (change : α → α) (entries : List (String × α)) (k : String) :
    (changeAt id change entries).lookup k
      = if k = id then (entries.lookup k).map change else entries.lookup k := by
  induction entries with
  | nil => simp [changeAt]
  | cons e rest ih =>
      rw [changeAt, List.map_cons, Dict.lookup_cons_ite, Dict.lookup_cons_ite, ← changeAt, ih]
      by_cases hk : k = e.1
      · subst hk
        by_cases he : e.1 = id <;> simp [he]
      · simp [hk]

/-- Changing the item at a place changes one entry. -/
lemma modify_findIdx? {id : String} {place : ℕ} (change : α → α)
    (hnodup : (entries.map (·.1)).Nodup)
    (hplace : entries.findIdx? (fun e => e.1 = id) = some place) :
    (entries.map (·.2)).modify place change = (changeAt id change entries).map (·.2) := by
  induction entries generalizing place with
  | nil => simp at hplace
  | cons e rest ih =>
      obtain ⟨hfirst, hrest⟩ := List.nodup_cons.mp hnodup
      by_cases he : e.1 = id
      · have hzero : place = 0 := by simpa [List.findIdx?_cons, he, eq_comm] using hplace
        have hsame : changeAt id change rest = rest := changeAt_of_notMem change (he ▸ hfirst)
        subst hzero
        rw [changeAt] at hsame ⊢
        simp [he, hsame]
      · rw [List.findIdx?_cons] at hplace
        simp only [he, decide_false, Bool.false_eq_true, if_false, Option.map_eq_some_iff] at hplace
        obtain ⟨j, hj, rfl⟩ := hplace
        have hlater := ih hrest hj
        rw [changeAt] at hlater ⊢
        simp only [List.map_cons, List.modify_succ_cons, he, if_false, hlater]

/-- Changing the item at the place of an id changes the entry of that id only. -/
lemma Holds.modifyAt (h : r.Holds entries) (hnodup : (entries.map (·.1)).Nodup) {id : String}
    {place : ℕ} (hplace : r.place? id = some place) (change : α → α) :
    (r.modifyAt place change).Holds (changeAt id change entries) := by
  have hfind : entries.findIdx? (fun e => e.1 = id) = some place := by rw [← h.place]; exact hplace
  refine ⟨?_, fun k => ?_⟩
  · simp only [Register.modifyAt, h.items]
    exact modify_findIdx? change hnodup hfind
  · rw [changeAt, List.findIdx?_map]
    exact h.place k

/-- Where there is nothing under an id, there is no entry to change. -/
lemma Holds.changeAt_eq (h : r.Holds entries) {id : String} (hplace : r.place? id = none)
    (change : α → α) : changeAt id change entries = entries :=
  changeAt_of_notMem change ((h.place?_eq_none_iff id).mp hplace)

/-- What stands under an id is what the entries have under it. -/
lemma Holds.get?_eq (h : r.Holds entries) (id : String) : r.get? id = entries.lookup id := by
  rw [get?, h.place, h.items]
  clear h
  induction entries with
  | nil => simp
  | cons e rest ih =>
      by_cases he : e.1 = id
      · simp [List.findIdx?_cons, Dict.lookup_cons_ite, he]
      · simp only [List.findIdx?_cons, he, decide_false, Bool.false_eq_true, if_false,
          Dict.lookup_cons_ite, Ne.symm he, ← ih]
        cases List.findIdx? (fun e => decide (e.1 = id)) rest <;> simp

/-- What holds of all items still holds when one of them has been changed. -/
lemma forall_mem_modifyAt {P : α → Prop} {change : α → α} (h : ∀ a ∈ r.items, P a)
    (hchange : ∀ a, P a → P (change a)) (place : ℕ) :
    ∀ a ∈ (r.modifyAt place change).items, P a := by
  intro a ha
  obtain ⟨i, hi⟩ := List.mem_iff_getElem?.mp ha
  rw [modifyAt, List.getElem?_modify] at hi
  obtain ⟨b, hb, rfl⟩ := Option.map_eq_some_iff.mp hi
  have hmem : P b := h b (List.mem_of_getElem? hb)
  split
  · exact hchange b hmem
  · exact hmem

end DomainDesign.Register
