import DomainDesign.Proofs.Memos
import DomainDesign.TypeExpr.Basic

/-!
# A memo is written once

Things are put into a memo and changed there, in any order: while one is being changed, others are
put in behind it.  `written_once` says what a memo is after any such run.  Its list and its index go
together, a uuid is taken by the first thing that is put under it, and the changes that are meant
for others do not reach that thing.

**Calls.**  `Call.perform` is a call, and `after` is a run of calls.  What a run has done is read
off the calls alone: `saved` are the uuids under which something was put, and `changed` is a value
after the changes that are meant for it.

**Steps and runs.**  `keys_perform` says what a call does to the uuids, and `get?_perform` what it
does to a value that is there; `keys_after` and `get?_after` are the runs.
-/

namespace DomainDesign.Memo

variable {α : Type}

/-! ## Calls -/

/-- A call that changes a memo: something is put under a uuid, or what stands there is changed. -/
inductive Call (α : Type) where
  | save (uuid : String) (value : α)
  | modify (uuid : String) (change : α → α)

namespace Call

/-- The memo that a call leaves behind, also when it fails. -/
def perform (m : Memo α) : Call α → Memo α
  | .save uuid value => (m.save uuid value).2
  | .modify uuid change => m.modify uuid change

/-- The uuid under which a call puts something. -/
def saves? : Call α → Option String
  | .save uuid _ => some uuid
  | .modify _ _ => none

/-- The value under a uuid when a call has been made, if it is there before. -/
def change (uuid : String) (value : α) : Call α → α
  | .save _ _ => value
  | .modify other change => if other = uuid then change value else value

end Call

/-- The memo that calls leave behind. -/
def after (m : Memo α) (calls : List (Call α)) : Memo α :=
  calls.foldl Call.perform m

/-- The uuids under which calls put something, in order. -/
def saved (calls : List (Call α)) : List String :=
  calls.filterMap Call.saves?

/-- A value after the changes that calls make under its uuid. -/
def changed (uuid : String) (calls : List (Call α)) (value : α) : α :=
  calls.foldl (Call.change uuid) value

variable {m : Memo α} {uuid : String} {value : α}

/-! ## Uuids -/

/-- **A call puts a new uuid at the end**, and leaves the others where they are. -/
lemma keys_perform {ids : List String} (h : m.entries.map (·.1) = unique ids) (call : Call α) :
    (call.perform m).entries.map (·.1) = unique (ids ++ call.saves?.toList) := by
  cases call with
  | modify uuid change =>
      rw [Call.perform, entries_modify, Register.keys_changeAt, h, Call.saves?, Option.toList_none,
        List.append_nil]
  | save uuid value =>
      rw [Call.perform, Call.saves?, Option.toList_some, unique_concat]
      by_cases htaken : uuid ∈ ids
      · rw [if_pos htaken, save_of_taken (h ▸ mem_unique.mpr htaken), h]
      · rw [if_neg htaken, entries_save (h ▸ mt mem_unique.mp htaken), List.map_append, h,
          List.map_singleton]

/-- **The uuids of a run**, in the order in which something was first put under them. -/
lemma keys_after {ids : List String} (h : m.entries.map (·.1) = unique ids)
    (calls : List (Call α)) :
    (m.after calls).entries.map (·.1) = unique (ids ++ saved calls) := by
  induction calls generalizing m ids with
  | nil => rw [after, List.foldl_nil, saved, List.filterMap_nil, List.append_nil, h]
  | cons call rest ih =>
      have hsaved : saved (call :: rest) = call.saves?.toList ++ saved rest := by
        rw [saved, saved, List.filterMap_cons]
        cases call.saves? <;> rfl
      rw [hsaved, ← List.append_assoc]
      exact ih (keys_perform h call)

/-- The uuids of a run that starts with nothing. -/
lemma keys_start (calls : List (Call α)) :
    (({} : Memo α).after calls).entries.map (·.1) = unique (saved calls) := by
  have hstart : ({} : Memo α).entries.map (·.1) = unique [] := by
    rw [entries_empty]
    rfl
  exact keys_after hstart calls

/-! ## Values -/

/-- **A call changes what is there only if it is meant for it.**  Something that is put in goes
elsewhere. -/
lemma get?_perform (h : m.get? uuid = some value) (call : Call α) :
    (call.perform m).get? uuid = some (call.change uuid value) := by
  rw [get?_eq] at h ⊢
  cases call with
  | modify other change =>
      rw [Call.perform, entries_modify, Register.lookup_changeAt, h, Call.change, Option.map_some]
      by_cases hother : uuid = other
      · rw [if_pos hother, if_pos hother.symm]
      · rw [if_neg hother, if_neg (Ne.symm hother)]
  | save other new =>
      rw [Call.perform, Call.change]
      by_cases htaken : other ∈ m.entries.map (·.1)
      · rw [save_of_taken htaken, h]
      · rw [entries_save htaken, List.lookup_append, h, Option.some_or]

/-- **What is there goes through its own changes**, and through nothing else. -/
lemma get?_after (h : m.get? uuid = some value) (calls : List (Call α)) :
    (m.after calls).get? uuid = some (changed uuid calls value) := by
  induction calls generalizing m value with
  | nil => exact h
  | cons call rest ih => exact ih (get?_perform h call)

/-- A value is there when it has been put under a new uuid. -/
lemma get?_save (h : uuid ∉ m.entries.map (·.1)) (value : α) :
    (m.save uuid value).2.get? uuid = some value := by
  rw [get?_eq, entries_save h, List.lookup_append, ← get?_eq, get?_eq_none_iff.mpr h,
    Option.none_or, List.lookup_cons_self]

/-- What is listed is what is found under the uuids. -/
lemma toList_eq_get? (m : Memo α) : m.toList.map some = (m.entries.map (·.1)).map m.get? := by
  rw [toList_eq, List.map_map, List.map_map]
  exact List.map_congr_left fun e he => (get?_of_mem he).symm

/-! ## The whole -/

/-- What a memo is after calls that started with nothing, and what a further one does to it. -/
structure Remembers (m : Memo α) (calls : List (Call α)) : Prop where
  /-- The list and the index have the same number of entries. -/
  size : m.items.length = m.places.length
  inRange : ∀ uuid place, m.place? uuid = some place → place < m.items.length
  /-- Different uuids have different places. -/
  apart : ∀ uuid other place, m.place? uuid = some place → m.place? other = some place →
    uuid = other
  /-- The places are those of the uuids in the order in which something was first put under them. -/
  order : ∀ uuid place, m.place? uuid = some place ↔ (unique (saved calls))[place]? = some uuid
  /-- A uuid that has been used is refused by its name, and nothing changes. -/
  refused : ∀ uuid value,
    m.save uuid value = (.error (.memoCollision uuid), m) ↔ uuid ∈ saved calls
  /-- Any other uuid is taken, and its place is the one behind the others. -/
  accepted : ∀ uuid value, uuid ∉ saved calls → (m.save uuid value).1 = .ok m.items.length
  /-- Under a uuid there is the first value that was put there, after all later changes to it. -/
  found : ∀ before uuid value later, calls = before ++ .save uuid value :: later →
    uuid ∉ saved before → m.get? uuid = some (changed uuid later value)
  absent : ∀ uuid, uuid ∉ saved calls → m.get? uuid = none
  listed : m.toList.map some = (unique (saved calls)).map m.get?

/-- **A memo is written once**, over any run of calls: a uuid keeps its place and what was first put
under it, and only the changes that are meant for it reach it. -/
theorem written_once (calls : List (Call α)) : (({} : Memo α).after calls).Remembers calls := by
  have hkeys := keys_start calls
  generalize hm : ({} : Memo α).after calls = m at hkeys ⊢
  have horder : ∀ uuid place,
      m.place? uuid = some place ↔ (unique (saved calls))[place]? = some uuid := by
    intro uuid place
    rw [← hkeys, keys_entries, getElem?_inOrder]
  have hlength : (unique (saved calls)).length = m.items.length := by
    rw [← hkeys, keys_entries, length_inOrder]
  refine
    { size := ?size
      inRange := fun uuid place hplace => ?inRange
      apart := fun uuid other place hplace hother => ?apart
      order := horder
      refused := fun uuid value => ?refused
      accepted := fun uuid value hfree => ?accepted
      found := fun before uuid value later hcalls hfirst => ?found
      absent := fun uuid hfree => ?absent
      listed := ?listed }
  case size => simpa using m.placed.length_eq.symm
  case inRange =>
    obtain ⟨hlt, -⟩ := List.getElem?_eq_some_iff.mp ((horder uuid place).mp hplace)
    rwa [hlength] at hlt
  case apart =>
    have hsame := ((horder uuid place).mp hplace).symm.trans ((horder other place).mp hother)
    exact Option.some.inj hsame
  case refused =>
    constructor
    · intro hsave
      by_contra hfree
      rw [save_of_free (hkeys ▸ mt mem_unique.mp hfree)] at hsave
      cases congrArg Prod.fst hsave
    · intro htaken
      exact save_of_taken (hkeys ▸ mem_unique.mpr htaken) value
  case accepted =>
    rw [save_of_free (hkeys ▸ mt mem_unique.mp hfree)]
    rfl
  case found =>
    -- the run up to the call, the call, and the run behind it
    have hnew : uuid ∉ (({} : Memo α).after before).entries.map (·.1) := by
      rw [keys_start]
      exact mt mem_unique.mp hfirst
    have hrun : m = ((({} : Memo α).after before).save uuid value).2.after later := by
      rw [← hm, hcalls, after, List.foldl_append]
      rfl
    rw [hrun]
    exact get?_after (get?_save hnew value) later
  case absent => exact get?_eq_none_iff.mpr (hkeys ▸ mt mem_unique.mp hfree)
  case listed => rw [toList_eq_get?, hkeys]

example :
    (({} : Memo (List ℕ)).after [.save "b" [1], .save "a" [2], .modify "b" (3 :: ·), .save "b" [4],
      .modify "c" (5 :: ·), .modify "b" (6 :: ·)]).toList = [[6, 3, 1], [2]] := by
  decide

end DomainDesign.Memo
