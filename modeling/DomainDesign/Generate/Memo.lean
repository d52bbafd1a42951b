import DomainDesign.Error
import DomainDesign.Register

/-!
# Memos

What has been made so far, in order, each under the uuid of what it was made from.  A memo is a
register in which a uuid is used once, so its list and its places stay in step: every place in the
list is that of one uuid.  What stands under a uuid may be changed.
-/

namespace DomainDesign

/-- What has been made, under the uuids of what it was made from. -/
structure Memo (α : Type) extends Register α where
  sorted : places.Sorted
  /-- The places of the uuids are those of the list, each once. -/
  placed : (places.map (·.2)).Perm (List.range items.length)

namespace Memo

variable {α : Type}

/-- The memo without anything. -/
def empty : Memo α where
  toRegister := {}
  sorted := .nil
  placed := .refl _

instance : EmptyCollection (Memo α) :=
  ⟨empty⟩

instance : Inhabited (Memo α) :=
  ⟨empty⟩

/-- Whether something stands under a uuid. -/
def contains (m : Memo α) (uuid : String) : Bool :=
  (m.place? uuid).isSome

/-- How much has been made. -/
def size (m : Memo α) : Nat :=
  m.items.length

/-- What has been made, in order. -/
def toList (m : Memo α) : List α :=
  m.items

/-- The memo with one thing more, under a uuid that is free. -/
def add (m : Memo α) (uuid : String) (a : α) (free : ¬ m.contains uuid) : Memo α where
  toRegister := m.push uuid a
  sorted := Dict.sorted_insert uuid m.items.length m.sorted
  placed := by
    have hnone : m.places.lookup uuid = none := Option.not_isSome_iff_eq_none.mp free
    have hplaces := (Dict.perm_insert m.items.length hnone).map (·.2)
    have hrange := List.perm_append_singleton m.items.length (List.range m.items.length)
    rw [Register.push, List.length_append, List.length_singleton, List.range_succ]
    exact hplaces.trans ((m.placed.cons _).trans hrange.symm)

/-- Puts something under a uuid that is free.  The first component is its place in the order, and
the second one is the memo afterwards, also when the uuid has been used before. -/
def save (m : Memo α) (uuid : String) (a : α) : Except Error Nat × Memo α :=
  if h : m.contains uuid then (.error (.memoCollision uuid), m)
  else (.ok m.size, m.add uuid a h)

/-- Changes what stands at a place. -/
def modifyAt (m : Memo α) (place : Nat) (change : α → α) : Memo α where
  toRegister := m.toRegister.modifyAt place change
  sorted := m.sorted
  placed := by
    rw [Register.modifyAt, List.length_modify]
    exact m.placed

/-- Changes what stands under a uuid, if something does. -/
def modify (m : Memo α) (uuid : String) (change : α → α) : Memo α :=
  match m.place? uuid with
  | some place => m.modifyAt place change
  | none => m

end Memo

end DomainDesign
