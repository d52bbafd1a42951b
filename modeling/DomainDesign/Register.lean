import DomainDesign.Dict

/-!
# Registers

A register is a list that is built up from the front, together with the place of each item under its
id.  What is put in stays at its place, so a place may be kept and used later; an item may be
changed at its place.
-/

namespace DomainDesign

/-- Items in the order in which they came, and their places by id. -/
structure Register (α : Type) where
  items : List α := []
  places : Dict Nat := []
deriving Inhabited

namespace Register

variable {α : Type}

/-- Puts an item at the end, under an id. -/
def push (r : Register α) (id : String) (item : α) : Register α :=
  { items := r.items ++ [item], places := Dict.insert id r.items.length r.places }

/-- The place of the item under an id. -/
def place? (r : Register α) (id : String) : Option Nat :=
  r.places.lookup id

/-- The item under an id. -/
def get? (r : Register α) (id : String) : Option α :=
  (r.place? id).bind fun place => r.items[place]?

/-- Changes the item at a place. -/
def modifyAt (r : Register α) (place : Nat) (change : α → α) : Register α :=
  { r with items := r.items.modify place change }

end Register

end DomainDesign
