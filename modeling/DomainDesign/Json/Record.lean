import DomainDesign.Json.Basic

/-!
# Records in JSON

How the library's records stand in JSON, for reading and for writing.

A record is an object of named fields, and fields it does not know are ignored.  A field is
*required*, or has a default that stands for it when it is missing, or is *optional*, in which case
null stands for a missing field.  A record that shares no level with another one may also be written
as the array of its fields in order, where trailing fields may be missing.

A *choice* is a plain name out of a list.  A *tag* is the name that says which of several shapes a
record has.  Inside a value that is held back until its tag is known, a tag may also be the position
of its name in the list; `held` says whether that is so.
-/

namespace DomainDesign.Json

/-- The fields of a record. -/
abbrev Fields := List (String × Json)

variable {α : Type}

/-! ## Reading -/

/-- The fields of a record with the given field names, which may also be written as an array. -/
def record? (names : List String) : Json → Option Fields
  | .obj fields => some fields
  | .arr items => if items.length ≤ names.length then some (names.zip items) else none
  | _ => none

/-- The fields of a record that is written as an object only. -/
def object? : Json → Option Fields
  | .obj fields => some fields
  | _ => none

/-- A field that has to be there. -/
def required (fields : Fields) (key : String) (read : Json → Option α) : Option α :=
  (fields.lookup key).bind read

/-- A field with a default. -/
def orDefault (fields : Fields) (key : String) (default : α) (read : Json → Option α) : Option α :=
  match fields.lookup key with
  | none => some default
  | some j => read j

/-- A field that may be missing or null. -/
def optional (fields : Fields) (key : String) (read : Json → Option α) : Option (Option α) :=
  match fields.lookup key with
  | none => some none
  | some .null => some none
  | some j => (read j).map some

/-- A choice by name: the name itself, or an object with the name as its only key over null. -/
def choice? (names : List (String × α)) : Json → Option α
  | .str s => names.lookup s
  | .obj [(s, .null)] => names.lookup s
  | _ => none

/-- A choice inside a shape that has been held back until its tag is known, where an empty object
does for null. -/
def heldChoice? (names : List (String × α)) : Json → Option α
  | .obj [(s, .obj [])] => names.lookup s
  | j => choice? names j

/-- A tag by name, or by position where it is held. -/
def tag? (held : Bool) (names : List (String × α)) : Json → Option α
  | .str s => names.lookup s
  | .num (.int i) => if held && 0 ≤ i then (names[i.toNat]?).map (·.2) else none
  | _ => none

/-! ## Writing -/

/-- One field. -/
def field (key : String) (j : Json) : Fields :=
  [(key, j)]

/-- A field that is left out when there is no value. -/
def fieldSome (key : String) (write : α → Json) : Option α → Fields
  | none => []
  | some a => [(key, write a)]

/-- A field that is left out when the list is empty. -/
def fieldList (key : String) (write : α → Json) : List α → Fields
  | [] => []
  | items => [(key, .arr (items.map write))]

/-- An array of values. -/
def ofList (write : α → Json) (items : List α) : Json :=
  .arr (items.map write)

/-- The name of a choice, from its list of names. -/
def nameOf [DecidableEq α] (names : List (String × α)) (a : α) : String :=
  ((names.find? fun n => n.2 = a).map (·.1)).getD ""

end DomainDesign.Json
