import DomainDesign.Json.Number

/-!
# Document text before it is interpreted

An `Outline` is what a reader of JSON or YAML text sees first: leaves, lists and tables, with the
fields of a table in written order and repeated keys still there.  What a leaf means depends on who
asks for it (`5` in YAML is a number, and also the string `5` where a string is wanted), so a leaf
carries every reading it admits.

Records read straight from text, the settings and the raw nodes of a tree, look at an outline: they
refuse a field that is given twice, and never look at what stands under a field they do not know.
Everything else goes through `Outline.toJson?`, where the last of repeated keys wins and where a
leaf without a value, or lists and tables nested too deep, are refused.
-/

namespace DomainDesign

/-- The readings of one leaf. -/
structure Leaf where
  /-- As a JSON value. -/
  value? : Option Json
  /-- As a string. -/
  text? : Option String := none
  /-- As a truth value. -/
  flag? : Option Bool := none
  /-- As a number. -/
  float? : Option Binary64 := none
  /-- Whether it stands for an optional value that is not there. -/
  absent : Bool := false
  /-- Whether it stands for a table without fields. -/
  blank : Bool := false

/-- Document text as leaves, lists and tables. -/
inductive Outline where
  | leaf (readings : Leaf)
  /-- A list; `positional` says whether a record may be written as the list of its fields. -/
  | list (positional : Bool) (items : List Outline)
  /-- A table; a key that is no string is `none`. -/
  | table (fields : List (Option String × Outline))

namespace Outline

/-! ## As a JSON value -/

mutual

/-- The JSON value of an outline with at most `depth` lists and tables inside one another. -/
def toJson? : (depth : Nat) → Outline → Option Json
  | _, .leaf l => l.value?
  | 0, .list _ _ => none
  | depth + 1, .list _ items => (itemsToJson? depth items).map .arr
  | 0, .table _ => none
  | depth + 1, .table fields => (fieldsToJson? depth fields).map fun fs => .obj (Dict.ofEntries fs)

/-- The JSON values of the items. -/
def itemsToJson? : (depth : Nat) → List Outline → Option (List Json)
  | _, [] => some []
  | depth, o :: rest => do
    let j ← toJson? depth o
    let js ← itemsToJson? depth rest
    some (j :: js)

/-- The JSON values of the fields. -/
def fieldsToJson? : (depth : Nat) → List (Option String × Outline) → Option (List (String × Json))
  | _, [] => some []
  | _, (none, _) :: _ => none
  | depth, (some k, o) :: rest => do
    let j ← toJson? depth o
    let js ← fieldsToJson? depth rest
    some ((k, j) :: js)

end

/-! ## As a record -/

/-- The fields of a record with the given field names: those of a table, each known one given at
most once, or a positional list of values in the order of the names.  Fields with other names are
left out. -/
def record? (names : List String) : Outline → Option (Dict Outline)
  | .leaf l => if l.blank then some [] else none
  | .list false _ => none
  | .list true items =>
    if items.length ≤ names.length then some (names.zip items) else none
  | .table fields =>
    if fields.any (·.1.isNone) then none
    else
      let known := fields.filterMap fun f =>
        match f.1 with
        | some k => if names.contains k then some (k, f.2) else none
        | none => none
      if (known.map (·.1)).Nodup then some known else none

/-- The outline as a string. -/
def text? : Outline → Option String
  | .leaf l => l.text?
  | _ => none

/-- The outline as a truth value. -/
def flag? : Outline → Option Bool
  | .leaf l => l.flag?
  | _ => none

/-- The outline as a number. -/
def float? : Outline → Option Binary64
  | .leaf l => l.float?
  | _ => none

/-- The outline as a string that may be left out. -/
def optionalText? : Outline → Option (Option String)
  | .leaf l => if l.absent then some none else l.text?.map some
  | _ => none

/-- The fields of a table; a blank leaf has none. -/
def table? : Outline → Option (List (Option String × Outline))
  | .table fields => some fields
  | .leaf l => if l.blank then some [] else none
  | .list .. => none

/-- The fields of a table as JSON values, with at most `depth` lists and tables inside one
another. -/
def object? (depth : Nat) (o : Outline) : Option (Dict Json) :=
  match depth with
  | 0 => none
  | depth + 1 => o.table?.bind fun fields => (fieldsToJson? depth fields).map Dict.ofEntries

/-- The field under a key, read by `read`, or the default when there is none. -/
def fieldOr {α : Type} (fields : Dict Outline) (key : String) (read : Outline → Option α)
    (default : α) : Option α :=
  match fields.lookup key with
  | none => some default
  | some o => read o

end Outline

end DomainDesign
