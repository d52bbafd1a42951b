import DomainDesign.Store

/-!
# From types to columns

Which kinds of columns a type may be written to, and which column a type gets where one is made for
it.

For the first question a reference counts as the type that `resolve` gives for its id, and only one
step of it: what is still a reference after that is stored like a container, as JSON.  For the
second question references are looked up, and only those to enumerations get a column.
-/

namespace DomainDesign

open StorageKind

/-- The kinds of columns that a base type may be written to, the usual one first.  Other names may
be written to none. -/
def compatibleKinds (base : String) : List StorageKind :=
  if base = "String" ∨ base = "Char" then [.string, .text, .longText]
  else if base = "Integer" ∨ base = "Short" ∨ base = "Byte" then [.integer, .long]
  else if base = "Long" then [.long]
  else if base = "Float" then [.float, .double, .decimal]
  else if base = "Double" then [.double, .decimal]
  else if base = "BigDecimal" then [.decimal]
  else if base = "Boolean" then [.boolean, .integer]
  else if base = "Date" then [.dateTime, .date, .timestamp]
  else []

/-- The usual kind of column of a base type. -/
def defaultKind (base : String) : StorageKind :=
  (compatibleKinds base).head?.getD .string

/-- Whether a type that is not resolved any further may be written to a column. -/
def fitsColumn (type : TypeExpr) (column : Storage) : Bool :=
  match type with
  | .base name => (compatibleKinds name).contains column.kind
  | _ => column.kind = .json

/-- Whether a type may be written to a column. -/
def isCompatible (resolve : String → Option TypeExpr) (type : TypeExpr) (column : Storage) : Bool :=
  match type with
  | .reference id _ =>
    match resolve id with
    | some resolved => fitsColumn resolved column
    | none => false
  | other => fitsColumn other column

/-- The columns that a type may be written to. -/
def compatibleTargets (resolve : String → Option TypeExpr) (type : TypeExpr)
    (columns : List Model.DataProperty) : List Model.DataProperty :=
  columns.filter fun p => isCompatible resolve type p.type

/-- The kind of column for the codes of an enumeration. -/
def codeKind : Model.EnumBase → StorageKind
  | .number => .integer
  | .text => .string

/-- The column that is made for a type: the usual one of a base type, and one for the codes where a
reference leads to an enumeration.  Other types get none, and without a lookup no reference gets
one. -/
def project? (find : Option Lookup) : Option TypeExpr → Option Storage
  | some (.base name) => some (.ofKind (defaultKind name))
  | some (.reference id _) => do
    let find ← find
    let entry ← find id
    match entry.object with
    | .enumeration e => some (.ofKind (codeKind e.base))
    | _ => none
  | some (.container _ _) => none
  | none => none

end DomainDesign
