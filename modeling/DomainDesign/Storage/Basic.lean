import DomainDesign.Decimal.Binary64
import DomainDesign.Text.Blank

/-!
# Column types

The type of a column of a data object: a kind, and the attributes that the kind knows.  A column of
kind `reference` stands for a column of another data object.
-/

namespace DomainDesign

/-- The kinds of columns. -/
inductive StorageKind where
  | boolean
  | date
  | dateTime
  | timestamp
  | integer
  | decimal
  | long
  | double
  | float
  | string
  | text
  | longText
  | json
  | reference
deriving DecidableEq, Inhabited, Repr

/-- How many rows stand on either side of a reference. -/
inductive Cardinality where
  | oneToOne
  | oneToMany
  | manyToOne
  | manyToMany
deriving DecidableEq, Inhabited, Repr

/-- The cardinality seen from the other side. -/
def Cardinality.reversed : Cardinality → Cardinality
  | .oneToMany => .manyToOne
  | .manyToOne => .oneToMany
  | c => c

/-- A column type. -/
inductive Storage where
  | boolean (defaultValue : Option Bool)
  | date (defaultValue : Option String)
  | dateTime (defaultValue : Option String)
  | timestamp (defaultValue : Option String)
  | integer (defaultValue : Option Int64) (autoIncrement : Option Bool)
  | decimal (defaultValue : Option Binary64) (precision scale : Option UInt32)
  | long (defaultValue : Option Int64) (autoIncrement : Option Bool)
  | double (defaultValue : Option Binary64) (autoIncrement : Option Bool)
  | float (defaultValue : Option Binary64) (autoIncrement : Option Bool)
  | string (defaultValue : Option String) (length : Option UInt32)
  | text
  | longText
  | json
  | reference (target targetProperty : Option String) (cardinality : Option Cardinality)
deriving DecidableEq, Inhabited

namespace Storage

/-- The column type of a kind without any attribute. -/
def ofKind : StorageKind → Storage
  | .boolean => .boolean none
  | .date => .date none
  | .dateTime => .dateTime none
  | .timestamp => .timestamp none
  | .integer => .integer none none
  | .decimal => .decimal none none none
  | .long => .long none none
  | .double => .double none none
  | .float => .float none none
  | .string => .string none none
  | .text => .text
  | .longText => .longText
  | .json => .json
  | .reference => .reference none none none

/-- The kind of a column type. -/
def kind : Storage → StorageKind
  | .boolean .. => .boolean
  | .date .. => .date
  | .dateTime .. => .dateTime
  | .timestamp .. => .timestamp
  | .integer .. => .integer
  | .decimal .. => .decimal
  | .long .. => .long
  | .double .. => .double
  | .float .. => .float
  | .string .. => .string
  | .text => .text
  | .longText => .longText
  | .json => .json
  | .reference .. => .reference

/-- The column type of a reference to a column of another object. -/
def toColumn (target targetProperty : String) (cardinality : Option Cardinality) : Storage :=
  .reference (some target) (some targetProperty) cardinality

/-- The column type without an empty text as the default of a date. -/
def withoutEmptyDefault : Storage → Storage
  | .date d => .date (Text.nonEmpty d)
  | .dateTime d => .dateTime (Text.nonEmpty d)
  | .timestamp d => .timestamp (Text.nonEmpty d)
  | s => s

end Storage

end DomainDesign
