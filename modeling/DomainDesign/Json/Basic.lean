import DomainDesign.Decimal.Binary64
import DomainDesign.Dict

/-!
# JSON values

A JSON value keeps whole numbers and numbers with a fraction apart: `1` and `1.0` are different
values.  An object lists its fields; a value read from text has them in key order, while a value
written by an encoder has them in the order in which they are to appear.
-/

namespace DomainDesign

/-- A number of a JSON value. -/
inductive Json.Number where
  | int (value : Int)
  | float (value : Binary64)
deriving DecidableEq, Inhabited, Repr

/-- A JSON value. -/
inductive Json where
  | null
  | bool (value : Bool)
  | num (value : Json.Number)
  | str (value : String)
  | arr (items : List Json)
  | obj (fields : List (String × Json))
deriving Inhabited

namespace Json

/-! ## Equality -/

mutual

/-- Whether two values are the same. -/
def same : Json → Json → Bool
  | .null, .null => true
  | .bool a, .bool b => a == b
  | .num a, .num b => a == b
  | .str a, .str b => a == b
  | .arr a, .arr b => sameItems a b
  | .obj a, .obj b => sameFields a b
  | _, _ => false

/-- Whether two lists of values are the same. -/
def sameItems : List Json → List Json → Bool
  | [], [] => true
  | a :: as, b :: bs => same a b && sameItems as bs
  | _, _ => false

/-- Whether two lists of fields are the same. -/
def sameFields : List (String × Json) → List (String × Json) → Bool
  | [], [] => true
  | (k, a) :: as, (l, b) :: bs => k == l && same a b && sameFields as bs
  | _, _ => false

end

mutual

theorem same_iff : (a b : Json) → (same a b = true ↔ a = b)
  | .arr a, b => by cases b <;> simp [same, sameItems_iff a]
  | .obj a, b => by cases b <;> simp [same, sameFields_iff a]
  | .null, b => by cases b <;> simp [same]
  | .bool _, b => by cases b <;> simp [same]
  | .num _, b => by cases b <;> simp [same]
  | .str _, b => by cases b <;> simp [same]

theorem sameItems_iff : (a b : List Json) → (sameItems a b = true ↔ a = b)
  | [], b => by cases b <;> simp [sameItems]
  | a :: as, b => by cases b <;> simp [sameItems, same_iff a, sameItems_iff as]

theorem sameFields_iff : (a b : List (String × Json)) → (sameFields a b = true ↔ a = b)
  | [], b => by cases b <;> simp [sameFields]
  | (k, a) :: as, b => by
    cases b <;> simp [sameFields, same_iff a, sameFields_iff as, Prod.ext_iff]

end

instance : DecidableEq Json :=
  fun a b => decidable_of_iff _ (same_iff a b)

/-! ## Reading single values -/

/-- The text of a string value. -/
def str? : Json → Option String
  | .str s => some s
  | _ => none

/-- The truth value of a boolean. -/
def bool? : Json → Option Bool
  | .bool b => some b
  | _ => none

/-- A signed whole number of 64 bits. -/
def int64? : Json → Option Int64
  | .num (.int i) => if -2 ^ 63 ≤ i ∧ i < 2 ^ 63 then some (Int64.ofInt i) else none
  | _ => none

/-- An unsigned whole number of 32 bits. -/
def word32? : Json → Option UInt32
  | .num (.int i) => if 0 ≤ i ∧ i < 2 ^ 32 then some (UInt32.ofNat i.toNat) else none
  | _ => none

/-- A number as a double; a whole number becomes the nearest one. -/
def float? : Json → Option Binary64
  | .num (.float x) => some x
  | .num (.int i) => some (Binary64.ofInt i)
  | _ => none

/-- The items of an array, each read by `read`. -/
def list? {α : Type} (read : Json → Option α) : Json → Option (List α)
  | .arr items => items.mapM read
  | _ => none

/-! ## Writing single values -/

/-- A number with a fraction; an infinity or NaN has no JSON number and is written as null. -/
def ofFloat (x : Binary64) : Json :=
  if x.isFinite then .num (.float x) else .null

/-- A whole number. -/
def ofNat (n : Nat) : Json :=
  .num (.int n)

/-- A signed whole number of 64 bits. -/
def ofInt64 (i : Int64) : Json :=
  .num (.int i.toInt)

/-- An unsigned whole number of 32 bits. -/
def ofWord32 (n : UInt32) : Json :=
  .num (.int n.toNat)

/-- An array of texts. -/
def ofTexts (texts : List String) : Json :=
  .arr (texts.map .str)

/-- The text, or null. -/
def ofText? : Option String → Json
  | some s => .str s
  | none => .null

/-! ## Key order -/

mutual

/-- The value with the fields of every object in key order, the last one under a key winning. -/
def sorted : Json → Json
  | .arr items => .arr (sortedItems items)
  | .obj fields => .obj (Dict.ofEntries (sortedFields fields))
  | j => j

/-- Every item with its fields in key order. -/
def sortedItems : List Json → List Json
  | [] => []
  | j :: rest => sorted j :: sortedItems rest

/-- Every field's value with its own fields in key order. -/
def sortedFields : List (String × Json) → List (String × Json)
  | [] => []
  | (k, j) :: rest => (k, sorted j) :: sortedFields rest

end

end Json

end DomainDesign
