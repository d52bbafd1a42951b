import DomainDesign.Json.Record
import DomainDesign.Tree.Node
import Mathlib.Data.List.Basic
import Mathlib.Tactic.Common

/-!
# Reading back what a record writes

A record is written as a list of fields and read from an object that has them in key order.  `Shows
fields j` says that an object shows what a value writes: it has the same under every key, where the
kind of a node may stand beside.  A record looks its fields up by key, so it can be read back from
any object that shows it.

**Fields.**  `shown` is what has been written under a key.  It is computed field by field, with
`shown_append`, `shown_field` and `shown_fieldSome`.

**Values.**  `ReadBack read write a` says that a value is read back from what writes it, when all
fields have been put in key order.  `Shows.required`, `Shows.orDefault` and `Shows.optional` read
one field of a record.
-/

namespace DomainDesign

namespace Json

/-! ## Fields -/

/-- What a value that writes an object has under a key. -/
def shown (j : Json) (key : String) : Option Json :=
  match j.sorted with
  | .obj fields => fields.lookup key
  | _ => none

/-- An object shows what a value writes.  The kind of a node may stand beside it. -/
def Shows (fields : Fields) (j : Json) : Prop :=
  ∀ key, key ≠ Node.kindKey → fields.lookup key = j.shown key

lemma sortedFields_eq (fields : Fields) :
    sortedFields fields = fields.map fun e => (e.1, e.2.sorted) := by
  induction fields with
  | nil => rfl
  | cons e rest ih => rw [sortedFields, ih, List.map_cons]

lemma sortedItems_eq (items : List Json) : sortedItems items = items.map sorted := by
  induction items with
  | nil => rfl
  | cons j rest ih => rw [sortedItems, ih, List.map_cons]

@[simp] lemma shown_append (before after : Fields) (key : String) :
    (obj (before ++ after)).shown key = ((obj after).shown key).or ((obj before).shown key) := by
  simp only [shown, sorted, sortedFields_eq, List.map_append]
  exact Dict.lookup_ofEntries_append _ _ _

@[simp] lemma shown_field (name : String) (j : Json) (key : String) :
    (obj (field name j)).shown key = if key = name then some j.sorted else none := by
  simp [shown, sorted, field, sortedFields, Dict.ofEntries, Dict.lookup_insert]

variable {α : Type} {read : Json → Option α} {write : α → Json} {fields : Fields} {j : Json}
  {key : String}

@[simp] lemma shown_fieldSome (name : String) (write : α → Json) (a : Option α) (key : String) :
    (obj (fieldSome name write a)).shown key
      = if key = name then a.map fun a => (write a).sorted else none := by
  cases a with
  | none => simp [fieldSome, shown, sorted, sortedFields, Dict.ofEntries]
  | some a => exact shown_field name (write a) key

@[simp] lemma shown_fieldList (name : String) (write : α → Json) (items : List α) (key : String) :
    (obj (fieldList name write items)).shown key
      = if key = name then if items = [] then none else some (ofList write items).sorted
        else none := by
  cases items with
  | nil => simp [fieldList, shown, sorted, sortedFields, Dict.ofEntries]
  | cons a rest => exact shown_field name (ofList write (a :: rest)) key

/-! ## Values -/

/-- A value is read back from what writes it. -/
def ReadBack (read : Json → Option α) (write : α → Json) (a : α) : Prop :=
  read (write a).sorted = some a

/-- A record is read back if it can be read from any object that shows it. -/
lemma readBack_of_shows {a : α} {written : Fields} (hwrite : write a = .obj written)
    (h : ∀ fields, Shows fields (write a) → read (.obj fields) = some a) :
    ReadBack read write a := by
  rw [ReadBack, hwrite, sorted]
  refine h _ fun key _ => ?_
  rw [hwrite]
  rfl

/-- The properties of a node show what was written, with the kind of the node beside. -/
lemma shows_insert_kind {bag : Fields} (hbag : j.sorted = .obj bag) (kind : Json) :
    Shows (Dict.insert Node.kindKey kind bag) j := by
  intro key hkey
  rw [Dict.lookup_insert, if_neg hkey, shown, hbag]

lemma readBack_str (s : String) : ReadBack str? .str s :=
  rfl

lemma readBack_bool (b : Bool) : ReadBack bool? .bool b :=
  rfl

lemma readBack_int64 (i : Int64) : ReadBack int64? ofInt64 i := by
  show int64? (.num (.int i.toInt)) = some i
  rw [int64?, if_pos ⟨i.le_toInt, i.toInt_lt⟩, Int64.ofInt_toInt]

lemma readBack_word32 (n : UInt32) : ReadBack word32? ofWord32 n := by
  have hn : (n.toNat : Int) < 2 ^ 32 := by exact_mod_cast n.toNat_lt
  show word32? (.num (.int n.toNat)) = some n
  rw [word32?, if_pos ⟨Int.natCast_nonneg _, hn⟩, Int.toNat_natCast, UInt32.ofNat_toNat]

lemma mapM_readBack {items : List α} (h : ∀ a ∈ items, ReadBack read write a) :
    (items.map fun a => (write a).sorted).mapM read = some items := by
  induction items with
  | nil => rfl
  | cons a rest ih =>
      have hfirst : read (write a).sorted = some a := h a List.mem_cons_self
      rw [List.map_cons, List.mapM_cons, hfirst, ih fun b hb => h b (List.mem_cons_of_mem _ hb)]
      rfl

lemma readBack_list {items : List α} (h : ∀ a ∈ items, ReadBack read write a) :
    ReadBack (list? read) (ofList write) items := by
  rw [ReadBack, ofList, sorted, sortedItems_eq, List.map_map]
  exact mapM_readBack h

lemma readBack_texts (texts : List String) : ReadBack (list? str?) ofTexts texts :=
  readBack_list fun s _ => readBack_str s

/-! ## Reading fields -/

namespace Shows

lemma required {a : α} (h : Shows fields j) (hkey : key ≠ Node.kindKey)
    (hshown : j.shown key = some (write a).sorted) (hread : ReadBack read write a) :
    required fields key read = some a := by
  rw [Json.required, h key hkey, hshown]
  exact hread

lemma orDefault {a : α} (h : Shows fields j) (hkey : key ≠ Node.kindKey)
    (hshown : j.shown key = some (write a).sorted) (hread : ReadBack read write a) (default : α) :
    orDefault fields key default read = some a := by
  rw [Json.orDefault, h key hkey, hshown]
  exact hread

/-- A list that is left out when it is empty is read back. -/
lemma orEmpty {items : List α} (h : Shows fields j) (hkey : key ≠ Node.kindKey)
    (hshown : j.shown key = if items = [] then none else some (ofList write items).sorted)
    (hread : ∀ a ∈ items, ReadBack read write a) :
    Json.orDefault fields key [] (list? read) = some items := by
  by_cases hempty : items = []
  · rw [Json.orDefault, h key hkey, hshown, if_pos hempty, hempty]
  · exact h.orDefault hkey (hshown.trans (if_neg hempty)) (readBack_list hread) _

/-- A field that may be missing is read back, if it is never written as null. -/
lemma optional {a : Option α} (h : Shows fields j) (hkey : key ≠ Node.kindKey)
    (hshown : j.shown key = a.map fun a => (write a).sorted) (hnull : ∀ a, (write a).sorted ≠ .null)
    (hread : ∀ b, a = some b → ReadBack read write b) : optional fields key read = some a := by
  rw [Json.optional, h key hkey, hshown]
  cases a with
  | none => rfl
  | some b =>
      have hb : read (write b).sorted = some b := hread b rfl
      rw [Option.map_some]
      split
      next heq => cases heq
      next heq => exact absurd (Option.some.inj heq) (hnull b)
      next heq => rw [← Option.some.inj heq, hb, Option.map_some]

end Shows

end Json

end DomainDesign
