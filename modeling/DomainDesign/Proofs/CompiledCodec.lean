import DomainDesign.Compiled.Document
import DomainDesign.Proofs.ModelCodec
import DomainDesign.Proofs.NumberRange

/-!
# Compiled parts are read back

Every part of a compiled document can be read back from the JSON value that writes it.

**Canonical parts.**  Metadata is read in key order, and a number that is not finite is not written
as one.  `Canonical` of a part says that all metadata in it stands in key order and that all numbers
in it are in range, and `readBack` that it is then read back.

**Untagged shapes.**  The signatures of a method are read as one signature if they can be.  Those of
overloads are written as an array of objects, and an array can only be one signature if it starts
with a text or with null: `Signatures.readBack`.

**Shared levels.**  The kind and the attributes of a column stand among its other fields.  No key is
used twice there, which is what `shown_storage_eq_none` and `DataProperty.readBack` check.
-/

namespace DomainDesign

open Json

namespace Compiled

variable {fields : Fields} {j : Json}

/-! ## Naming -/

/-- The metadata stands in key order. -/
def Naming.Canonical (n : Naming) : Prop :=
  ∀ d, n.metadata = some d → Dict.Sorted d

lemma readBack_textsToJson {d : Dict String} (hd : d.Sorted) : ReadBack texts? textsToJson d := by
  have hsorted : (textsToJson d).sorted = .obj (d.map fun e => (e.1, .str e.2)) := by
    have hkeys : Dict.Sorted (d.map fun e => (e.1, Json.str e.2)) :=
      Dict.sorted_of_keys_eq (by simp [Dict.keys]) hd
    rw [textsToJson, sorted, sortedFields_eq, List.map_map]
    exact congrArg Json.obj (Dict.ofEntries_of_sorted hkeys)
  rw [ReadBack, hsorted]
  clear hsorted hd
  induction d with
  | nil => rfl
  | cons e rest ih =>
      rw [texts?, object?, Option.bind_some] at ih ⊢
      rw [List.map_cons, List.mapM_cons, ih]
      rfl

/-- The naming fields of a compiled part are read back, where nothing else is written under their
keys. -/
lemma Naming.ofFields?_of_shows {n : Naming} (hn : n.Canonical) (h : Shows fields j)
    (hj : ∀ key ∈ ["uuid", "name", "title", "description", "meta"],
      j.shown key = (obj n.fields).shown key) :
    Naming.ofFields? fields = some n := by
  simp only [List.forall_mem_cons, List.not_mem_nil, false_implies, implies_true, and_true] at hj
  obtain ⟨huuid, hname, htitle, hdescription, hmeta⟩ := hj
  have huuid : required fields "uuid" str? = some n.uuid :=
    h.required (by decide) (by simp [huuid, Naming.fields]) (readBack_str _)
  have hname : required fields "name" str? = some n.name :=
    h.required (by decide) (by simp [hname, Naming.fields]) (readBack_str _)
  have htitle : optional fields "title" str? = some n.title :=
    h.optional (by decide) (by simp [htitle, Naming.fields]) (by simp [sorted])
      fun _ _ => readBack_str _
  have hdescription : optional fields "description" str? = some n.description :=
    h.optional (by decide) (by simp [hdescription, Naming.fields]) (by simp [sorted])
      fun _ _ => readBack_str _
  have hmeta : optional fields "meta" texts? = some n.metadata :=
    h.optional (by decide) (by simp [hmeta, Naming.fields]) (by simp [sorted, textsToJson])
      fun d hd => readBack_textsToJson (hn d hd)
  simp only [ofFields?, huuid, hname, htitle, hdescription, hmeta, Option.bind_eq_bind,
    Option.bind_some]

lemma FieldPair.readBack (p : FieldPair) : ReadBack FieldPair.ofJson? FieldPair.toJson p := by
  refine readBack_of_shows rfl fun fields h => ?_
  have hsource : required fields "sourceField" str? = some p.sourceField :=
    h.required (by decide) (by simp [toJson]) (readBack_str _)
  have htarget : required fields "targetField" str? = some p.targetField :=
    h.required (by decide) (by simp [toJson]) (readBack_str _)
  simp only [ofJson?, record?, hsource, htarget, Option.bind_eq_bind, Option.bind_some]

/-! ## Classes -/

lemma Property.readBack {p : Property} (hp : p.toNaming.Canonical) : ReadBack ofJson? toJson p := by
  refine readBack_of_shows rfl fun fields h => ?_
  have hnaming : Naming.ofFields? fields = some p.toNaming :=
    Naming.ofFields?_of_shows hp h (by simp [toJson])
  have htype : required fields "type" str? = some p.type :=
    h.required (by decide) (by simp [toJson]) (readBack_str _)
  have haccess : Json.optional fields "access" (choice? Model.Access.names) = some p.access :=
    h.optional (by decide) (by simp [toJson, Naming.fields])
      (by simp [sorted, Model.Access.toJson]) fun a _ => a.readBack
  have hoptional : Json.optional fields "optional" bool? = some p.optional :=
    h.optional (by decide) (by simp [toJson, Naming.fields]) (by simp [sorted])
      fun _ _ => readBack_bool _
  simp only [ofJson?, object?, hnaming, htype, haccess, hoptional, Option.bind_eq_bind,
    Option.bind_some]

lemma Parameter.readBack {p : Parameter} (hp : p.toNaming.Canonical) :
    ReadBack ofJson? toJson p := by
  refine readBack_of_shows rfl fun fields h => ?_
  have hnaming : Naming.ofFields? fields = some p.toNaming :=
    Naming.ofFields?_of_shows hp h (by simp [toJson])
  have htype : required fields "type" str? = some p.type :=
    h.required (by decide) (by simp [toJson]) (readBack_str _)
  simp only [ofJson?, object?, hnaming, htype, Option.bind_eq_bind, Option.bind_some]

lemma Return.readBack (r : Return) : ReadBack Return.ofJson? Return.toJson r := by
  refine readBack_of_shows rfl fun fields h => ?_
  have htype : required fields "type" str? = some r.type :=
    h.required (by decide) (by simp [toJson]) (readBack_str _)
  simp only [ofJson?, record?, htype, Option.bind_eq_bind, Option.bind_some]

namespace Signature

def Canonical (s : Signature) : Prop :=
  ∀ p ∈ s.parameters, p.toNaming.Canonical

lemma readBack {s : Signature} (hs : s.Canonical) : ReadBack ofJson? toJson s := by
  refine readBack_of_shows rfl fun fields h => ?_
  have hdescription : optional fields "description" str? = some s.description :=
    h.optional (by decide) (by simp [toJson]) (by simp [sorted]) fun _ _ => readBack_str _
  have hparameters : required fields "parameters" (list? Parameter.ofJson?) = some s.parameters :=
    h.required (by decide) (by simp [toJson])
      (readBack_list fun p hp => Parameter.readBack (hs p hp))
  have hresult : required fields "return" Return.ofJson? = some s.result :=
    h.required (by decide) (by simp [toJson]) s.result.readBack
  simp only [ofJson?, record?, hdescription, hparameters, hresult, Option.bind_eq_bind,
    Option.bind_some]

/-- An array of objects is no signature: its first item would be the description. -/
lemma ofJson?_arr {items : List Json} (h : ∀ j ∈ items, ∃ fields, j = .obj fields) :
    ofJson? (.arr items) = none := by
  cases items with
  | nil => rfl
  | cons first rest =>
      obtain ⟨fields, rfl⟩ := h first List.mem_cons_self
      rw [ofJson?, record?]
      split
      · simp [Json.optional, str?]
      · rfl

end Signature

/-- The signatures of a method are read back. -/
lemma Signatures.readBack {s : Signatures} (hs : ∀ x ∈ s.toList, x.Canonical) :
    ReadBack ofJson? toJson s := by
  cases s with
  | single s =>
      have hread : Signature.ofJson? s.toJson.sorted = some s :=
        Signature.readBack (hs s List.mem_cons_self)
      rw [ReadBack, toJson, ofJson?, hread]
  | overloads ss =>
      have hread : list? Signature.ofJson? (ofList Signature.toJson ss).sorted = some ss :=
        readBack_list fun s h => Signature.readBack (hs s h)
      have hnone : Signature.ofJson? (ofList Signature.toJson ss).sorted = none := by
        rw [ofList, sorted, sortedItems_eq]
        refine Signature.ofJson?_arr fun j hj => ?_
        simp only [List.mem_map] at hj
        obtain ⟨-, ⟨s, -, rfl⟩, rfl⟩ := hj
        exact ⟨_, by rw [Signature.toJson, sorted]⟩
      rw [ReadBack, toJson, ofJson?, hnone, hread, Option.map_some]

namespace Method

structure Canonical (m : Method) : Prop where
  naming : m.toNaming.Canonical
  signatures : ∀ s ∈ m.signatures.toList, s.Canonical

lemma readBack {m : Method} (hm : m.Canonical) : ReadBack ofJson? toJson m := by
  refine readBack_of_shows rfl fun fields h => ?_
  have hnaming : Naming.ofFields? fields = some m.toNaming :=
    Naming.ofFields?_of_shows hm.naming h (by simp [toJson])
  have haccess : optional fields "access" (choice? Model.Access.names) = some m.access :=
    h.optional (by decide) (by simp [toJson, Naming.fields])
      (by simp [sorted, Model.Access.toJson]) fun a _ => a.readBack
  have habstract : optional fields "abstract" bool? = some m.isAbstract :=
    h.optional (by decide) (by simp [toJson, Naming.fields]) (by simp [sorted])
      fun _ _ => readBack_bool _
  have hsignatures : required fields "signature" Signatures.ofJson? = some m.signatures :=
    h.required (by decide) (by simp [toJson]) (Signatures.readBack hm.signatures)
  simp only [ofJson?, object?, hnaming, haccess, habstract, hsignatures, Option.bind_eq_bind,
    Option.bind_some]

end Method

namespace ClassBody

structure Canonical (c : ClassBody) : Prop where
  naming : c.toNaming.Canonical
  properties : ∀ p ∈ c.properties, p.toNaming.Canonical
  methods : ∀ m ∈ c.methods, m.Canonical
  classProperties : ∀ p ∈ c.classProperties, p.toNaming.Canonical
  classMethods : ∀ m ∈ c.classMethods, m.Canonical

/-- The body of a compiled class is read back, where nothing else is written under its keys. -/
lemma ofFields?_of_shows {c : ClassBody} (hc : c.Canonical) (h : Shows fields j)
    (hj : ∀ key ∈ ["uuid", "name", "title", "description", "meta", "extends", "implements",
        "abstract", "properties", "methods", "classProperties", "classMethods"],
      j.shown key = (obj c.fields).shown key) :
    ofFields? fields = some c := by
  simp only [List.forall_mem_cons, List.not_mem_nil, false_implies, implies_true, and_true] at hj
  obtain ⟨huuid, hname, htitle, hdescription, hmeta, hsuper, hinterfaces, habstract, hproperties,
    hmethods, hclassProperties, hclassMethods⟩ := hj
  have hnaming : Naming.ofFields? fields = some c.toNaming :=
    Naming.ofFields?_of_shows hc.naming h
      (by simp [huuid, hname, htitle, hdescription, hmeta, ClassBody.fields])
  have hsuper : optional fields "extends" str? = some c.superclass :=
    h.optional (by decide) (by simp [hsuper, ClassBody.fields, Naming.fields]) (by simp [sorted])
      fun _ _ => readBack_str _
  have hinterfaces : optional fields "implements" (list? str?) = some c.interfaces :=
    h.optional (by decide) (by simp [hinterfaces, ClassBody.fields, Naming.fields])
      (by simp [sorted, ofTexts]) fun _ _ => readBack_texts _
  have habstract : optional fields "abstract" bool? = some c.isAbstract :=
    h.optional (by decide) (by simp [habstract, ClassBody.fields, Naming.fields]) (by simp [sorted])
      fun _ _ => readBack_bool _
  have hproperties : required fields "properties" (list? Property.ofJson?) = some c.properties :=
    h.required (by decide) (by simp [hproperties, ClassBody.fields])
      (readBack_list fun p hp => Property.readBack (hc.properties p hp))
  have hmethods : orDefault fields "methods" [] (list? Method.ofJson?) = some c.methods :=
    h.orEmpty (by decide) (by simp [hmethods, ClassBody.fields, Naming.fields])
      fun m hm => Method.readBack (hc.methods m hm)
  have hclassProperties : orDefault fields "classProperties" [] (list? Property.ofJson?)
      = some c.classProperties :=
    h.orEmpty (by decide) (by simp [hclassProperties, ClassBody.fields, Naming.fields])
      fun p hp => Property.readBack (hc.classProperties p hp)
  have hclassMethods : orDefault fields "classMethods" [] (list? Method.ofJson?)
      = some c.classMethods :=
    h.orEmpty (by decide) (by simp [hclassMethods, ClassBody.fields, Naming.fields])
      fun m hm => Method.readBack (hc.classMethods m hm)
  simp only [ofFields?, hnaming, hsuper, hinterfaces, habstract, hproperties, hmethods,
    hclassProperties, hclassMethods, Option.bind_eq_bind, Option.bind_some]

end ClassBody

namespace Entity

structure Canonical (e : Entity) : Prop where
  body : e.toClassBody.Canonical
  id : ∀ p, e.id = some p → p.toNaming.Canonical

lemma readBack {e : Entity} (he : e.Canonical) : ReadBack ofJson? toJson e := by
  refine readBack_of_shows rfl fun fields h => ?_
  have hbody : ClassBody.ofFields? fields = some e.toClassBody :=
    ClassBody.ofFields?_of_shows he.body h (by simp [toJson])
  have hid : optional fields "id" Property.ofJson? = some e.id :=
    h.optional (by decide) (by simp [toJson, ClassBody.fields, Naming.fields])
      (by simp [sorted, Property.toJson]) fun p hp => Property.readBack (he.id p hp)
  have hroot : optional fields "isAggregationRoot" bool? = some e.isAggregationRoot :=
    h.optional (by decide) (by simp [toJson, ClassBody.fields, Naming.fields]) (by simp [sorted])
      fun _ _ => readBack_bool _
  simp only [ofJson?, object?, hbody, hid, hroot, Option.bind_eq_bind, Option.bind_some]

end Entity

lemma ValueObject.readBack {v : ValueObject} (hv : v.toClassBody.Canonical) :
    ReadBack ofJson? toJson v := by
  refine readBack_of_shows rfl fun fields h => ?_
  simp only [ofJson?, object?, Option.bind_some, Option.map_some,
    ClassBody.ofFields?_of_shows hv h fun _ _ => rfl]

lemma Dto.readBack {d : Dto} (hd : d.toClassBody.Canonical) : ReadBack ofJson? toJson d := by
  refine readBack_of_shows rfl fun fields h => ?_
  simp only [ofJson?, object?, Option.bind_some, Option.map_some,
    ClassBody.ofFields?_of_shows hd h fun _ _ => rfl]

/-! ## Enumerations, commands and queries -/

/-- A code that is a number is one in range. -/
def CodeInRange (c : Model.EnumCode) : Prop :=
  ∀ n, c = .number n → n.InRange

namespace EnumMember

structure Canonical (m : EnumMember) : Prop where
  naming : m.toNaming.Canonical
  code : CodeInRange m.code

lemma readBack {m : EnumMember} (hm : m.Canonical) : ReadBack ofJson? toJson m := by
  refine readBack_of_shows rfl fun fields h => ?_
  have hnaming : Naming.ofFields? fields = some m.toNaming :=
    Naming.ofFields?_of_shows hm.naming h (by simp [toJson])
  have hcode : required fields "code" Model.EnumCode.ofJson? = some m.code :=
    h.required (by decide) (by simp [toJson]) m.code.readBack
  simp only [ofJson?, object?, hnaming, hcode, Option.bind_eq_bind, Option.bind_some]

end EnumMember

namespace Enumeration

structure Canonical (e : Enumeration) : Prop where
  naming : e.toNaming.Canonical
  members : ∀ m ∈ e.members, m.Canonical

lemma readBack {e : Enumeration} (he : e.Canonical) : ReadBack ofJson? toJson e := by
  refine readBack_of_shows rfl fun fields h => ?_
  have hnaming : Naming.ofFields? fields = some e.toNaming :=
    Naming.ofFields?_of_shows he.naming h (by simp [toJson])
  have hbase : required fields "baseType" (choice? Model.EnumBase.names) = some e.base :=
    h.required (by decide) (by simp [toJson]) e.base.readBack
  have hmembers : required fields "members" (list? EnumMember.ofJson?) = some e.members :=
    h.required (by decide) (by simp [toJson])
      (readBack_list fun m hm => EnumMember.readBack (he.members m hm))
  simp only [ofJson?, object?, hnaming, hbase, hmembers, Option.bind_eq_bind, Option.bind_some]

end Enumeration

lemma Trigger.readBack (t : Trigger) : ReadBack Trigger.ofJson? Trigger.toJson t := by
  cases t <;>
    simp [ReadBack, Trigger.toJson, Trigger.ofJson?, field, sorted, sortedFields, Dict.ofEntries,
      required, tag?, Trigger.Kind.names, ofFields?, str?, Dict.lookup_cons_ite]

lemma Rule.readBack {r : Rule} (hr : r.toNaming.Canonical) : ReadBack ofJson? toJson r := by
  refine readBack_of_shows rfl fun fields h => ?_
  simp only [ofJson?, object?, Option.bind_some, Option.map_some,
    Naming.ofFields?_of_shows hr h fun _ _ => rfl]

namespace Event

structure Canonical (e : Event) : Prop where
  naming : e.toNaming.Canonical
  properties : ∀ p ∈ e.properties, p.toNaming.Canonical

lemma readBack {e : Event} (he : e.Canonical) : ReadBack ofJson? toJson e := by
  refine readBack_of_shows rfl fun fields h => ?_
  have hnaming : Naming.ofFields? fields = some e.toNaming :=
    Naming.ofFields?_of_shows he.naming h (by simp [toJson])
  have hproperties : required fields "properties" (list? Property.ofJson?) = some e.properties :=
    h.required (by decide) (by simp [toJson])
      (readBack_list fun p hp => Property.readBack (he.properties p hp))
  simp only [ofJson?, object?, hnaming, hproperties, Option.bind_eq_bind, Option.bind_some]

end Event

namespace Command

structure Canonical (c : Command) : Prop where
  naming : c.toNaming.Canonical
  properties : ∀ p ∈ c.properties, p.toNaming.Canonical
  event : c.event.Canonical
  rules : ∀ r ∈ c.rules, r.toNaming.Canonical

lemma readBack {c : Command} (hc : c.Canonical) : ReadBack ofJson? toJson c := by
  refine readBack_of_shows rfl fun fields h => ?_
  have hnaming : Naming.ofFields? fields = some c.toNaming :=
    Naming.ofFields?_of_shows hc.naming h (by simp [toJson])
  have hsource : required fields "source" (list? Trigger.ofJson?) = some c.source :=
    h.required (by decide) (by simp [toJson]) (readBack_list fun t _ => t.readBack)
  have hrepository : required fields "repository" (choice? Model.Repository.names)
      = some c.repository :=
    h.required (by decide) (by simp [toJson]) c.repository.readBack
  have hsendable : required fields "eventSendable" bool? = some c.eventSendable :=
    h.required (by decide) (by simp [toJson]) (readBack_bool _)
  have hproperties : required fields "properties" (list? Property.ofJson?) = some c.properties :=
    h.required (by decide) (by simp [toJson])
      (readBack_list fun p hp => Property.readBack (hc.properties p hp))
  have hevent : required fields "event" Event.ofJson? = some c.event :=
    h.required (by decide) (by simp [toJson]) (Event.readBack hc.event)
  have hrules : required fields "rules" (list? Rule.ofJson?) = some c.rules :=
    h.required (by decide) (by simp [toJson])
      (readBack_list fun r hr => Rule.readBack (hc.rules r hr))
  have hresult : required fields "return" Return.ofJson? = some c.result :=
    h.required (by decide) (by simp [toJson]) c.result.readBack
  simp only [ofJson?, object?, hnaming, hsource, hrepository, hsendable, hproperties, hevent,
    hrules, hresult, Option.bind_eq_bind, Option.bind_some]

end Command

namespace Query

structure Canonical (q : Query) : Prop where
  naming : q.toNaming.Canonical
  rules : ∀ r ∈ q.rules, r.toNaming.Canonical
  properties : ∀ p ∈ q.properties, p.toNaming.Canonical

lemma readBack {q : Query} (hq : q.Canonical) : ReadBack ofJson? toJson q := by
  refine readBack_of_shows rfl fun fields h => ?_
  have hnaming : Naming.ofFields? fields = some q.toNaming :=
    Naming.ofFields?_of_shows hq.naming h (by simp [toJson])
  have hsource : required fields "source" (list? Trigger.ofJson?) = some q.source :=
    h.required (by decide) (by simp [toJson]) (readBack_list fun t _ => t.readBack)
  have hrules : required fields "rules" (list? Rule.ofJson?) = some q.rules :=
    h.required (by decide) (by simp [toJson])
      (readBack_list fun r hr => Rule.readBack (hq.rules r hr))
  have hpagination : required fields "pagination" bool? = some q.pagination :=
    h.required (by decide) (by simp [toJson]) (readBack_bool _)
  have hproperties : required fields "properties" (list? Property.ofJson?) = some q.properties :=
    h.required (by decide) (by simp [toJson])
      (readBack_list fun p hp => Property.readBack (hq.properties p hp))
  have hresult : required fields "return" Return.ofJson? = some q.result :=
    h.required (by decide) (by simp [toJson]) q.result.readBack
  simp only [ofJson?, object?, hnaming, hsource, hrules, hpagination, hproperties, hresult,
    Option.bind_eq_bind, Option.bind_some]

end Query

/-! ## Data objects -/

/-- A column type writes nothing beside its kind and its attributes. -/
lemma shown_storage_eq_none (s : Storage) {key : String}
    (hkey : key ∉ ["type", "defaultValue", "autoIncrement", "precision", "scale", "length",
      "target", "targetProperty", "cardinality"]) :
    (obj s.fields).shown key = none := by
  simp only [List.mem_cons, List.not_mem_nil, or_false, not_or] at hkey
  cases s <;> simp [Storage.fields, Storage.attributeFields, hkey]

namespace DataProperty

structure Canonical (p : DataProperty) : Prop where
  naming : p.toNaming.Canonical
  storage : p.storage.Finite

lemma readBack {p : DataProperty} (hp : p.Canonical) : ReadBack ofJson? toJson p := by
  refine readBack_of_shows rfl fun fields h => ?_
  have hnaming : Naming.ofFields? fields = some p.toNaming :=
    Naming.ofFields?_of_shows hp.naming h (by simp [toJson, shown_storage_eq_none])
  have hpropertyName : optional fields "propertyName" str? = some p.propertyName :=
    h.optional (by decide) (by simp [toJson, Naming.fields, shown_storage_eq_none])
      (by simp [sorted]) fun _ _ => readBack_str _
  have hstorage : Storage.ofFields? true fields = some p.storage :=
    Storage.ofFields?_of_shows true hp.storage h (by simp [toJson, Naming.fields])
  have hnotNull : optional fields "notNull" bool? = some p.notNull :=
    h.optional (by decide) (by simp [toJson, Naming.fields, shown_storage_eq_none])
      (by simp [sorted]) fun _ _ => readBack_bool _
  have hprimaryKey : optional fields "primaryKey" bool? = some p.primaryKey :=
    h.optional (by decide) (by simp [toJson, Naming.fields, shown_storage_eq_none])
      (by simp [sorted]) fun _ _ => readBack_bool _
  simp only [ofJson?, object?, hnaming, hpropertyName, hstorage, hnotNull, hprimaryKey,
    Option.bind_eq_bind, Option.bind_some]

end DataProperty

lemma DataIndex.readBack {i : DataIndex} (hi : i.toNaming.Canonical) :
    ReadBack ofJson? toJson i := by
  refine readBack_of_shows rfl fun fields h => ?_
  have hnaming : Naming.ofFields? fields = some i.toNaming :=
    Naming.ofFields?_of_shows hi h (by simp [toJson])
  have hkind : required fields "type" (choice? Model.IndexKind.names) = some i.kind :=
    h.required (by decide) (by simp [toJson]) i.kind.readBack
  have hmethod : optional fields "method" (choice? Model.IndexMethod.names) = some i.method :=
    h.optional (by decide) (by simp [toJson, Naming.fields])
      (by simp [sorted, Model.IndexMethod.toJson]) fun m _ => m.readBack
  have hproperties : required fields "properties" (list? str?) = some i.properties :=
    h.required (by decide) (by simp [toJson]) (readBack_texts _)
  simp only [ofJson?, object?, hnaming, hkind, hmethod, hproperties, Option.bind_eq_bind,
    Option.bind_some]

namespace DataObject

structure Canonical (d : DataObject) : Prop where
  naming : d.toNaming.Canonical
  properties : ∀ p ∈ d.properties, p.Canonical
  indexes : ∀ i ∈ d.indexes, i.toNaming.Canonical

lemma readBack {d : DataObject} (hd : d.Canonical) : ReadBack ofJson? toJson d := by
  refine readBack_of_shows rfl fun fields h => ?_
  have hnaming : Naming.ofFields? fields = some d.toNaming :=
    Naming.ofFields?_of_shows hd.naming h (by simp [toJson])
  have htableName : optional fields "tableName" str? = some d.tableName :=
    h.optional (by decide) (by simp [toJson, Naming.fields]) (by simp [sorted])
      fun _ _ => readBack_str _
  have hproperties : required fields "properties" (list? DataProperty.ofJson?)
      = some d.properties :=
    h.required (by decide) (by simp [toJson])
      (readBack_list fun p hp => DataProperty.readBack (hd.properties p hp))
  have hindexes : required fields "indexes" (list? DataIndex.ofJson?) = some d.indexes :=
    h.required (by decide) (by simp [toJson])
      (readBack_list fun i hi => DataIndex.readBack (hd.indexes i hi))
  simp only [ofJson?, object?, hnaming, htableName, hproperties, hindexes, Option.bind_eq_bind,
    Option.bind_some]

end DataObject

lemma readBack_cardinality (c : Cardinality) :
    ReadBack (choice? Cardinality.names) (fun c => .str c.name) c := by
  cases c <;> rfl

lemma ReferenceTarget.readBack (t : ReferenceTarget) :
    ReadBack ReferenceTarget.ofJson? ReferenceTarget.toJson t := by
  refine readBack_of_shows rfl fun fields h => ?_
  have htarget : required fields "target" str? = some t.target :=
    h.required (by decide) (by simp [toJson]) (readBack_str _)
  have hcardinality : optional fields "cardinality" (choice? Cardinality.names)
      = some t.cardinality :=
    h.optional (by decide) (by simp [toJson]) (by simp [sorted]) fun c _ => readBack_cardinality c
  have hpairs : required fields "mapper" (list? FieldPair.ofJson?) = some t.pairs :=
    h.required (by decide) (by simp [toJson]) (readBack_list fun p _ => p.readBack)
  simp only [ofJson?, record?, htarget, hcardinality, hpairs, Option.bind_eq_bind,
    Option.bind_some]

lemma DataReference.readBack (r : DataReference) :
    ReadBack DataReference.ofJson? DataReference.toJson r := by
  refine readBack_of_shows rfl fun fields h => ?_
  have hsource : required fields "source" str? = some r.source :=
    h.required (by decide) (by simp [toJson]) (readBack_str _)
  have htargets : required fields "targets" (list? ReferenceTarget.ofJson?) = some r.targets :=
    h.required (by decide) (by simp [toJson]) (readBack_list fun t _ => t.readBack)
  simp only [ofJson?, record?, hsource, htargets, Option.bind_eq_bind, Option.bind_some]

/-! ## Mappers -/

lemma ObjectKind.readBack (k : ObjectKind) :
    ReadBack (choice? ObjectKind.names) (fun k => .str k.name) k := by
  cases k <;> rfl

lemma ObjectRef.readBack (r : ObjectRef) : ReadBack ObjectRef.ofJson? ObjectRef.toJson r := by
  refine readBack_of_shows rfl fun fields h => ?_
  have hname : required fields "name" str? = some r.name :=
    h.required (by decide) (by simp [toJson]) (readBack_str _)
  have hparent : optional fields "parent" str? = some r.parent :=
    h.optional (by decide) (by simp [toJson]) (by simp [sorted]) fun _ _ => readBack_str _
  have hkind : required fields "type" (choice? ObjectKind.names) = some r.kind :=
    h.required (by decide) (by simp [toJson]) r.kind.readBack
  simp only [ofJson?, record?, hname, hparent, hkind, Option.bind_eq_bind, Option.bind_some]

lemma MapperObject.readBack {m : MapperObject} (hm : m.toNaming.Canonical) :
    ReadBack ofJson? toJson m := by
  refine readBack_of_shows rfl fun fields h => ?_
  have hnaming : Naming.ofFields? fields = some m.toNaming :=
    Naming.ofFields?_of_shows hm h (by simp [toJson])
  have hsource : required fields "source" ObjectRef.ofJson? = some m.source :=
    h.required (by decide) (by simp [toJson]) m.source.readBack
  have htarget : required fields "target" ObjectRef.ofJson? = some m.target :=
    h.required (by decide) (by simp [toJson]) m.target.readBack
  have hpairs : required fields "mapper" (list? FieldPair.ofJson?) = some m.pairs :=
    h.required (by decide) (by simp [toJson]) (readBack_list fun p _ => p.readBack)
  simp only [ofJson?, object?, hnaming, hsource, htarget, hpairs, Option.bind_eq_bind,
    Option.bind_some]

/-! ## Documents -/

namespace Aggregate

structure Canonical (a : Aggregate) : Prop where
  naming : a.toNaming.Canonical
  root : ∀ e, a.root = some e → e.Canonical
  entities : ∀ e ∈ a.entities, e.Canonical
  valueObjects : ∀ v ∈ a.valueObjects, v.toClassBody.Canonical
  enums : ∀ e ∈ a.enums, e.Canonical
  commands : ∀ c ∈ a.commands, c.Canonical

lemma readBack {a : Aggregate} (ha : a.Canonical) : ReadBack ofJson? toJson a := by
  refine readBack_of_shows rfl fun fields h => ?_
  have hnaming : Naming.ofFields? fields = some a.toNaming :=
    Naming.ofFields?_of_shows ha.naming h (by simp [toJson])
  have hroot : optional fields "root" Entity.ofJson? = some a.root :=
    h.optional (by decide) (by simp [toJson, Naming.fields]) (by simp [sorted, Entity.toJson])
      fun e he => Entity.readBack (ha.root e he)
  have hentities : required fields "entities" (list? Entity.ofJson?) = some a.entities :=
    h.required (by decide) (by simp [toJson])
      (readBack_list fun e he => Entity.readBack (ha.entities e he))
  have hvalueObjects : required fields "valueObjects" (list? ValueObject.ofJson?)
      = some a.valueObjects :=
    h.required (by decide) (by simp [toJson])
      (readBack_list fun v hv => ValueObject.readBack (ha.valueObjects v hv))
  have henums : required fields "enums" (list? Enumeration.ofJson?) = some a.enums :=
    h.required (by decide) (by simp [toJson])
      (readBack_list fun e he => Enumeration.readBack (ha.enums e he))
  have hcommands : required fields "commands" (list? Command.ofJson?) = some a.commands :=
    h.required (by decide) (by simp [toJson])
      (readBack_list fun c hc => Command.readBack (ha.commands c hc))
  simp only [ofJson?, object?, hnaming, hroot, hentities, hvalueObjects, henums, hcommands,
    Option.bind_eq_bind, Option.bind_some]

end Aggregate

namespace BusinessDomain

structure Canonical (b : BusinessDomain) : Prop where
  aggregates : ∀ a ∈ b.domainModel.aggregates, a.Canonical
  queries : ∀ q ∈ b.queryModel.queries, q.Canonical
  dtos : ∀ d ∈ b.queryModel.dtos, d.toClassBody.Canonical
  dataObjects : ∀ d ∈ b.dataModel.dataObjects, d.Canonical
  mappers : ∀ o, b.objectMapper = some o → ∀ m ∈ o.mappers, m.toNaming.Canonical

lemma readBack_domainModel {m : DomainModel} (hm : ∀ a ∈ m.aggregates, a.Canonical) :
    ReadBack DomainModel.ofJson? DomainModel.toJson m := by
  refine readBack_of_shows rfl fun fields h => ?_
  have haggregates : required fields "aggregates" (list? Aggregate.ofJson?) = some m.aggregates :=
    h.required (by decide) (by simp [DomainModel.toJson])
      (readBack_list fun a ha => Aggregate.readBack (hm a ha))
  simp only [DomainModel.ofJson?, record?, haggregates, Option.bind_eq_bind, Option.bind_some]

lemma readBack_queryModel {m : QueryModel} (hqueries : ∀ q ∈ m.queries, q.Canonical)
    (hdtos : ∀ d ∈ m.dtos, d.toClassBody.Canonical) :
    ReadBack QueryModel.ofJson? QueryModel.toJson m := by
  refine readBack_of_shows rfl fun fields h => ?_
  have hqueries : required fields "queries" (list? Query.ofJson?) = some m.queries :=
    h.required (by decide) (by simp [QueryModel.toJson])
      (readBack_list fun q hq => Query.readBack (hqueries q hq))
  have hdtos : required fields "dtos" (list? Dto.ofJson?) = some m.dtos :=
    h.required (by decide) (by simp [QueryModel.toJson])
      (readBack_list fun d hd => Dto.readBack (hdtos d hd))
  simp only [QueryModel.ofJson?, record?, hqueries, hdtos, Option.bind_eq_bind, Option.bind_some]

lemma readBack_dataModel {m : DataModel} (hm : ∀ d ∈ m.dataObjects, d.Canonical) :
    ReadBack DataModel.ofJson? DataModel.toJson m := by
  refine readBack_of_shows rfl fun fields h => ?_
  have hobjects : required fields "dataObjects" (list? DataObject.ofJson?) = some m.dataObjects :=
    h.required (by decide) (by simp [DataModel.toJson])
      (readBack_list fun d hd => DataObject.readBack (hm d hd))
  have hreferences : required fields "references" (list? DataReference.ofJson?)
      = some m.references :=
    h.required (by decide) (by simp [DataModel.toJson]) (readBack_list fun r _ => r.readBack)
  simp only [DataModel.ofJson?, record?, hobjects, hreferences, Option.bind_eq_bind,
    Option.bind_some]

lemma readBack_objectMapper {o : ObjectMapper} (ho : ∀ m ∈ o.mappers, m.toNaming.Canonical) :
    ReadBack ObjectMapper.ofJson? ObjectMapper.toJson o := by
  refine readBack_of_shows rfl fun fields h => ?_
  have hmappers : required fields "mappers" (list? MapperObject.ofJson?) = some o.mappers :=
    h.required (by decide) (by simp [ObjectMapper.toJson])
      (readBack_list fun m hm => MapperObject.readBack (ho m hm))
  simp only [ObjectMapper.ofJson?, record?, hmappers, Option.bind_eq_bind, Option.bind_some]

/-- **A compiled document is read back** from the value that writes it. -/
lemma readBack {b : BusinessDomain} (hb : b.Canonical) : ReadBack ofJson? toJson b := by
  refine readBack_of_shows rfl fun fields h => ?_
  have hdomain : required fields "domainModel" DomainModel.ofJson? = some b.domainModel :=
    h.required (by decide) (by simp [toJson]) (readBack_domainModel hb.aggregates)
  have hquery : required fields "queryModel" QueryModel.ofJson? = some b.queryModel :=
    h.required (by decide) (by simp [toJson]) (readBack_queryModel hb.queries hb.dtos)
  have hdata : required fields "dataModel" DataModel.ofJson? = some b.dataModel :=
    h.required (by decide) (by simp [toJson]) (readBack_dataModel hb.dataObjects)
  have hmapper : optional fields "objectMapper" ObjectMapper.ofJson? = some b.objectMapper :=
    h.optional (by decide) (by simp [toJson]) (by simp [sorted, ObjectMapper.toJson])
      fun o ho => readBack_objectMapper (hb.mappers o ho)
  have hvision : optional fields "vision" str? = some b.vision :=
    h.optional (by decide) (by simp [toJson]) (by simp [sorted]) fun _ _ => readBack_str _
  simp only [ofJson?, record?, hdomain, hquery, hdata, hmapper, hvision, Option.bind_eq_bind,
    Option.bind_some]

end BusinessDomain

end Compiled

end DomainDesign
