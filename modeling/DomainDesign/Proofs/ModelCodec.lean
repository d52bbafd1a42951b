import DomainDesign.Model.Behaviour
import DomainDesign.Model.Data
import DomainDesign.Model.Enumeration
import DomainDesign.Model.Mapper
import DomainDesign.Proofs.RecordCodec

/-!
# Parts of a document survive their properties

Every part of a document that can be made into a node can be read back from the properties of the
node.  The lemmas `ofJson?_of_shows` say so for each kind of record, from any object that shows it,
and `readBack` says so for the records that stand inside others.

**Types.**  The parameters of a type are read in key order, so a type is read back if its parameters
stand in that order at every depth: `TypeExpr.Ordered`.  `Ordered` of a record asks it of all types
in it.

**Column types.**  An infinity or a NaN has no number in JSON, so a column type is read back if its
default is finite: `Storage.Finite`.  Its kind and its attributes may stand among other fields.
-/

namespace DomainDesign

open Json

/-! ## Types -/

namespace TypeExpr

mutual

/-- The parameters stand in key order, at every depth. -/
def Ordered : TypeExpr → Prop
  | .base _ => True
  | .container _ params => Dict.Sorted params ∧ ParamsOrdered params
  | .reference _ _ => True

/-- The types of the parameters are ordered. -/
def ParamsOrdered : List (String × Option TypeExpr) → Prop
  | [] => True
  | (_, none) :: rest => ParamsOrdered rest
  | (_, some t) :: rest => t.Ordered ∧ ParamsOrdered rest

end

/-- A type, if there is one, is ordered. -/
def Ordered? (type : Option TypeExpr) : Prop :=
  ∀ t, type = some t → t.Ordered

/-- A type is never written as null. -/
lemma sorted_toJson_ne_null (t : TypeExpr) : t.toJson.sorted ≠ .null := by
  cases t <;> simp [toJson, sorted]

lemma keys_paramFields (params : List (String × Option TypeExpr)) :
    (sortedFields (paramFields params)).map (·.1) = params.map (·.1) := by
  induction params with
  | nil => rfl
  | cons e rest ih => rcases e with ⟨key, _ | t⟩ <;> simp [paramFields, sortedFields, ih]

/-- Parameters in key order are written in key order. -/
lemma ofEntries_paramFields {params : List (String × Option TypeExpr)} (h : Dict.Sorted params) :
    Dict.ofEntries (sortedFields (paramFields params)) = sortedFields (paramFields params) :=
  Dict.ofEntries_of_sorted (Dict.sorted_of_keys_eq (keys_paramFields params) h)

lemma params?_cons (key : String) {j : Json} (h : j ≠ .null) (rest : Fields) :
    params? ((key, j) :: rest)
      = (ofJson? true j).bind fun t => (params? rest).map ((key, some t) :: ·) := by
  cases j with
  | null => exact absurd rfl h
  | _ => rfl

/-- The parameters are those under their key, wherever it stands. -/
lemma paramsField?_of_lookup {fields params : Fields}
    (h : fields.lookup "params" = some (.obj params)) : paramsField? fields = params? params := by
  induction fields with
  | nil => simp at h
  | cons e rest ih =>
      obtain ⟨key, j⟩ := e
      rw [Dict.lookup_cons_ite] at h
      by_cases hkey : key = "params"
      · rw [if_pos hkey.symm] at h
        cases h
        rw [paramsField?, if_pos hkey]
      · rw [if_neg (Ne.symm hkey)] at h
        cases j <;> rw [paramsField?, if_neg hkey, ih h] <;> simp

mutual

/-- **A type is read back** from what writes it. -/
lemma readBack (held : Bool) : (t : TypeExpr) → t.Ordered → ReadBack (ofJson? held) toJson t
  | .base name, _ => by
      simp [ReadBack, toJson, sorted, sortedFields, Dict.ofEntries, ofJson?, required, tag?,
        Shape.names, str?]
  | .reference id name, _ => by
      simp [ReadBack, toJson, sorted, sortedFields, Dict.ofEntries, ofJson?, required, orDefault,
        tag?, Shape.names, str?, Dict.lookup_cons_ite]
  | .container name params, h => by
      have hsorted : (toJson (.container name params)).sorted
          = .obj (Dict.ofEntries [("type", .str "container"), ("name", .str name),
              ("params", .obj (sortedFields (paramFields params)))]) := by
        simp only [toJson, sorted, sortedFields, ofEntries_paramFields h.1]
      have hparams : paramsField? (Dict.ofEntries [("type", .str "container"), ("name", .str name),
          ("params", .obj (sortedFields (paramFields params)))]) = some params := by
        refine (@paramsField?_of_lookup _ (sortedFields (paramFields params)) ?_).trans ?_
        · simp [Dict.ofEntries]
        · exact params?_paramFields params h.2
      rw [ReadBack, hsorted, ofJson?, hparams]
      simp [Dict.ofEntries, required, tag?, Shape.names, str?, Dict.lookup_cons_ite]

lemma params?_paramFields : (params : List (String × Option TypeExpr)) → ParamsOrdered params →
    params? (sortedFields (paramFields params)) = some params
  | [], _ => rfl
  | (key, none) :: rest, h => by
      have hrest := params?_paramFields rest h
      simp only [paramFields, sortedFields, sorted, params?, hrest, Option.map_some]
  | (key, some t) :: rest, h => by
      have hfirst : ofJson? true t.toJson.sorted = some t := readBack true t h.1
      have hrest := params?_paramFields rest h.2
      -- a type is never written as null, so the reader does not take it for a missing one
      rw [paramFields, sortedFields, params?_cons key t.sorted_toJson_ne_null, hfirst, hrest]
      rfl

end

end TypeExpr

/-! ## Column types -/

lemma StorageKind.readBack (held : Bool) (k : StorageKind) :
    ReadBack (tag? held StorageKind.names) (fun k => .str k.name) k := by
  cases k <;> rfl

lemma Cardinality.readBack (c : Cardinality) :
    ReadBack (heldChoice? Cardinality.names) (fun c => .str c.name) c := by
  cases c <;> rfl

namespace Storage

/-- The default is a finite number, where it is a number with a fraction. -/
def Finite : Storage → Prop
  | .decimal d _ _ | .double d _ | .float d _ => ∀ x, d = some x → x.isFinite = true
  | _ => True

lemma finite_ofKind (k : StorageKind) : (ofKind k).Finite := by
  cases k <;> simp [ofKind, Finite]

/-- A finite number is not written as null, so an optional one is read back. -/
lemma optional_float {fields : Fields} {j : Json} {d : Option Binary64} {key : String}
    (hd : ∀ x, d = some x → x.isFinite = true) (h : Shows fields j) (hkey : key ≠ Node.kindKey)
    (hshown : j.shown key = d.map fun x => (ofFloat x).sorted) :
    optional fields key float? = some d := by
  have hwritten : d.map (fun x => (ofFloat x).sorted) = d.map fun x => (num (.float x)).sorted := by
    cases d with
    | none => rfl
    | some x => simp [ofFloat, hd x rfl]
  exact h.optional hkey (hshown.trans hwritten) (by simp [sorted]) fun x _ => rfl

/-- A column type is read back from among other fields, where nothing else is written under its
keys. -/
lemma ofFields?_of_shows (held : Bool) {s : Storage} {fields : Fields} {j : Json} (hs : s.Finite)
    (h : Shows fields j)
    (hj : ∀ key ∈ ["type", "defaultValue", "autoIncrement", "precision", "scale", "length",
        "target", "targetProperty", "cardinality"], j.shown key = (obj s.fields).shown key) :
    ofFields? held fields = some s := by
  simp only [List.forall_mem_cons, List.not_mem_nil, false_implies, implies_true, and_true] at hj
  obtain ⟨hkind, hdefault, hincrement, hprecision, hscale, hlength, htarget, hproperty,
    hcardinality⟩ := hj
  have hkind : required fields "type" (tag? held StorageKind.names) = some s.kind :=
    h.required (by decide) (by cases s <;> simp [hkind, Storage.fields, attributeFields])
      (StorageKind.readBack held _)
  rw [ofFields?, hkind, Option.bind_some]
  cases s with
  | boolean d =>
      have hd : optional fields "defaultValue" bool? = some d :=
        h.optional (by decide) (by simp [hdefault, Storage.fields, attributeFields])
          (by simp [sorted]) fun _ _ => readBack_bool _
      simp only [kind, ofAttributes?, hd, Option.map_some]
  | date d | dateTime d | timestamp d =>
      have hd : optional fields "defaultValue" str? = some d :=
        h.optional (by decide) (by simp [hdefault, Storage.fields, attributeFields])
          (by simp [sorted]) fun _ _ => readBack_str _
      simp only [kind, ofAttributes?, hd, Option.map_some]
  | integer d a | long d a =>
      have hd : optional fields "defaultValue" int64? = some d :=
        h.optional (by decide) (by simp [hdefault, Storage.fields, attributeFields])
          (by simp [sorted, ofInt64]) fun _ _ => readBack_int64 _
      have ha : optional fields "autoIncrement" bool? = some a :=
        h.optional (by decide) (by simp [hincrement, Storage.fields, attributeFields])
          (by simp [sorted]) fun _ _ => readBack_bool _
      simp only [kind, ofAttributes?, hd, ha, Option.bind_eq_bind, Option.bind_some]
  | double d a | float d a =>
      have hd : optional fields "defaultValue" float? = some d :=
        optional_float hs h (by decide) (by simp [hdefault, Storage.fields, attributeFields])
      have ha : optional fields "autoIncrement" bool? = some a :=
        h.optional (by decide) (by simp [hincrement, Storage.fields, attributeFields])
          (by simp [sorted]) fun _ _ => readBack_bool _
      simp only [kind, ofAttributes?, hd, ha, Option.bind_eq_bind, Option.bind_some]
  | decimal d p s =>
      have hd : optional fields "defaultValue" float? = some d :=
        optional_float hs h (by decide) (by simp [hdefault, Storage.fields, attributeFields])
      have hp : optional fields "precision" word32? = some p :=
        h.optional (by decide) (by simp [hprecision, Storage.fields, attributeFields])
          (by simp [sorted, ofWord32]) fun _ _ => readBack_word32 _
      have hs : optional fields "scale" word32? = some s :=
        h.optional (by decide) (by simp [hscale, Storage.fields, attributeFields])
          (by simp [sorted, ofWord32]) fun _ _ => readBack_word32 _
      simp only [kind, ofAttributes?, hd, hp, hs, Option.bind_eq_bind, Option.bind_some]
  | string d l =>
      have hd : optional fields "defaultValue" str? = some d :=
        h.optional (by decide) (by simp [hdefault, Storage.fields, attributeFields])
          (by simp [sorted]) fun _ _ => readBack_str _
      have hl : optional fields "length" word32? = some l :=
        h.optional (by decide) (by simp [hlength, Storage.fields, attributeFields])
          (by simp [sorted, ofWord32]) fun _ _ => readBack_word32 _
      simp only [kind, ofAttributes?, hd, hl, Option.bind_eq_bind, Option.bind_some]
  | text | longText | json => rfl
  | reference t p c =>
      have ht : optional fields "target" str? = some t :=
        h.optional (by decide) (by simp [htarget, Storage.fields, attributeFields])
          (by simp [sorted]) fun _ _ => readBack_str _
      have hp : optional fields "targetProperty" str? = some p :=
        h.optional (by decide) (by simp [hproperty, Storage.fields, attributeFields])
          (by simp [sorted]) fun _ _ => readBack_str _
      have hc : optional fields "cardinality" (heldChoice? Cardinality.names) = some c :=
        h.optional (by decide) (by simp [hcardinality, Storage.fields, attributeFields])
          (by simp [sorted]) fun c _ => c.readBack
      simp only [kind, ofAttributes?, ht, hp, hc, Option.bind_eq_bind, Option.bind_some]

lemma readBack (held : Bool) {s : Storage} (hs : s.Finite) : ReadBack (ofJson? held) toJson s :=
  readBack_of_shows rfl fun _ h => ofFields?_of_shows held hs h fun _ _ => rfl

end Storage

namespace Model

variable {fields : Fields} {j : Json}

/-! ## Naming -/

namespace MetaEntry

lemma ofJson?_of_shows {e : MetaEntry} (h : Shows fields e.toJson) :
    ofJson? (.obj fields) = some e := by
  have hkey : orDefault fields "key" "" str? = some e.key :=
    h.orDefault (by decide) (by simp [toJson]) (readBack_str _) _
  have hvalue : orDefault fields "value" "" str? = some e.value :=
    h.orDefault (by decide) (by simp [toJson]) (readBack_str _) _
  simp only [ofJson?, record?, hkey, hvalue, Option.bind_eq_bind, Option.bind_some]

lemma readBack (e : MetaEntry) : ReadBack ofJson? toJson e :=
  readBack_of_shows rfl fun _ => ofJson?_of_shows

end MetaEntry

/-- The naming fields of a record are read back, where nothing else is written under their keys. -/
lemma Naming.ofFields?_of_shows {n : Naming} (h : Shows fields j)
    (hj : ∀ key ∈ ["uuid", "name", "title", "description", "meta"],
      j.shown key = (obj n.fields).shown key) :
    Naming.ofFields? fields = some n := by
  simp only [List.forall_mem_cons, List.not_mem_nil, false_implies, implies_true, and_true] at hj
  obtain ⟨huuid, hname, htitle, hdescription, hmeta⟩ := hj
  have huuid : orDefault fields "uuid" "" str? = some n.uuid :=
    h.orDefault (by decide) (by simp [huuid, Naming.fields]) (readBack_str _) _
  have hname : orDefault fields "name" "" str? = some n.name :=
    h.orDefault (by decide) (by simp [hname, Naming.fields]) (readBack_str _) _
  have htitle : optional fields "title" str? = some n.title :=
    h.optional (by decide) (by simp [htitle, Naming.fields]) (by simp [sorted])
      fun _ _ => readBack_str _
  have hdescription : optional fields "description" str? = some n.description :=
    h.optional (by decide) (by simp [hdescription, Naming.fields]) (by simp [sorted])
      fun _ _ => readBack_str _
  have hmeta : optional fields "meta" (list? MetaEntry.ofJson?) = some n.metadata :=
    h.optional (by decide) (by simp [hmeta, Naming.fields]) (by simp [sorted, ofList])
      fun _ _ => readBack_list fun e _ => e.readBack
  simp only [ofFields?, huuid, hname, htitle, hdescription, hmeta, Option.bind_eq_bind,
    Option.bind_some]

/-! ## Classes -/

lemma Access.readBack (a : Access) : ReadBack (choice? Access.names) Access.toJson a := by
  cases a <;> rfl

namespace Property

lemma ofJson?_of_shows (held : Bool) {p : Property} (hp : TypeExpr.Ordered? p.type)
    (h : Shows fields p.toJson) : ofJson? held (.obj fields) = some p := by
  have hnaming : Naming.ofFields? fields = some p.toNaming :=
    Naming.ofFields?_of_shows h (by simp [toJson])
  have htype : Json.optional fields "type" (TypeExpr.ofJson? held) = some p.type :=
    h.optional (by decide) (by simp [toJson, Naming.fields]) TypeExpr.sorted_toJson_ne_null
      fun t ht => t.readBack held (hp t ht)
  have haccess : Json.optional fields "access" (choice? Access.names) = some p.access :=
    h.optional (by decide) (by simp [toJson, Naming.fields]) (by simp [sorted, Access.toJson])
      fun a _ => a.readBack
  have hoptional : Json.optional fields "optional" bool? = some p.optional :=
    h.optional (by decide) (by simp [toJson, Naming.fields]) (by simp [sorted])
      fun _ _ => readBack_bool _
  simp only [ofJson?, object?, hnaming, htype, haccess, hoptional, Option.bind_eq_bind,
    Option.bind_some]

lemma readBack (held : Bool) {p : Property} (hp : TypeExpr.Ordered? p.type) :
    ReadBack (ofJson? held) toJson p :=
  readBack_of_shows rfl fun _ => ofJson?_of_shows held hp

end Property

namespace Parameter

lemma readBack (held : Bool) {p : Parameter} (hp : TypeExpr.Ordered? p.type) :
    ReadBack (ofJson? held) toJson p := by
  refine readBack_of_shows rfl fun fields h => ?_
  have hnaming : Naming.ofFields? fields = some p.toNaming :=
    Naming.ofFields?_of_shows h (by simp [toJson])
  have htype : optional fields "type" (TypeExpr.ofJson? held) = some p.type :=
    h.optional (by decide) (by simp [toJson, Naming.fields]) TypeExpr.sorted_toJson_ne_null
      fun t ht => t.readBack held (hp t ht)
  simp only [ofJson?, object?, hnaming, htype, Option.bind_eq_bind, Option.bind_some]

end Parameter

namespace Method

/-- The types of the parameters and of the result are ordered. -/
structure Ordered (m : Method) : Prop where
  parameters : ∀ p ∈ m.parameters, TypeExpr.Ordered? p.type
  result : TypeExpr.Ordered? m.result

lemma readBack (held : Bool) {m : Method} (hm : m.Ordered) : ReadBack (ofJson? held) toJson m := by
  refine readBack_of_shows rfl fun fields h => ?_
  have hnaming : Naming.ofFields? fields = some m.toNaming :=
    Naming.ofFields?_of_shows h (by simp [toJson])
  have haccess : optional fields "access" (choice? Access.names) = some m.access :=
    h.optional (by decide) (by simp [toJson, Naming.fields]) (by simp [sorted, Access.toJson])
      fun a _ => a.readBack
  have habstract : optional fields "abstract" bool? = some m.isAbstract :=
    h.optional (by decide) (by simp [toJson, Naming.fields]) (by simp [sorted])
      fun _ _ => readBack_bool _
  have hparameters : orDefault fields "parameters" [] (list? (Parameter.ofJson? held))
      = some m.parameters :=
    h.orDefault (by decide) (by simp [toJson])
      (readBack_list fun p hp => Parameter.readBack held (hm.parameters p hp)) _
  have hresult : optional fields "result" (TypeExpr.ofJson? held) = some m.result :=
    h.optional (by decide) (by simp [toJson, Naming.fields]) TypeExpr.sorted_toJson_ne_null
      fun t ht => t.readBack held (hm.result t ht)
  simp only [ofJson?, object?, hnaming, haccess, habstract, hparameters, hresult,
    Option.bind_eq_bind, Option.bind_some]

end Method

namespace ClassBody

/-- All types in a class are ordered. -/
structure Ordered (c : ClassBody) : Prop where
  properties : ∀ p ∈ c.properties, TypeExpr.Ordered? p.type
  methods : ∀ m ∈ c.methods, m.Ordered
  classProperties : ∀ p ∈ c.classProperties, TypeExpr.Ordered? p.type
  classMethods : ∀ m ∈ c.classMethods, m.Ordered

/-- The body of a class is read back, where nothing else is written under its keys. -/
lemma ofFields?_of_shows (held : Bool) {c : ClassBody} (hc : c.Ordered) (h : Shows fields j)
    (hj : ∀ key ∈ ["uuid", "name", "title", "description", "meta", "extends", "implements",
        "abstract", "properties", "methods", "classProperties", "classMethods"],
      j.shown key = (obj c.fields).shown key) :
    ofFields? held fields = some c := by
  simp only [List.forall_mem_cons, List.not_mem_nil, false_implies, implies_true, and_true] at hj
  obtain ⟨huuid, hname, htitle, hdescription, hmeta, hsuper, hinterfaces, habstract, hproperties,
    hmethods, hclassProperties, hclassMethods⟩ := hj
  have hnaming : Naming.ofFields? fields = some c.toNaming :=
    Naming.ofFields?_of_shows h
      (by simp [huuid, hname, htitle, hdescription, hmeta, ClassBody.fields])
  have hsuper : optional fields "extends" str? = some c.superclass :=
    h.optional (by decide) (by simp [hsuper, ClassBody.fields, Naming.fields]) (by simp [sorted])
      fun _ _ => readBack_str _
  have hinterfaces : optional fields "implements" (list? str?) = some c.interfaces :=
    h.optional (by decide) (by simp [hinterfaces, ClassBody.fields, Naming.fields])
      (by simp [sorted, ofTexts]) fun _ _ => readBack_texts _
  have habstract : optional fields "abstract" bool? = some c.isAbstract :=
    h.optional (by decide) (by simp [habstract, ClassBody.fields, Naming.fields]) (by simp [sorted])
      fun _ _ => readBack_bool _
  have hproperties : orDefault fields "properties" [] (list? (Property.ofJson? held))
      = some c.properties :=
    h.orDefault (by decide) (by simp [hproperties, ClassBody.fields])
      (readBack_list fun p hp => Property.readBack held (hc.properties p hp)) _
  have hmethods : orDefault fields "methods" [] (list? (Method.ofJson? held)) = some c.methods :=
    h.orDefault (by decide) (by simp [hmethods, ClassBody.fields])
      (readBack_list fun m hm => Method.readBack held (hc.methods m hm)) _
  have hclassProperties : orDefault fields "classProperties" [] (list? (Property.ofJson? held))
      = some c.classProperties :=
    h.orDefault (by decide) (by simp [hclassProperties, ClassBody.fields])
      (readBack_list fun p hp => Property.readBack held (hc.classProperties p hp)) _
  have hclassMethods : orDefault fields "classMethods" [] (list? (Method.ofJson? held))
      = some c.classMethods :=
    h.orDefault (by decide) (by simp [hclassMethods, ClassBody.fields])
      (readBack_list fun m hm => Method.readBack held (hc.classMethods m hm)) _
  simp only [ofFields?, hnaming, hsuper, hinterfaces, habstract, hproperties, hmethods,
    hclassProperties, hclassMethods, Option.bind_eq_bind, Option.bind_some]

end ClassBody

lemma Entity.ofJson?_of_shows {e : Entity} (he : e.toClassBody.Ordered)
    (h : Shows fields e.toJson) : Entity.ofJson? (.obj fields) = some e := by
  have hbody : ClassBody.ofFields? true fields = some e.toClassBody :=
    ClassBody.ofFields?_of_shows true he h (by simp [toJson, Entity.fields])
  have hid : orDefault fields "id" "" str? = some e.idUuid :=
    h.orDefault (by decide) (by simp [toJson, Entity.fields]) (readBack_str _) _
  have hroot : orDefault fields "isAggregationRoot" false bool? = some e.isAggregationRoot :=
    h.orDefault (by decide) (by simp [toJson, Entity.fields]) (readBack_bool _) _
  simp only [ofJson?, object?, hbody, hid, hroot, Option.bind_eq_bind, Option.bind_some]

lemma ValueObject.ofJson?_of_shows {v : ValueObject} (hv : v.toClassBody.Ordered)
    (h : Shows fields v.toJson) : ValueObject.ofJson? (.obj fields) = some v := by
  simp only [ValueObject.ofJson?, object?, Option.bind_some, Option.map_some,
    ClassBody.ofFields?_of_shows true hv h fun _ _ => rfl]

lemma Dto.ofJson?_of_shows {d : Dto} (hd : d.toClassBody.Ordered) (h : Shows fields d.toJson) :
    Dto.ofJson? (.obj fields) = some d := by
  simp only [Dto.ofJson?, object?, Option.bind_some, Option.map_some,
    ClassBody.ofFields?_of_shows true hd h fun _ _ => rfl]

/-! ## Enumerations -/

lemma EnumBase.readBack (b : EnumBase) : ReadBack (choice? EnumBase.names) EnumBase.toJson b := by
  cases b <;> rfl

lemma EnumCode.readBack (c : EnumCode) : ReadBack EnumCode.ofJson? EnumCode.toJson c := by
  cases c <;> rfl

lemma EnumMember.readBack (m : EnumMember) : ReadBack EnumMember.ofJson? EnumMember.toJson m := by
  refine readBack_of_shows rfl fun fields h => ?_
  have hnaming : Naming.ofFields? fields = some m.toNaming :=
    Naming.ofFields?_of_shows h (by simp [toJson])
  have hcode : orDefault fields "code" (.text "") EnumCode.ofJson? = some m.code :=
    h.orDefault (by decide) (by simp [toJson]) (EnumCode.readBack _) _
  simp only [ofJson?, object?, hnaming, hcode, Option.bind_eq_bind, Option.bind_some]

lemma Enumeration.ofJson?_of_shows {e : Enumeration} (h : Shows fields e.toJson) :
    Enumeration.ofJson? (.obj fields) = some e := by
  have hnaming : Naming.ofFields? fields = some e.toNaming :=
    Naming.ofFields?_of_shows h (by simp [toJson])
  have hbase : orDefault fields "baseType" .text (choice? EnumBase.names) = some e.base :=
    h.orDefault (by decide) (by simp [toJson]) (EnumBase.readBack _) _
  have hmembers : orDefault fields "members" [] (list? EnumMember.ofJson?) = some e.members :=
    h.orDefault (by decide) (by simp [toJson]) (readBack_list fun m _ => m.readBack) _
  simp only [ofJson?, object?, hnaming, hbase, hmembers, Option.bind_eq_bind, Option.bind_some]

/-! ## Aggregations, rules, commands and queries -/

lemma Aggregation.ofJson?_of_shows {a : Aggregation} (h : Shows fields a.toJson) :
    Aggregation.ofJson? (.obj fields) = some a := by
  simp only [ofJson?, object?, Option.bind_some, Option.map_some,
    Naming.ofFields?_of_shows h fun _ _ => rfl]

lemma Reference.readBack (r : Reference) : ReadBack Reference.ofJson? Reference.toJson r := by
  refine readBack_of_shows rfl fun fields h => ?_
  have hreferenceId : orDefault fields "referenceId" "" str? = some r.referenceId :=
    h.orDefault (by decide) (by simp [toJson]) (readBack_str _) _
  have hname : optional fields "name" str? = some r.name :=
    h.optional (by decide) (by simp [toJson]) (by simp [sorted]) fun _ _ => readBack_str _
  simp only [ofJson?, record?, hreferenceId, hname, Option.bind_eq_bind, Option.bind_some]

lemma Rule.ofJson?_of_shows {r : Rule} (h : Shows fields r.toJson) :
    Rule.ofJson? (.obj fields) = some r := by
  have hnaming : Naming.ofFields? fields = some r.toNaming :=
    Naming.ofFields?_of_shows h (by simp [toJson])
  have haggregator : optional fields "aggregator" Reference.ofJson? = some r.aggregator :=
    h.optional (by decide) (by simp [toJson, Naming.fields]) (by simp [sorted, Reference.toJson])
      fun a _ => a.readBack
  simp only [ofJson?, object?, hnaming, haggregator, Option.bind_eq_bind, Option.bind_some]

namespace Trigger

lemma readBack_flag (enabled : Bool) : ReadBack flagOfJson? flagToJson enabled := by
  refine readBack_of_shows rfl fun fields h => ?_
  exact h.orDefault (by decide) (by simp [flagToJson]) (readBack_bool _) _

lemma readBack (t : Trigger) : ReadBack ofJson? toJson t := by
  refine readBack_of_shows rfl fun fields h => ?_
  have henabled : orDefault fields "enabled" false bool? = some t.enabled :=
    h.orDefault (by decide) (by simp [toJson]) (readBack_bool _) _
  have hvalue : orDefault fields "value" "" str? = some t.value :=
    h.orDefault (by decide) (by simp [toJson]) (readBack_str _) _
  simp only [ofJson?, record?, henabled, hvalue, Option.bind_eq_bind, Option.bind_some]

end Trigger

lemma Triggers.readBack (t : Triggers) : ReadBack Triggers.ofJson? Triggers.toJson t := by
  refine readBack_of_shows rfl fun fields h => ?_
  have hhttp : orDefault fields "http" true Trigger.flagOfJson? = some t.http :=
    h.orDefault (by decide) (by simp [toJson]) (Trigger.readBack_flag _) _
  have hrpc : orDefault fields "rpc" true Trigger.flagOfJson? = some t.rpc :=
    h.orDefault (by decide) (by simp [toJson]) (Trigger.readBack_flag _) _
  have hevent : orDefault fields "event" {} Trigger.ofJson? = some t.event :=
    h.orDefault (by decide) (by simp [toJson]) (Trigger.readBack _) _
  have hschedule : orDefault fields "schedule" {} Trigger.ofJson? = some t.schedule :=
    h.orDefault (by decide) (by simp [toJson]) (Trigger.readBack _) _
  simp only [ofJson?, record?, hhttp, hrpc, hevent, hschedule, Option.bind_eq_bind,
    Option.bind_some]

lemma Repository.readBack (r : Repository) :
    ReadBack (choice? Repository.names) Repository.toJson r := by
  cases r <;> rfl

namespace Command

/-- The types of the properties, of those of the event and of the result are ordered. -/
structure Ordered (c : Command) : Prop where
  properties : ∀ p ∈ c.properties, TypeExpr.Ordered? p.type
  eventProperties : ∀ p ∈ c.eventProperties, TypeExpr.Ordered? p.type
  result : TypeExpr.Ordered? c.result

lemma ofJson?_of_shows {c : Command} (hc : c.Ordered) (h : Shows fields c.toJson) :
    ofJson? (.obj fields) = some c := by
  have hnaming : Naming.ofFields? fields = some c.toNaming :=
    Naming.ofFields?_of_shows h (by simp [toJson])
  have hsource : orDefault fields "source" {} Triggers.ofJson? = some c.source :=
    h.orDefault (by decide) (by simp [toJson]) (Triggers.readBack _) _
  have hrepository : orDefault fields "repository" .modify (choice? Repository.names)
      = some c.repository :=
    h.orDefault (by decide) (by simp [toJson]) (Repository.readBack _) _
  have hsendable : orDefault fields "eventSendable" false bool? = some c.eventSendable :=
    h.orDefault (by decide) (by simp [toJson]) (readBack_bool _) _
  have hproperties : orDefault fields "properties" [] (list? (Property.ofJson? false))
      = some c.properties :=
    h.orDefault (by decide) (by simp [toJson])
      (readBack_list fun p hp => Property.readBack false (hc.properties p hp)) _
  have heventProperties : orDefault fields "eventProperties" [] (list? (Property.ofJson? false))
      = some c.eventProperties :=
    h.orDefault (by decide) (by simp [toJson])
      (readBack_list fun p hp => Property.readBack false (hc.eventProperties p hp)) _
  have hresult : optional fields "result" (TypeExpr.ofJson? false) = some c.result :=
    h.optional (by decide) (by simp [toJson, Naming.fields]) TypeExpr.sorted_toJson_ne_null
      fun t ht => t.readBack false (hc.result t ht)
  have haggregation : optional fields "aggregation" Reference.ofJson? = some c.aggregation :=
    h.optional (by decide) (by simp [toJson, Naming.fields]) (by simp [sorted, Reference.toJson])
      fun a _ => a.readBack
  simp only [ofJson?, object?, hnaming, hsource, hrepository, hsendable, hproperties,
    heventProperties, hresult, haggregation, Option.bind_eq_bind, Option.bind_some]

end Command

namespace Query

/-- The types of the properties and of the result are ordered. -/
structure Ordered (q : Query) : Prop where
  properties : ∀ p ∈ q.properties, TypeExpr.Ordered? p.type
  result : TypeExpr.Ordered? q.result

lemma ofJson?_of_shows {q : Query} (hq : q.Ordered) (h : Shows fields q.toJson) :
    ofJson? (.obj fields) = some q := by
  have hnaming : Naming.ofFields? fields = some q.toNaming :=
    Naming.ofFields?_of_shows h (by simp [toJson])
  have hsource : orDefault fields "source" {} Triggers.ofJson? = some q.source :=
    h.orDefault (by decide) (by simp [toJson]) (Triggers.readBack _) _
  have hpagination : orDefault fields "pagination" false bool? = some q.pagination :=
    h.orDefault (by decide) (by simp [toJson]) (readBack_bool _) _
  have hproperties : orDefault fields "properties" [] (list? (Property.ofJson? false))
      = some q.properties :=
    h.orDefault (by decide) (by simp [toJson])
      (readBack_list fun p hp => Property.readBack false (hq.properties p hp)) _
  have hresult : optional fields "result" (TypeExpr.ofJson? false) = some q.result :=
    h.optional (by decide) (by simp [toJson, Naming.fields]) TypeExpr.sorted_toJson_ne_null
      fun t ht => t.readBack false (hq.result t ht)
  simp only [ofJson?, object?, hnaming, hsource, hpagination, hproperties, hresult,
    Option.bind_eq_bind, Option.bind_some]

end Query

/-! ## Data objects -/

lemma IndexKind.readBack (k : IndexKind) :
    ReadBack (choice? IndexKind.names) IndexKind.toJson k := by
  cases k <;> rfl

lemma IndexMethod.readBack (m : IndexMethod) :
    ReadBack (choice? IndexMethod.names) IndexMethod.toJson m := by
  cases m <;> rfl

lemma DataProperty.readBack {p : DataProperty} (hp : p.type.Finite) :
    ReadBack ofJson? toJson p := by
  refine readBack_of_shows rfl fun fields h => ?_
  have hnaming : Naming.ofFields? fields = some p.toNaming :=
    Naming.ofFields?_of_shows h (by simp [toJson])
  have hpropertyName : optional fields "propertyName" str? = some p.propertyName :=
    h.optional (by decide) (by simp [toJson, Naming.fields]) (by simp [sorted])
      fun _ _ => readBack_str _
  have htype : required fields "type" (Storage.ofJson? false) = some p.type :=
    h.required (by decide) (by simp [toJson]) (Storage.readBack false hp)
  have hnotNull : optional fields "notNull" bool? = some p.notNull :=
    h.optional (by decide) (by simp [toJson, Naming.fields]) (by simp [sorted])
      fun _ _ => readBack_bool _
  have hprimaryKey : optional fields "primaryKey" bool? = some p.primaryKey :=
    h.optional (by decide) (by simp [toJson, Naming.fields]) (by simp [sorted])
      fun _ _ => readBack_bool _
  simp only [ofJson?, object?, hnaming, hpropertyName, htype, hnotNull, hprimaryKey,
    Option.bind_eq_bind, Option.bind_some]

lemma DataIndex.readBack (i : DataIndex) : ReadBack DataIndex.ofJson? DataIndex.toJson i := by
  refine readBack_of_shows rfl fun fields h => ?_
  have hnaming : Naming.ofFields? fields = some i.toNaming :=
    Naming.ofFields?_of_shows h (by simp [toJson])
  have hkind : orDefault fields "type" .normal (choice? IndexKind.names) = some i.kind :=
    h.orDefault (by decide) (by simp [toJson]) (IndexKind.readBack _) _
  have hproperties : orDefault fields "properties" [] (list? str?) = some i.properties :=
    h.orDefault (by decide) (by simp [toJson]) (readBack_texts _) _
  have hmethod : optional fields "method" (choice? IndexMethod.names) = some i.method :=
    h.optional (by decide) (by simp [toJson, Naming.fields]) (by simp [sorted, IndexMethod.toJson])
      fun m _ => m.readBack
  simp only [ofJson?, object?, hnaming, hkind, hproperties, hmethod, Option.bind_eq_bind,
    Option.bind_some]

lemma DataObject.ofJson?_of_shows {d : DataObject} (hd : ∀ p ∈ d.properties, p.type.Finite)
    (h : Shows fields d.toJson) : DataObject.ofJson? (.obj fields) = some d := by
  have hnaming : Naming.ofFields? fields = some d.toNaming :=
    Naming.ofFields?_of_shows h (by simp [toJson])
  have htableName : optional fields "tableName" str? = some d.tableName :=
    h.optional (by decide) (by simp [toJson, Naming.fields]) (by simp [sorted])
      fun _ _ => readBack_str _
  have hproperties :
      orDefault fields "properties" [] (list? DataProperty.ofJson?) = some d.properties :=
    h.orDefault (by decide) (by simp [toJson])
      (readBack_list fun p hp => DataProperty.readBack (hd p hp)) _
  have hindexes : orDefault fields "indexes" [] (list? DataIndex.ofJson?) = some d.indexes :=
    h.orDefault (by decide) (by simp [toJson]) (readBack_list fun i _ => i.readBack) _
  simp only [ofJson?, object?, hnaming, htableName, hproperties, hindexes, Option.bind_eq_bind,
    Option.bind_some]

/-! ## Mappers -/

lemma ObjectSource.readBack (s : ObjectSource) :
    ReadBack (choice? ObjectSource.names) ObjectSource.toJson s := by
  cases s <;> rfl

lemma ObjectReference.readBack (r : ObjectReference) :
    ReadBack ObjectReference.ofJson? ObjectReference.toJson r := by
  refine readBack_of_shows rfl fun fields h => ?_
  have hsource : optional fields "source" (choice? ObjectSource.names) = some r.source :=
    h.optional (by decide) (by simp [toJson]) (by simp [sorted, ObjectSource.toJson])
      fun s _ => s.readBack
  have hreferenceId : orDefault fields "referenceId" "" str? = some r.referenceId :=
    h.orDefault (by decide) (by simp [toJson]) (readBack_str _) _
  have hname : optional fields "name" str? = some r.name :=
    h.optional (by decide) (by simp [toJson]) (by simp [sorted]) fun _ _ => readBack_str _
  simp only [ofJson?, record?, hsource, hreferenceId, hname, Option.bind_eq_bind, Option.bind_some]

lemma FieldMapper.readBack (f : FieldMapper) :
    ReadBack FieldMapper.ofJson? FieldMapper.toJson f := by
  refine readBack_of_shows rfl fun fields h => ?_
  have huuid : orDefault fields "uuid" "" str? = some f.uuid :=
    h.orDefault (by decide) (by simp [toJson]) (readBack_str _) _
  have hsource : optional fields "source" str? = some f.source :=
    h.optional (by decide) (by simp [toJson]) (by simp [sorted]) fun _ _ => readBack_str _
  have htarget : optional fields "target" str? = some f.target :=
    h.optional (by decide) (by simp [toJson]) (by simp [sorted]) fun _ _ => readBack_str _
  simp only [ofJson?, record?, huuid, hsource, htarget, Option.bind_eq_bind, Option.bind_some]

lemma MapperObject.ofJson?_of_shows {m : MapperObject} (h : Shows fields m.toJson) :
    MapperObject.ofJson? (.obj fields) = some m := by
  have hnaming : Naming.ofFields? fields = some m.toNaming :=
    Naming.ofFields?_of_shows h (by simp [toJson])
  have hsource : optional fields "source" ObjectReference.ofJson? = some m.source :=
    h.optional (by decide) (by simp [toJson, Naming.fields])
      (by simp [sorted, ObjectReference.toJson])
      fun r _ => r.readBack
  have htarget : optional fields "target" ObjectReference.ofJson? = some m.target :=
    h.optional (by decide) (by simp [toJson, Naming.fields])
      (by simp [sorted, ObjectReference.toJson])
      fun r _ => r.readBack
  have hmappers : orDefault fields "mappers" [] (list? FieldMapper.ofJson?) = some m.mappers :=
    h.orDefault (by decide) (by simp [toJson]) (readBack_list fun f _ => f.readBack) _
  simp only [ofJson?, object?, hnaming, hsource, htarget, hmappers, Option.bind_eq_bind,
    Option.bind_some]

end Model

end DomainDesign
