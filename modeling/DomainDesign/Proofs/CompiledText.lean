import DomainDesign.Proofs.CanonicalDocuments
import DomainDesign.Proofs.JsonText

/-!
# Compiled documents and their texts

**Main result.**  `Document.compiled_decodes`: what a document is compiled to can be decoded from
the JSON value that writes it, and its text is the text of nothing else.  So bytes are compiled to
the text of a compiled document exactly if they hold a document that is compiled to it.

A compiled document is canonical (`Document.canonical_compile`), so it is read back.  All numbers in
it are in range (`BusinessDomain.inRange_toJson`), so its text determines its JSON value by
`Json.render_inj`, and the value determines the document: `BusinessDomain.text_inj`.
-/

namespace DomainDesign

open Json

namespace Compiled

/-! ## The numbers of a compiled document -/

@[simp] lemma inRange_storageFields (s : Storage) : (obj s.fields).InRange := by
  cases s <;> simp [Storage.fields, Storage.attributeFields]

@[simp] lemma Naming.inRange_fields (n : Naming) : (obj n.fields).InRange := by
  have htexts (d : Dict String) : (textsToJson d).InRange := by
    refine inRange_obj.mpr fun f hf => ?_
    obtain ⟨e, -, rfl⟩ := List.mem_map.mp hf
    exact inRange_str e.2
  simp [fields, htexts]

@[simp] lemma Property.inRange_toJson (p : Property) : p.toJson.InRange := by
  simp [toJson, Model.Access.toJson]

@[simp] lemma Signature.inRange_toJson (s : Signature) : s.toJson.InRange := by
  simp [toJson, Parameter.toJson, Return.toJson]

@[simp] lemma Signatures.inRange_toJson (s : Signatures) : s.toJson.InRange := by
  cases s <;> simp [toJson]

@[simp] lemma ClassBody.inRange_fields (c : ClassBody) : (obj c.fields).InRange := by
  simp [fields, Method.toJson, Model.Access.toJson]

@[simp] lemma Entity.inRange_toJson (e : Entity) : e.toJson.InRange := by
  simp [toJson]

@[simp] lemma Trigger.inRange_toJson (t : Trigger) : t.toJson.InRange := by
  cases t <;> simp [toJson]

@[simp] lemma Command.inRange_toJson (c : Command) : c.toJson.InRange := by
  simp [toJson, Model.Repository.toJson, Event.toJson, Rule.toJson, Return.toJson]

@[simp] lemma Query.inRange_toJson (q : Query) : q.toJson.InRange := by
  simp [toJson, Rule.toJson, Return.toJson]

@[simp] lemma DataObject.inRange_toJson (d : DataObject) : d.toJson.InRange := by
  simp [toJson, DataProperty.toJson, DataIndex.toJson, Model.IndexKind.toJson,
    Model.IndexMethod.toJson]

@[simp] lemma DataReference.inRange_toJson (r : DataReference) : r.toJson.InRange := by
  simp [toJson, ReferenceTarget.toJson, FieldPair.toJson]

@[simp] lemma MapperObject.inRange_toJson (m : MapperObject) : m.toJson.InRange := by
  simp [toJson, ObjectRef.toJson, FieldPair.toJson]

lemma Enumeration.inRange_toJson {e : Enumeration} (he : e.Canonical) : e.toJson.InRange := by
  have hcode {code : Model.EnumCode} (h : CodeInRange code) : code.toJson.InRange := by
    cases code with
    | number n => exact h n rfl
    | text s => exact inRange_str s
  have hmembers : ∀ m ∈ e.members, m.toJson.InRange := by
    intro m hm
    simpa [EnumMember.toJson] using hcode (he.members m hm).code
  simpa [toJson, Model.EnumBase.toJson] using hmembers

lemma Aggregate.inRange_toJson {a : Aggregate} (ha : a.Canonical) : a.toJson.InRange := by
  have henums : ∀ e ∈ a.enums, e.toJson.InRange :=
    fun e he => Enumeration.inRange_toJson (ha.enums e he)
  simpa [toJson, ValueObject.toJson] using henums

namespace BusinessDomain

variable {b b' : BusinessDomain}

lemma inRange_toJson (hb : b.Canonical) : b.toJson.InRange := by
  have haggregates : ∀ a ∈ b.domainModel.aggregates, a.toJson.InRange :=
    fun a ha => Aggregate.inRange_toJson (hb.aggregates a ha)
  simpa [toJson, DomainModel.toJson, QueryModel.toJson, DataModel.toJson, ObjectMapper.toJson,
    Dto.toJson] using haggregates

/-- **Canonical documents with the same text are the same.** -/
lemma text_inj (hb : b.Canonical) (hb' : b'.Canonical) (h : b.text = b'.text) : b = b' := by
  have hjson : b.toJson = b'.toJson := render_inj (inRange_toJson hb) (inRange_toJson hb') h
  have hread := readBack hb
  rw [ReadBack, hjson, readBack hb'] at hread
  exact (Option.some.inj hread).symm

end BusinessDomain

end Compiled

namespace Document

open Compiled

variable {c : Config} {bytes : ByteArray} {written : String}

lemma compileBytes?_eq_some_iff : compileBytes? c bytes = some written
    ↔ ∃ text d b, String.fromUTF8? bytes = some text ∧ ofText c.rootId text = .ok d
      ∧ d.compile c = .ok b ∧ b.text = written := by
  rw [compileBytes?]
  constructor
  · intro h
    split at h
    next => cases h
    next text htext =>
      split at h
      next b hb =>
        obtain ⟨d, hd, hcompile⟩ := bind_ok_iff.mp hb
        exact ⟨text, d, b, htext, hd, hcompile, Option.some.inj h⟩
      next => cases h
  · rintro ⟨text, d, b, htext, hd, hcompile, rfl⟩
    simp only [htext]
    rw [show (ofText c.rootId text).bind (compile c) = .ok b from bind_ok_iff.mpr ⟨d, hd, hcompile⟩]

/-- **Decoding undoes encoding.**  The JSON value of a compiled document is decoded to the document
itself, and the compiled text says as much: bytes are compiled to it exactly if they hold a document
that is compiled to the same. -/
theorem compiled_decodes {d : Document} {b : BusinessDomain} (hd : d.InRange)
    (h : d.compile c = .ok b) :
    BusinessDomain.ofJson? b.toJson.sorted = some b
      ∧ ∀ (c' : Config) (bytes : ByteArray), compileBytes? c' bytes = some b.text
        ↔ ∃ text d', String.fromUTF8? bytes = some text ∧ ofText c'.rootId text = .ok d'
          ∧ d'.compile c' = .ok b := by
  have hb := canonical_compile hd h
  refine ⟨BusinessDomain.readBack hb, fun c' bytes => ?_⟩
  rw [compileBytes?_eq_some_iff]
  constructor
  · rintro ⟨text, d', b', htext, hd', hcompile, hwritten⟩
    have hb' := canonical_compile (inRange_ofText hd') hcompile
    cases BusinessDomain.text_inj hb' hb hwritten
    exact ⟨text, d', htext, hd', hcompile⟩
  · rintro ⟨text, d', htext, hd', hcompile⟩
    exact ⟨text, d', b, htext, hd', hcompile, rfl⟩

/-- An aggregation with an entity and an enumeration, and a table.  The entity has two methods of
one name, the enumeration a whole and a broken code, and a column of the table one tenth as
default. -/
def booksDocument : Document :=
  let inBooks (id : String) (kind : Kind) (properties : Json) : Node :=
    { Node.make id kind properties with parentId := some "books" }
  let ledger : Model.Entity :=
    { uuid := "ledger", name := "Ledger"
      methods := [{ uuid := "full", name := "report" },
        { uuid := "daily", name := "report", parameters := [{ uuid := "day", name := "day" }] }] }
  let state : Model.Enumeration :=
    { uuid := "state", name := "State", base := .number
      members := [{ uuid := "open", name := "open", code := .number (.int 1) },
        { uuid := "shut", name := "shut", code := .text "2.5" }] }
  let fees : Model.DataObject :=
    { uuid := "fees", name := "fees"
      properties := [{ uuid := "fee", name := "fee",
                       type := .decimal (some ⟨0x3fb999999999999a⟩) (some 10) none }] }
  { domain := .ofNodes "__ROOT__"
      [(Node.make "__ROOT__" .root .null).withChild "books",
        ["ledger", "state"].foldl Node.withChild
          (Node.make "books" .aggregation (.obj [("name", .str "Books")])),
        inBooks "ledger" .entity ledger.toJson, inBooks "state" .enumeration state.toJson]
    query := .empty
    dataObject := treeOf [Node.make "fees" .dataObject fees.toJson] ["fees"]
    mapper := .empty }

theorem compiled_decodes_booksDocument :
    booksDocument.InRange ∧ ∃ b, booksDocument.compile {} = .ok b
      ∧ b.domainModel.aggregates.map (fun a => a.enums.map fun e => e.members.map (·.code))
        = [[[.number (.int 1), .number (.float ⟨0x4004000000000000⟩)]]]
      ∧ BusinessDomain.ofJson? b.toJson.sorted = some b
      ∧ ∀ (c' : Config) (bytes : ByteArray), compileBytes? c' bytes = some b.text
        ↔ ∃ text d', String.fromUTF8? bytes = some text ∧ ofText c'.rootId text = .ok d'
          ∧ d'.compile c' = .ok b := by
  have hrange : booksDocument.InRange := of_decide_eq_true (by decide +kernel)
  have hcompile : (booksDocument.compile {}).map (fun b =>
      b.domainModel.aggregates.map fun a => a.enums.map fun e => e.members.map (·.code))
      = .ok [[[.number (.int 1), .number (.float ⟨0x4004000000000000⟩)]]] := by decide +kernel
  obtain ⟨b, hb, hcodes⟩ := map_ok_iff.mp hcompile
  exact ⟨hrange, b, hb, hcodes, compiled_decodes hrange hb⟩

end Document

end DomainDesign
