import DomainDesign.Compile.Aggregates
import DomainDesign.Compile.Mappers
import DomainDesign.Compile.Queries
import DomainDesign.Compile.Tables
import DomainDesign.Digest.Blake3
import DomainDesign.Relations
import DomainDesign.Text.Hex
import DomainDesign.Tree.Snapshot

/-!
# Documents

A document is four trees: the domain, the queries, the data objects and the mappers.  A tree that is
not there is one with only a root.  Compiling a document compiles its trees; the mappers are
compiled against the objects of the other trees, and only if there is more than a root in their
tree.
-/

namespace DomainDesign

open Json

/-- A document. -/
structure Document where
  domain : Tree
  query : Tree
  dataObject : Tree
  mapper : Tree
  vision : Option String := none
deriving DecidableEq, Inhabited

namespace Document

/-- A document with nothing but roots. -/
def empty (rootId : String) : Document :=
  ⟨.empty rootId, .empty rootId, .empty rootId, .empty rootId, none⟩

/-- The field names of a document, in order. -/
def names : List String :=
  ["domain", "query", "dataObject", "mapper", "vision"]

/-- The tree under a field, which has only a root if the field is missing or null. -/
def subtree (rootId : String) (fields : Fields) (key : String) : Except Error Tree :=
  match fields.lookup key with
  | none => .ok (.empty rootId)
  | some .null => .ok (.empty rootId)
  | some j => Tree.ofJson rootId j

/-- The fields of a document and its vision, where the vision has the right shape. -/
def parts? (j : Json) : Option (Fields × Option String) := do
  let fields ← record? names j
  let vision ← optional fields "vision" str?
  some (fields, vision)

/-- The document written by a value. -/
def ofJson (rootId : String) (j : Json) : Except Error Document :=
  match parts? j with
  | none => .error .undecodable
  | some (fields, vision) => do
    let domain ← subtree rootId fields "domain"
    let query ← subtree rootId fields "query"
    let dataObject ← subtree rootId fields "dataObject"
    let mapper ← subtree rootId fields "mapper"
    .ok ⟨domain, query, dataObject, mapper, Text.nonEmpty vision⟩

/-- The document written by JSON text. -/
def ofText (rootId : String) (text : String) : Except Error Document :=
  match Json.parse? text with
  | some j => ofJson rootId j
  | none => .error .undecodable

/-- The trees of a document. -/
def trees (d : Document) : List Tree :=
  [d.domain, d.query, d.dataObject, d.mapper]

/-- Compiles the mappers of a document, if there are any. -/
def compileMapper (c : Config) (d : Document) : Except Error (Option Compiled.ObjectMapper) :=
  if 1 < d.mapper.size then do
    let store ← Store.ofTrees [d.domain, d.query, d.dataObject]
    let report ← Compile.objectMapper store d.mapper c
    .ok (some report.result)
  else .ok none

/-- Compiles a document. -/
def compile (c : Config) (d : Document) : Except Error Compiled.BusinessDomain := do
  let domain ← Compile.domainModel d.domain c
  let query ← Compile.queryModel d.query c
  let data ← Compile.dataModel d.dataObject c
  let objectMapper ← compileMapper c d
  .ok { domainModel := domain.result, queryModel := query.result, dataModel := data.result,
        objectMapper, vision := d.vision }

/-- The compiled text of a document in bytes, if it can be read and compiled. -/
def compileBytes? (c : Config) (bytes : ByteArray) : Option String :=
  match String.fromUTF8? bytes with
  | none => none
  | some text =>
    match (ofText c.rootId text).bind (compile c) with
    | .ok compiled => some compiled.text
    | .error _ => none

/-- The relations between the objects of a document. -/
def relations (d : Document) : Except Error View :=
  View.ofTrees d.trees

end Document

/-- The hash of the text of a compiled document, in hexadecimal. -/
def Compiled.BusinessDomain.digest (b : Compiled.BusinessDomain) : String :=
  Text.hexOfBytes (Blake3.hash b.text.toUTF8.toList)

end DomainDesign
