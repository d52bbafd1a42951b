import DomainDesign.Compile.Rendering
import DomainDesign.Compiled.Document
import DomainDesign.Model.Mapper
import DomainDesign.Store
import DomainDesign.Tree.Walk

/-!
# Compiling the object mapper

A mapper is compiled if both of its sides lead to an object that can be mapped; of its pairs those
are kept whose fields are both there.  What is left out is left out with a warning.  Objects are
found by a lookup, which may be a store.
-/

namespace DomainDesign.Compile

open Compiled

/-- The object that a side of a mapper leads to, and how the mapper speaks of it. -/
def side? (find : Lookup) (r : Option Model.ObjectReference) :
    Option (StoredObject × ObjectRef) := do
  let r ← r
  if r.referenceId.isEmpty then none
  else
    let entry ← find r.referenceId
    let kind ← entry.object.mapperKind?
    some (entry.object, { name := entry.object.name, parent := entry.parent.map (·.name), kind })

/-- A pair of fields, by name. -/
def pair? (source target : StoredObject) (f : Model.FieldMapper) : Option FieldPair := do
  let sourceField ← f.source.bind source.fieldName?
  let targetField ← f.target.bind target.fieldName?
  some ⟨sourceField, targetField⟩

/-- The mapper at a node, and the warnings about it. -/
def mapper (find : Lookup) (n : Node) (m : Model.MapperObject) : Report (Option MapperObject) :=
  match side? find m.source, side? find m.target with
  | none, _ => ⟨none, [.unresolvedSide .source n.id]⟩
  | some _, none => ⟨none, [.unresolvedSide .target n.id]⟩
  | some (source, sourceRef), some (target, targetRef) =>
    { result := some
        { toNaming := nodeNaming n m.toNaming, source := sourceRef, target := targetRef,
          pairs := m.mappers.filterMap (pair? source target) }
      warnings := (m.mappers.filter fun f => (pair? source target f).isNone).map fun f =>
        .unresolvedPair n.id f.uuid }

/-- What a node of a mapper tree gives. -/
def mapperPart (find : Lookup) (t : Tree) (c : Config) (n : Node) :
    Except Error (Report (Option MapperObject)) :=
  match n.kind with
  | .mapperObject => do
    let m ← n.read Model.MapperObject.ofJson?
    .ok (mapper find n m)
  | _ => (foreign t c "mapper" n).map fun warnings => ⟨none, warnings⟩

/-- Compiles a mapper tree against a lookup. -/
def objectMapper (find : Lookup) (t : Tree) (c : Config) :
    Except Error (Report ObjectMapper) := do
  let parts ← t.survey (mapperPart find t c)
  .ok ⟨⟨parts.filterMap (·.result)⟩, parts.flatMap (·.warnings)⟩

end DomainDesign.Compile
