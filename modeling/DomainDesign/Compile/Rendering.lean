import DomainDesign.Compiled.Behaviour
import DomainDesign.Config
import DomainDesign.Register
import DomainDesign.Warning

/-!
# Compiling the parts of a node

How the parts that all compilers share are compiled: naming fields, types, methods, class bodies,
enumerations, rules and triggers.

A type is written out against the tree it stands in: a reference is written as the name of the node
it leads to, or by its own display name if that node is not there or has no name.

Methods of one name become one compiled method, at the place of the first of them and with its
naming; its signatures are those of all of them, in order.  Two of them whose parameters have the
same types cannot be told apart, which is an error.
-/

namespace DomainDesign.Compile

open Compiled

/-! ## Naming fields -/

/-- Metadata as a dictionary, without the entries that have an empty key or value. -/
def metadata (entries : Option (List Model.MetaEntry)) : Option (Dict String) :=
  entries.bind fun entries =>
    let kept := entries.filter fun e => !e.key.isEmpty && !e.value.isEmpty
    if kept.isEmpty then none else some (Dict.ofEntries (kept.map fun e => (e.key, e.value)))

/-- The naming of a part inside a node. -/
def naming (n : Model.Naming) : Naming :=
  { uuid := n.uuid, name := n.name, title := Text.nonEmpty n.title,
    description := Text.nonEmpty n.description, metadata := metadata n.metadata }

/-- The naming of a node, which has its id if it says no uuid. -/
def nodeNaming (node : Node) (n : Model.Naming) : Naming :=
  { naming n with uuid := if n.uuid.isEmpty then node.id else n.uuid }

/-! ## Types -/

/-- What a reference is written as. -/
def referenceName (t : Tree) (id display : String) : String :=
  (((t.get? id).bind Node.name?).filter (!·.isEmpty)).getD display

/-- The text of the type of a property or parameter. -/
def typeText (t : Tree) (c : Config) (type : Option TypeExpr) : String :=
  TypeExpr.render? c.voidClass (referenceName t) type

/-- The type of a result. -/
def result (t : Tree) (c : Config) (type : Option TypeExpr) : Return :=
  match type with
  | some _ => ⟨typeText t c type⟩
  | none => ⟨c.voidReturn⟩

/-- A property. -/
def property (t : Tree) (c : Config) (p : Model.Property) : Property :=
  { toNaming := naming p.toNaming, type := typeText t c p.type, access := p.access,
    optional := p.optional }

/-- Properties. -/
def properties (t : Tree) (c : Config) (ps : List Model.Property) : List Property :=
  ps.map (property t c)

/-- A parameter. -/
def parameter (t : Tree) (c : Config) (p : Model.Parameter) : Parameter :=
  { toNaming := naming p.toNaming, type := typeText t c p.type }

/-! ## Methods -/

/-- The signature of a method. -/
def signature (t : Tree) (c : Config) (m : Model.Method) : Signature :=
  { description := Text.nonEmpty m.description, parameters := m.parameters.map (parameter t c),
    result := result t c m.result }

/-- Whether two lists of parameters have the same types. -/
def sameTypes : List Model.Parameter → List Model.Parameter → Bool
  | [], [] => true
  | p :: ps, q :: qs => TypeExpr.agrees? p.type q.type && sameTypes ps qs
  | _, _ => false

/-- A method with one more signature. -/
def withSignature (s : Signature) (e : Method) : Method :=
  { e with signatures := e.signatures.push s }

/-- Methods while they are merged: what each name has become so far, and the parameters of the
methods that went into it. -/
structure Merging where
  compiled : Register Method := {}
  earlier : Dict (List (List Model.Parameter)) := []

namespace Merging

/-- Takes in a method, whose signature is what `sign` makes of it.  The first one of a name begins a
compiled method, a later one adds its signature to it, unless one of the name before it has the same
types. -/
def add (sign : Model.Method → Signature) (s : Merging) (m : Model.Method) : Except Error Merging :=
  match s.compiled.place? m.name with
  | some place =>
    let earlier := (s.earlier.lookup m.name).getD []
    if earlier.any (sameTypes · m.parameters) then .error (.ambiguousOverload m.name)
    else .ok
      { compiled := s.compiled.modifyAt place (withSignature (sign m))
        earlier := Dict.insert m.name (earlier ++ [m.parameters]) s.earlier }
  | none => .ok
    { compiled := s.compiled.push m.name
        { toNaming := naming m.toNaming, access := m.access, isAbstract := m.isAbstract,
          signatures := .single (sign m) }
      earlier := Dict.insert m.name [m.parameters] s.earlier }

/-- Takes in methods one after the other. -/
def addAll (sign : Model.Method → Signature) :
    List Model.Method → Merging → Except Error Merging
  | [], s => .ok s
  | m :: rest, s => do
    let s ← s.add sign m
    addAll sign rest s

end Merging

/-- Methods, merged by name. -/
def methods (t : Tree) (c : Config) (ms : List Model.Method) : Except Error (List Method) :=
  (Merging.addAll (signature t c) ms {}).map (·.compiled.items)

/-! ## Whole parts -/

/-- The body of a class at a node. -/
def classBody (t : Tree) (c : Config) (node : Node) (b : Model.ClassBody) :
    Except Error ClassBody := do
  let methods ← methods t c b.methods
  let classMethods ← Compile.methods t c b.classMethods
  .ok { toNaming := nodeNaming node b.toNaming, superclass := Text.nonEmpty b.superclass,
        interfaces := b.interfaces.filter (!·.isEmpty), isAbstract := b.isAbstract,
        properties := properties t c b.properties, methods,
        classProperties := properties t c b.classProperties, classMethods }

/-- The code of a member of an enumeration with a base. -/
def enumCode (base : Model.EnumBase) (code : Model.EnumCode) : Model.EnumCode :=
  match base with
  | .number => (code.number?.map .number).getD code
  | .text => .text code.toText

/-- An enumeration at a node. -/
def enumeration (node : Node) (e : Model.Enumeration) : Enumeration :=
  { toNaming := nodeNaming node e.toNaming, base := e.base,
    members := e.members.map fun m =>
      { toNaming := naming m.toNaming, code := enumCode e.base m.code } }

/-- A rule at a node. -/
def rule (node : Node) (r : Model.Rule) : Rule :=
  ⟨nodeNaming node r.toNaming⟩

/-- The triggers that are enabled. -/
def triggers (s : Model.Triggers) : List Trigger :=
  (if s.http then [.http] else []) ++ (if s.rpc then [.rpc] else [])
    ++ (if s.event.enabled then [.event s.event.value] else [])
    ++ (if s.schedule.enabled then [.schedule s.schedule.value] else [])

/-! ## Nodes of other kinds -/

/-- What becomes of a node of a kind that has no place in a model: nothing at the root, otherwise an
error where the settings are strict and a warning where they are not. -/
def foreign (t : Tree) (c : Config) (stage : String) (node : Node) : Except Error (List Warning) :=
  if node.kind = .root ∨ node.id = t.rootId then .ok []
  else if c.strict then .error (.foreignNode node.id node.kind.name stage)
  else .ok [.foreignNode node.id node.kind.name stage]

theorem foreign_root {node : Node} (h : node.kind = .root) (t : Tree) (c : Config)
    (stage : String) :
    foreign t c stage node = .ok [] :=
  if_pos (.inl h)

end DomainDesign.Compile
