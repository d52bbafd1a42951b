import DomainDesign.Compiled.Naming
import DomainDesign.Model.Class

/-!
# Compiled classes

Entities, value objects and data transfer objects with their types written out.  Methods of one name
are one compiled method with several signatures.  The identifying property of an entity stands apart
from its other properties.
-/

namespace DomainDesign.Compiled

open Json

/-- A property. -/
structure Property extends Naming where
  type : String
  access : Option Model.Access := none
  optional : Option Bool := none
deriving DecidableEq, Inhabited, Repr

/-- A parameter of a method. -/
structure Parameter extends Naming where
  type : String
deriving DecidableEq, Inhabited, Repr

/-- The type of a result. -/
structure Return where
  type : String
deriving DecidableEq, Inhabited, Repr

/-- A signature of a method. -/
structure Signature where
  description : Option String := none
  parameters : List Parameter
  result : Return
deriving DecidableEq, Inhabited, Repr

/-- The signatures of a method: one, or those of its overloads. -/
inductive Signatures where
  | single (signature : Signature)
  | overloads (signatures : List Signature)
deriving DecidableEq, Inhabited, Repr

namespace Signatures

/-- The signatures as a list. -/
def toList : Signatures → List Signature
  | .single s => [s]
  | .overloads ss => ss

/-- One more signature. -/
def push : Signatures → Signature → Signatures
  | .single first, s => .overloads [first, s]
  | .overloads ss, s => .overloads (ss ++ [s])

end Signatures

/-- A method. -/
structure Method extends Naming where
  access : Option Model.Access := none
  isAbstract : Option Bool := none
  signatures : Signatures
deriving DecidableEq, Inhabited, Repr

/-- The body that entities, value objects and data transfer objects share. -/
structure ClassBody extends Naming where
  superclass : Option String := none
  interfaces : Option (List String) := none
  isAbstract : Option Bool := none
  properties : List Property := []
  methods : List Method := []
  classProperties : List Property := []
  classMethods : List Method := []
deriving DecidableEq, Inhabited, Repr

/-- An entity. -/
structure Entity extends ClassBody where
  /-- The identifying property, which is none of the other properties. -/
  id : Option Property := none
  isAggregationRoot : Option Bool := none
deriving DecidableEq, Inhabited, Repr

/-- A value object. -/
structure ValueObject extends ClassBody
deriving DecidableEq, Inhabited, Repr

/-- A data transfer object. -/
structure Dto extends ClassBody
deriving DecidableEq, Inhabited, Repr

/-! ## In JSON -/

namespace Property

/-- The property written by a value. -/
def ofJson? (j : Json) : Option Property := do
  let fields ← object? j
  let naming ← Naming.ofFields? fields
  let type ← required fields "type" str?
  let access ← Json.optional fields "access" (choice? Model.Access.names)
  let optional ← Json.optional fields "optional" bool?
  some { toNaming := naming, type, access, optional }

/-- The value that writes a property. -/
def toJson (p : Property) : Json :=
  .obj (p.toNaming.fields ++ field "type" (.str p.type)
    ++ fieldSome "access" Model.Access.toJson p.access ++ fieldSome "optional" .bool p.optional)

end Property

namespace Parameter

/-- The parameter written by a value. -/
def ofJson? (j : Json) : Option Parameter := do
  let fields ← object? j
  let naming ← Naming.ofFields? fields
  let type ← required fields "type" str?
  some { toNaming := naming, type }

/-- The value that writes a parameter. -/
def toJson (p : Parameter) : Json :=
  .obj (p.toNaming.fields ++ field "type" (.str p.type))

end Parameter

namespace Return

/-- The result written by a value. -/
def ofJson? (j : Json) : Option Return := do
  let fields ← record? ["type"] j
  let type ← required fields "type" str?
  some ⟨type⟩

/-- The value that writes a result. -/
def toJson (r : Return) : Json :=
  .obj (field "type" (.str r.type))

end Return

namespace Signature

/-- The signature written by a value. -/
def ofJson? (j : Json) : Option Signature := do
  let fields ← record? ["description", "parameters", "return"] j
  let description ← optional fields "description" str?
  let parameters ← required fields "parameters" (list? Parameter.ofJson?)
  let result ← required fields "return" Return.ofJson?
  some ⟨description, parameters, result⟩

/-- The value that writes a signature. -/
def toJson (s : Signature) : Json :=
  .obj (fieldSome "description" .str s.description
    ++ field "parameters" (ofList Parameter.toJson s.parameters) ++ field "return" s.result.toJson)

end Signature

namespace Signatures

/-- The signatures written by a value, which is one signature if it can be. -/
def ofJson? (j : Json) : Option Signatures :=
  match Signature.ofJson? j with
  | some s => some (.single s)
  | none => (list? Signature.ofJson? j).map .overloads

/-- The value that writes the signatures. -/
def toJson : Signatures → Json
  | .single s => s.toJson
  | .overloads ss => ofList Signature.toJson ss

end Signatures

namespace Method

/-- The method written by a value. -/
def ofJson? (j : Json) : Option Method := do
  let fields ← object? j
  let naming ← Naming.ofFields? fields
  let access ← optional fields "access" (choice? Model.Access.names)
  let isAbstract ← optional fields "abstract" bool?
  let signatures ← required fields "signature" Signatures.ofJson?
  some { toNaming := naming, access, isAbstract, signatures }

/-- The value that writes a method. -/
def toJson (m : Method) : Json :=
  .obj (m.toNaming.fields ++ fieldSome "access" Model.Access.toJson m.access
    ++ fieldSome "abstract" .bool m.isAbstract ++ field "signature" m.signatures.toJson)

end Method

namespace ClassBody

/-- The body among the fields of a class. -/
def ofFields? (fields : Fields) : Option ClassBody := do
  let naming ← Naming.ofFields? fields
  let superclass ← optional fields "extends" str?
  let interfaces ← optional fields "implements" (list? str?)
  let isAbstract ← optional fields "abstract" bool?
  let properties ← required fields "properties" (list? Property.ofJson?)
  let methods ← orDefault fields "methods" [] (list? Method.ofJson?)
  let classProperties ← orDefault fields "classProperties" [] (list? Property.ofJson?)
  let classMethods ← orDefault fields "classMethods" [] (list? Method.ofJson?)
  some { toNaming := naming, superclass, interfaces, isAbstract, properties, methods,
         classProperties, classMethods }

/-- The fields that write a body. -/
def fields (c : ClassBody) : Fields :=
  c.toNaming.fields ++ fieldSome "extends" .str c.superclass
    ++ fieldSome "implements" ofTexts c.interfaces ++ fieldSome "abstract" .bool c.isAbstract
    ++ field "properties" (ofList Property.toJson c.properties)
    ++ fieldList "methods" Method.toJson c.methods
    ++ fieldList "classProperties" Property.toJson c.classProperties
    ++ fieldList "classMethods" Method.toJson c.classMethods

end ClassBody

namespace Entity

/-- The entity written by a value. -/
def ofJson? (j : Json) : Option Entity := do
  let fields ← object? j
  let body ← ClassBody.ofFields? fields
  let id ← optional fields "id" Property.ofJson?
  let isAggregationRoot ← optional fields "isAggregationRoot" bool?
  some { toClassBody := body, id, isAggregationRoot }

/-- The value that writes an entity. -/
def toJson (e : Entity) : Json :=
  .obj (e.toClassBody.fields ++ fieldSome "id" Property.toJson e.id
    ++ fieldSome "isAggregationRoot" .bool e.isAggregationRoot)

end Entity

namespace ValueObject

/-- The value object written by a value. -/
def ofJson? (j : Json) : Option ValueObject :=
  ((object? j).bind ClassBody.ofFields?).map ValueObject.mk

/-- The value that writes a value object. -/
def toJson (v : ValueObject) : Json :=
  .obj v.toClassBody.fields

end ValueObject

namespace Dto

/-- The data transfer object written by a value. -/
def ofJson? (j : Json) : Option Dto :=
  ((object? j).bind ClassBody.ofFields?).map Dto.mk

/-- The value that writes a data transfer object. -/
def toJson (d : Dto) : Json :=
  .obj d.toClassBody.fields

end Dto

end DomainDesign.Compiled
