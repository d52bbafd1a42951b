import DomainDesign.Model.Naming
import DomainDesign.TypeExpr.Codec

/-!
# Classes

Entities, value objects and data transfer objects share one body of properties and methods.  An
entity also names the property that identifies it and says whether it is the root of its
aggregation.

In JSON the fields of the body stand beside the fields of the whole.  A body inside an entity, value
object or data transfer object is held until its own fields are told apart, so the tags of its types
may be given by position; in a body on its own they may not.
-/

namespace DomainDesign.Model

open Json

/-- Who may use a member. -/
inductive Access where
  | everyone
  | owner
  | heirs
deriving DecidableEq, Inhabited, Repr

/-- The names of the kinds of access. -/
def Access.names : List (String × Access) :=
  [("public", .everyone), ("private", .owner), ("protected", .heirs)]

/-- The value that writes a kind of access. -/
def Access.toJson (a : Access) : Json :=
  .str (nameOf Access.names a)

/-- A property. -/
structure Property extends Naming where
  type : Option TypeExpr := none
  access : Option Access := none
  optional : Option Bool := none
deriving DecidableEq, Inhabited

/-- A parameter of a method. -/
structure Parameter extends Naming where
  type : Option TypeExpr := none
deriving DecidableEq, Inhabited

/-- A method. -/
structure Method extends Naming where
  access : Option Access := none
  isAbstract : Option Bool := none
  parameters : List Parameter := []
  result : Option TypeExpr := none
deriving DecidableEq, Inhabited

/-- The body that entities, value objects and data transfer objects share. -/
structure ClassBody extends Naming where
  superclass : Option String := none
  interfaces : Option (List String) := none
  isAbstract : Option Bool := none
  properties : List Property := []
  methods : List Method := []
  classProperties : List Property := []
  classMethods : List Method := []
deriving DecidableEq, Inhabited

/-- An entity. -/
structure Entity extends ClassBody where
  /-- The uuid of the identifying property. -/
  idUuid : String := ""
  isAggregationRoot : Bool := false
deriving DecidableEq, Inhabited

/-- A value object. -/
structure ValueObject extends ClassBody
deriving DecidableEq, Inhabited

/-- A data transfer object. -/
structure Dto extends ClassBody
deriving DecidableEq, Inhabited

/-- The identifying property of an entity. -/
def Entity.idProperty? (e : Entity) : Option Property :=
  e.properties.find? fun p => p.uuid = e.idUuid

/-! ## Making classes -/

/-- A property with a type. -/
def Property.of (uuid name : String) (type : TypeExpr) : Property :=
  { uuid, name, type := some type }

/-- A parameter with a type. -/
def Parameter.of (uuid name : String) (type : TypeExpr) : Parameter :=
  { uuid, name, type := some type }

/-- A body with one more property. -/
def ClassBody.withProperty (c : ClassBody) (p : Property) : ClassBody :=
  { c with properties := c.properties ++ [p] }

/-- A body with one more method. -/
def ClassBody.withMethod (c : ClassBody) (m : Method) : ClassBody :=
  { c with methods := c.methods ++ [m] }

/-- An entity with one more property. -/
def Entity.withProperty (e : Entity) (p : Property) : Entity :=
  { e with toClassBody := e.toClassBody.withProperty p }

/-- An entity with one more property, which identifies it. -/
def Entity.withIdProperty (e : Entity) (p : Property) : Entity :=
  { e with toClassBody := e.toClassBody.withProperty p, idUuid := p.uuid }

/-- The entity as the root of its aggregation. -/
def Entity.asAggregationRoot (e : Entity) : Entity :=
  { e with isAggregationRoot := true }

/-! ## In JSON -/

namespace Property

/-- The property written by a value. -/
def ofJson? (held : Bool) (j : Json) : Option Property := do
  let fields ← object? j
  let naming ← Naming.ofFields? fields
  let type ← Json.optional fields "type" (TypeExpr.ofJson? held)
  let access ← Json.optional fields "access" (choice? Access.names)
  let optional ← Json.optional fields "optional" bool?
  some { toNaming := naming, type, access, optional }

/-- The value that writes a property. -/
def toJson (p : Property) : Json :=
  .obj (p.toNaming.fields ++ fieldSome "type" TypeExpr.toJson p.type
    ++ fieldSome "access" Access.toJson p.access ++ fieldSome "optional" .bool p.optional)

end Property

namespace Parameter

/-- The parameter written by a value. -/
def ofJson? (held : Bool) (j : Json) : Option Parameter := do
  let fields ← object? j
  let naming ← Naming.ofFields? fields
  let type ← optional fields "type" (TypeExpr.ofJson? held)
  some { toNaming := naming, type }

/-- The value that writes a parameter. -/
def toJson (p : Parameter) : Json :=
  .obj (p.toNaming.fields ++ fieldSome "type" TypeExpr.toJson p.type)

end Parameter

namespace Method

/-- The method written by a value. -/
def ofJson? (held : Bool) (j : Json) : Option Method := do
  let fields ← object? j
  let naming ← Naming.ofFields? fields
  let access ← optional fields "access" (choice? Access.names)
  let isAbstract ← optional fields "abstract" bool?
  let parameters ← orDefault fields "parameters" [] (list? (Parameter.ofJson? held))
  let result ← optional fields "result" (TypeExpr.ofJson? held)
  some { toNaming := naming, access, isAbstract, parameters, result }

/-- The value that writes a method. -/
def toJson (m : Method) : Json :=
  .obj (m.toNaming.fields ++ fieldSome "access" Access.toJson m.access
    ++ fieldSome "abstract" .bool m.isAbstract
    ++ field "parameters" (ofList Parameter.toJson m.parameters)
    ++ fieldSome "result" TypeExpr.toJson m.result)

end Method

namespace ClassBody

/-- The body among the fields of a class. -/
def ofFields? (held : Bool) (fields : Fields) : Option ClassBody := do
  let naming ← Naming.ofFields? fields
  let superclass ← optional fields "extends" str?
  let interfaces ← optional fields "implements" (list? str?)
  let isAbstract ← optional fields "abstract" bool?
  let properties ← orDefault fields "properties" [] (list? (Property.ofJson? held))
  let methods ← orDefault fields "methods" [] (list? (Method.ofJson? held))
  let classProperties ← orDefault fields "classProperties" [] (list? (Property.ofJson? held))
  let classMethods ← orDefault fields "classMethods" [] (list? (Method.ofJson? held))
  some { toNaming := naming, superclass, interfaces, isAbstract, properties, methods,
         classProperties, classMethods }

/-- The fields that write a body. -/
def fields (c : ClassBody) : Fields :=
  c.toNaming.fields ++ fieldSome "extends" .str c.superclass
    ++ fieldSome "implements" ofTexts c.interfaces ++ fieldSome "abstract" .bool c.isAbstract
    ++ field "properties" (ofList Property.toJson c.properties)
    ++ field "methods" (ofList Method.toJson c.methods)
    ++ field "classProperties" (ofList Property.toJson c.classProperties)
    ++ field "classMethods" (ofList Method.toJson c.classMethods)

/-- The body written by a value. -/
def ofJson? (j : Json) : Option ClassBody :=
  (object? j).bind (ofFields? false)

/-- The value that writes a body. -/
def toJson (c : ClassBody) : Json :=
  .obj c.fields

end ClassBody

namespace Entity

/-- The entity written by a value. -/
def ofJson? (j : Json) : Option Entity := do
  let fields ← object? j
  let body ← ClassBody.ofFields? true fields
  let idUuid ← orDefault fields "id" "" str?
  let isAggregationRoot ← orDefault fields "isAggregationRoot" false bool?
  some { toClassBody := body, idUuid, isAggregationRoot }

/-- The fields that write an entity. -/
def fields (e : Entity) : Fields :=
  e.toClassBody.fields ++ field "id" (.str e.idUuid)
    ++ field "isAggregationRoot" (.bool e.isAggregationRoot)

/-- The value that writes an entity. -/
def toJson (e : Entity) : Json :=
  .obj e.fields

end Entity

namespace ValueObject

/-- The value object written by a value. -/
def ofJson? (j : Json) : Option ValueObject :=
  ((object? j).bind (ClassBody.ofFields? true)).map ValueObject.mk

/-- The value that writes a value object. -/
def toJson (v : ValueObject) : Json :=
  .obj v.toClassBody.fields

end ValueObject

namespace Dto

/-- The data transfer object written by a value. -/
def ofJson? (j : Json) : Option Dto :=
  ((object? j).bind (ClassBody.ofFields? true)).map Dto.mk

/-- The value that writes a data transfer object. -/
def toJson (d : Dto) : Json :=
  .obj d.toClassBody.fields

end Dto

end DomainDesign.Model
