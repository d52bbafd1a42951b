import DomainDesign.Json.Record
import DomainDesign.TypeExpr.Basic

/-!
# Type expressions in JSON

A type is an object with its shape under `type`: `base` with a `name`, `container` with a `name` and
`params`, `reference` with a `referenceId` and a `name`.  It may also be an array of the shape and
the fields in that order.  The parameters of a container are always read as held values.
-/

namespace DomainDesign.TypeExpr

open Json

/-- The shapes of a type. -/
inductive Shape where
  | base
  | container
  | reference
deriving DecidableEq

/-- The names of the shapes. -/
def Shape.names : List (String × Shape) :=
  [("base", .base), ("container", .container), ("reference", .reference)]

mutual

/-- The type written by a value. -/
def ofJson? (held : Bool) : Json → Option TypeExpr
  | .obj fields =>
    match required fields "type" (tag? held Shape.names) with
    | none => none
    | some .base => (required fields "name" str?).map .base
    | some .container =>
      (required fields "name" str?).bind fun name => (paramsField? fields).map (.container name)
    | some .reference =>
      (required fields "referenceId" str?).bind fun id =>
        (orDefault fields "name" "" str?).map (.reference id)
  | .arr (tag :: parts) => (tag? held Shape.names tag).bind fun shape => ofParts? shape parts
  | _ => none

/-- The type of a shape whose fields are written in order. -/
def ofParts? : Shape → List Json → Option TypeExpr
  | .base, [.str name] => some (.base name)
  | .container, [.str name] => some (.container name [])
  | .container, [.str name, .obj params] => (params? params).map (.container name)
  | .reference, [.str id] => some (.reference id "")
  | .reference, [.str id, .str name] => some (.reference id name)
  | _, _ => none

/-- The parameters under `params`; without that field there are none. -/
def paramsField? : List (String × Json) → Option (List (String × Option TypeExpr))
  | [] => some []
  | (key, .obj params) :: rest => if key = "params" then params? params else paramsField? rest
  | (key, _) :: rest => if key = "params" then none else paramsField? rest

/-- The parameters written by the fields of an object; null is a parameter without a type. -/
def params? : List (String × Json) → Option (List (String × Option TypeExpr))
  | [] => some []
  | (key, .null) :: rest => (params? rest).map ((key, none) :: ·)
  | (key, j) :: rest =>
    (ofJson? true j).bind fun t => (params? rest).map ((key, some t) :: ·)

end

mutual

/-- The value that writes a type. -/
def toJson : TypeExpr → Json
  | .base name => .obj [("type", .str "base"), ("name", .str name)]
  | .container name params =>
    .obj [("type", .str "container"), ("name", .str name), ("params", .obj (paramFields params))]
  | .reference id name =>
    .obj [("type", .str "reference"), ("referenceId", .str id), ("name", .str name)]

/-- The fields that write the parameters. -/
def paramFields : List (String × Option TypeExpr) → List (String × Json)
  | [] => []
  | (key, none) :: rest => (key, .null) :: paramFields rest
  | (key, some t) :: rest => (key, toJson t) :: paramFields rest

end

end DomainDesign.TypeExpr
