import DomainDesign.Compiled.Class
import DomainDesign.Model.Behaviour
import DomainDesign.Model.Enumeration

/-!
# Compiled enumerations, commands and queries

Commands and queries with their triggers as a list, their rules, and the type of their result
written out.  A command carries the event that it raises.
-/

namespace DomainDesign.Compiled

open Json

/-- A member of an enumeration. -/
structure EnumMember extends Naming where
  code : Model.EnumCode
deriving DecidableEq, Inhabited

/-- An enumeration. -/
structure Enumeration extends Naming where
  base : Model.EnumBase
  members : List EnumMember
deriving DecidableEq, Inhabited

/-- A trigger of a command or query. -/
inductive Trigger where
  | http
  | rpc
  | event (value : String)
  | schedule (value : String)
deriving DecidableEq, Inhabited, Repr

/-- A rule. -/
structure Rule extends Naming
deriving DecidableEq, Inhabited, Repr

/-- The event that a command raises. -/
structure Event extends Naming where
  properties : List Property
deriving DecidableEq, Inhabited, Repr

/-- A command. -/
structure Command extends Naming where
  source : List Trigger
  repository : Model.Repository
  eventSendable : Bool
  properties : List Property
  event : Event
  rules : List Rule := []
  result : Return
deriving DecidableEq, Inhabited, Repr

/-- A query. -/
structure Query extends Naming where
  source : List Trigger
  rules : List Rule := []
  pagination : Bool
  properties : List Property
  result : Return
deriving DecidableEq, Inhabited, Repr

/-! ## In JSON -/

namespace EnumMember

/-- The member written by a value. -/
def ofJson? (j : Json) : Option EnumMember := do
  let fields ← object? j
  let naming ← Naming.ofFields? fields
  let code ← required fields "code" Model.EnumCode.ofJson?
  some { toNaming := naming, code }

/-- The value that writes a member. -/
def toJson (m : EnumMember) : Json :=
  .obj (m.toNaming.fields ++ field "code" m.code.toJson)

end EnumMember

namespace Enumeration

/-- The enumeration written by a value. -/
def ofJson? (j : Json) : Option Enumeration := do
  let fields ← object? j
  let naming ← Naming.ofFields? fields
  let base ← required fields "baseType" (choice? Model.EnumBase.names)
  let members ← required fields "members" (list? EnumMember.ofJson?)
  some { toNaming := naming, base, members }

/-- The value that writes an enumeration. -/
def toJson (e : Enumeration) : Json :=
  .obj (e.toNaming.fields ++ field "baseType" e.base.toJson
    ++ field "members" (ofList EnumMember.toJson e.members))

end Enumeration

namespace Trigger

/-- The kinds of triggers. -/
inductive Kind where
  | http
  | rpc
  | event
  | schedule
deriving DecidableEq, Inhabited, Repr

/-- The names of the kinds of triggers. -/
def Kind.names : List (String × Kind) :=
  [("http", .http), ("rpc", .rpc), ("event", .event), ("schedule", .schedule)]

/-- The trigger of a kind with its value among the fields. -/
def ofFields? (fields : Fields) : Kind → Option Trigger
  | .http => some .http
  | .rpc => some .rpc
  | .event => (required fields "value" str?).map .event
  | .schedule => (required fields "value" str?).map .schedule

/-- The names of the fields of a kind beside its tag. -/
def attributes : Kind → List String
  | .http | .rpc => []
  | .event | .schedule => ["value"]

/-- The trigger written by a value: an object with its kind under `type`, or an array of the kind
and the value. -/
def ofJson? : Json → Option Trigger
  | .obj fields => (required fields "type" (tag? false Kind.names)).bind (ofFields? fields)
  | .arr (tag :: parts) => do
    let kind ← tag? false Kind.names tag
    let fields ← record? (attributes kind) (.arr parts)
    ofFields? fields kind
  | _ => none

/-- The value that writes a trigger. -/
def toJson : Trigger → Json
  | .http => .obj (field "type" (.str "http"))
  | .rpc => .obj (field "type" (.str "rpc"))
  | .event value => .obj (field "type" (.str "event") ++ field "value" (.str value))
  | .schedule value => .obj (field "type" (.str "schedule") ++ field "value" (.str value))

end Trigger

namespace Rule

/-- The rule written by a value. -/
def ofJson? (j : Json) : Option Rule :=
  ((object? j).bind Naming.ofFields?).map Rule.mk

/-- The value that writes a rule. -/
def toJson (r : Rule) : Json :=
  .obj r.toNaming.fields

end Rule

namespace Event

/-- The event written by a value. -/
def ofJson? (j : Json) : Option Event := do
  let fields ← object? j
  let naming ← Naming.ofFields? fields
  let properties ← required fields "properties" (list? Property.ofJson?)
  some { toNaming := naming, properties }

/-- The value that writes an event. -/
def toJson (e : Event) : Json :=
  .obj (e.toNaming.fields ++ field "properties" (ofList Property.toJson e.properties))

end Event

namespace Command

/-- The command written by a value. -/
def ofJson? (j : Json) : Option Command := do
  let fields ← object? j
  let naming ← Naming.ofFields? fields
  let source ← required fields "source" (list? Trigger.ofJson?)
  let repository ← required fields "repository" (choice? Model.Repository.names)
  let eventSendable ← required fields "eventSendable" bool?
  let properties ← required fields "properties" (list? Property.ofJson?)
  let event ← required fields "event" Event.ofJson?
  let rules ← required fields "rules" (list? Rule.ofJson?)
  let result ← required fields "return" Return.ofJson?
  some { toNaming := naming, source, repository, eventSendable, properties, event, rules, result }

/-- The value that writes a command. -/
def toJson (c : Command) : Json :=
  .obj (c.toNaming.fields ++ field "source" (ofList Trigger.toJson c.source)
    ++ field "repository" c.repository.toJson ++ field "eventSendable" (.bool c.eventSendable)
    ++ field "properties" (ofList Property.toJson c.properties) ++ field "event" c.event.toJson
    ++ field "rules" (ofList Rule.toJson c.rules) ++ field "return" c.result.toJson)

end Command

namespace Query

/-- The query written by a value. -/
def ofJson? (j : Json) : Option Query := do
  let fields ← object? j
  let naming ← Naming.ofFields? fields
  let source ← required fields "source" (list? Trigger.ofJson?)
  let rules ← required fields "rules" (list? Rule.ofJson?)
  let pagination ← required fields "pagination" bool?
  let properties ← required fields "properties" (list? Property.ofJson?)
  let result ← required fields "return" Return.ofJson?
  some { toNaming := naming, source, rules, pagination, properties, result }

/-- The value that writes a query. -/
def toJson (q : Query) : Json :=
  .obj (q.toNaming.fields ++ field "source" (ofList Trigger.toJson q.source)
    ++ field "rules" (ofList Rule.toJson q.rules) ++ field "pagination" (.bool q.pagination)
    ++ field "properties" (ofList Property.toJson q.properties) ++ field "return" q.result.toJson)

end Query

end DomainDesign.Compiled
