import DomainDesign.Model.Class

/-!
# Aggregations, commands, queries and rules

What a domain does: commands change an aggregation and raise an event, queries answer, and rules
hold for a command or a query.  Commands and queries have triggers, which are requests from outside,
calls from other services, events and schedules.
-/

namespace DomainDesign.Model

open Json

/-- An aggregation. -/
structure Aggregation extends Naming
deriving DecidableEq, Inhabited, Repr

/-- A rule, with the command or query it holds for. -/
structure Rule extends Naming where
  aggregator : Option Reference := none
deriving DecidableEq, Inhabited, Repr

/-- A trigger that has to be told what to wait for. -/
structure Trigger where
  enabled : Bool := false
  value : String := ""
deriving DecidableEq, Inhabited, Repr

/-- The triggers of a command or query. -/
structure Triggers where
  http : Bool := true
  rpc : Bool := true
  event : Trigger := {}
  schedule : Trigger := {}
deriving DecidableEq, Repr

instance : Inhabited Triggers := ⟨{}⟩

/-- What a command does to the objects of its aggregation. -/
inductive Repository where
  | create
  | modify
  | remove
deriving DecidableEq, Inhabited, Repr

/-- The names of what a command does. -/
def Repository.names : List (String × Repository) :=
  [("create", .create), ("modify", .modify), ("remove", .remove)]

/-- The value that writes what a command does. -/
def Repository.toJson (r : Repository) : Json :=
  .str (nameOf Repository.names r)

/-- A command. -/
structure Command extends Naming where
  source : Triggers := {}
  repository : Repository := .modify
  eventSendable : Bool := false
  properties : List Property := []
  eventProperties : List Property := []
  result : Option TypeExpr := none
  aggregation : Option Reference := none
deriving DecidableEq, Inhabited

/-- A query. -/
structure Query extends Naming where
  source : Triggers := {}
  pagination : Bool := false
  properties : List Property := []
  result : Option TypeExpr := none
deriving DecidableEq, Inhabited

/-! ## In JSON -/

namespace Aggregation

/-- The aggregation written by a value. -/
def ofJson? (j : Json) : Option Aggregation :=
  ((object? j).bind Naming.ofFields?).map Aggregation.mk

/-- The value that writes an aggregation. -/
def toJson (a : Aggregation) : Json :=
  .obj a.toNaming.fields

end Aggregation

namespace Rule

/-- The rule written by a value. -/
def ofJson? (j : Json) : Option Rule := do
  let fields ← object? j
  let naming ← Naming.ofFields? fields
  let aggregator ← optional fields "aggregator" Reference.ofJson?
  some { toNaming := naming, aggregator }

/-- The value that writes a rule. -/
def toJson (r : Rule) : Json :=
  .obj (r.toNaming.fields ++ fieldSome "aggregator" Reference.toJson r.aggregator)

end Rule

namespace Trigger

/-- Whether a trigger without a value is enabled. -/
def flagOfJson? (j : Json) : Option Bool := do
  let fields ← record? ["enabled"] j
  orDefault fields "enabled" false bool?

/-- The value that writes whether a trigger is enabled. -/
def flagToJson (enabled : Bool) : Json :=
  .obj (field "enabled" (.bool enabled))

/-- The trigger written by a value. -/
def ofJson? (j : Json) : Option Trigger := do
  let fields ← record? ["enabled", "value"] j
  let enabled ← orDefault fields "enabled" false bool?
  let value ← orDefault fields "value" "" str?
  some ⟨enabled, value⟩

/-- The value that writes a trigger. -/
def toJson (t : Trigger) : Json :=
  .obj (field "enabled" (.bool t.enabled) ++ field "value" (.str t.value))

end Trigger

namespace Triggers

/-- The triggers written by a value. -/
def ofJson? (j : Json) : Option Triggers := do
  let fields ← record? ["http", "rpc", "event", "schedule"] j
  let http ← orDefault fields "http" true Trigger.flagOfJson?
  let rpc ← orDefault fields "rpc" true Trigger.flagOfJson?
  let event ← orDefault fields "event" {} Trigger.ofJson?
  let schedule ← orDefault fields "schedule" {} Trigger.ofJson?
  some { http, rpc, event, schedule }

/-- The value that writes triggers. -/
def toJson (t : Triggers) : Json :=
  .obj (field "http" (Trigger.flagToJson t.http) ++ field "rpc" (Trigger.flagToJson t.rpc)
    ++ field "event" t.event.toJson ++ field "schedule" t.schedule.toJson)

end Triggers

namespace Command

/-- The command written by a value. -/
def ofJson? (j : Json) : Option Command := do
  let fields ← object? j
  let naming ← Naming.ofFields? fields
  let source ← orDefault fields "source" {} Triggers.ofJson?
  let repository ← orDefault fields "repository" .modify (choice? Repository.names)
  let eventSendable ← orDefault fields "eventSendable" false bool?
  let properties ← orDefault fields "properties" [] (list? (Property.ofJson? false))
  let eventProperties ← orDefault fields "eventProperties" [] (list? (Property.ofJson? false))
  let result ← optional fields "result" (TypeExpr.ofJson? false)
  let aggregation ← optional fields "aggregation" Reference.ofJson?
  some { toNaming := naming, source, repository, eventSendable, properties, eventProperties,
         result, aggregation }

/-- The value that writes a command. -/
def toJson (c : Command) : Json :=
  .obj (c.toNaming.fields ++ field "source" c.source.toJson
    ++ field "repository" c.repository.toJson ++ field "eventSendable" (.bool c.eventSendable)
    ++ field "properties" (ofList Property.toJson c.properties)
    ++ field "eventProperties" (ofList Property.toJson c.eventProperties)
    ++ fieldSome "result" TypeExpr.toJson c.result
    ++ fieldSome "aggregation" Reference.toJson c.aggregation)

end Command

namespace Query

/-- The query written by a value. -/
def ofJson? (j : Json) : Option Query := do
  let fields ← object? j
  let naming ← Naming.ofFields? fields
  let source ← orDefault fields "source" {} Triggers.ofJson?
  let pagination ← orDefault fields "pagination" false bool?
  let properties ← orDefault fields "properties" [] (list? (Property.ofJson? false))
  let result ← optional fields "result" (TypeExpr.ofJson? false)
  some { toNaming := naming, source, pagination, properties, result }

/-- The value that writes a query. -/
def toJson (q : Query) : Json :=
  .obj (q.toNaming.fields ++ field "source" q.source.toJson
    ++ field "pagination" (.bool q.pagination)
    ++ field "properties" (ofList Property.toJson q.properties)
    ++ fieldSome "result" TypeExpr.toJson q.result)

end Query

end DomainDesign.Model
