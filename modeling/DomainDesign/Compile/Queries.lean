import DomainDesign.Compile.Rendering
import DomainDesign.Compiled.Document
import DomainDesign.Register
import DomainDesign.Tree.Walk

/-!
# Compiling the query model

Every node of a query tree is compiled by itself to a `QueryPart`, and the parts are taken into a
`QueryState` in the order of the walk.  A rule belongs to the query that it names, wherever the two
stand, and is attached when the whole tree has been visited.
-/

namespace DomainDesign.Compile

open Compiled

/-- A visited node of a query tree. -/
inductive QueryPart where
  | query (id : String) (compiled : Query)
  | dto (compiled : Dto)
  | rule (id : String) (query : Option String) (compiled : Rule)
  | skipped (warnings : List Warning)

/-- A query at a node, without its rules. -/
def query (t : Tree) (c : Config) (n : Node) (q : Model.Query) : Query :=
  { toNaming := nodeNaming n q.toNaming, source := triggers q.source, pagination := q.pagination,
    properties := properties t c q.properties, result := result t c q.result }

/-- The part that a node is. -/
def queryPart (t : Tree) (c : Config) (n : Node) : Except Error QueryPart :=
  match n.kind with
  | .query => do
    let q ← n.read Model.Query.ofJson?
    .ok (.query n.id (query t c n q))
  | .dto => do
    let d ← n.read Model.Dto.ofJson?
    let body ← classBody t c n d.toClassBody
    .ok (.dto ⟨body⟩)
  | .rule => do
    let r ← n.read Model.Rule.ofJson?
    .ok (.rule n.id (r.aggregator.bind Model.Reference.target?) (rule n r))
  | _ => (foreign t c "query" n).map .skipped

/-- A query with one more rule. -/
def withQueryRule (q : Query) (r : Rule) : Query :=
  { q with rules := q.rules ++ [r] }

/-- What has been compiled of a query tree. -/
structure QueryState where
  queries : Register Query := {}
  dtos : List Dto := []
  warnings : List Warning := []

namespace QueryState

/-- Adds warnings. -/
def warn (s : QueryState) (warnings : List Warning) : QueryState :=
  { s with warnings := s.warnings ++ warnings }

/-- Attaches a rule to the query that it names. -/
def attachRule (target : String) (rule : Rule) (s : QueryState) : QueryState :=
  match s.queries.place? target with
  | some place => { s with queries := s.queries.modifyAt place (withQueryRule · rule) }
  | none => s.warn [.unknownRuleTarget .query rule.uuid target]

/-- The query model of what has been visited. -/
def report (s : QueryState) : Report QueryModel :=
  { result := ⟨s.queries.items, s.dtos⟩, warnings := s.warnings }

end QueryState

namespace QueryPart

/-- Takes in a part when it is visited. -/
def enter (part : QueryPart) (s : QueryState) : QueryState :=
  match part with
  | .query id compiled => { s with queries := s.queries.push id compiled }
  | .dto compiled => { s with dtos := s.dtos ++ [compiled] }
  | .rule id target _ => s.warn (if target.isNone then [.noRuleTarget .query id] else [])
  | .skipped warnings => s.warn warnings

/-- The changes that a part puts off. -/
def later (part : QueryPart) (_ : QueryState) : List (QueryState → QueryState) :=
  match part with
  | .rule _ (some target) compiled => [QueryState.attachRule target compiled]
  | _ => []

end QueryPart

/-- How a query tree is taken in. -/
def queryCollector : Tree.Collector QueryState QueryPart :=
  ⟨QueryPart.enter, QueryPart.later⟩

/-- Compiles a query tree. -/
def queryModel (t : Tree) (c : Config) : Except Error (Report QueryModel) :=
  (t.collect (queryPart t c) queryCollector {}).map QueryState.report

end DomainDesign.Compile
