import DomainDesign.Compile.Rendering
import DomainDesign.Compiled.Document
import DomainDesign.Register
import DomainDesign.Tree.Walk

/-!
# Compiling the domain model

Every node of a domain tree is compiled by itself to a `DomainPart`, and the parts are taken into a
`DomainState` in the order of the walk.

An entity, value object or enumeration belongs to the aggregation it stands under, and is put there
when it is visited, if the aggregation has been visited before it.  A command belongs to the
aggregation that it names and a rule to the command that it names, wherever they stand: both are
attached when the whole tree has been visited.  What belongs nowhere is left out with a warning.
-/

namespace DomainDesign.Compile

open Compiled

/-- A visited node of a domain tree. -/
inductive DomainPart where
  | aggregation (id : String) (naming : Naming)
  | entity (id : String) (owner : Option String) (compiled : Entity)
  | valueObject (id : String) (owner : Option String) (compiled : ValueObject)
  | enumeration (id : String) (owner : Option String) (compiled : Enumeration)
  | command (id : String) (aggregation : Option String) (compiled : Command)
  | rule (id : String) (command : Option String) (compiled : Rule)
  | skipped (warnings : List Warning)

/-! ## Single nodes -/

/-- The id of the aggregation that a node stands under. -/
def owner? (t : Tree) (n : Node) : Option String :=
  (t.parent? n).bind fun p => if p.kind = .aggregation then some p.id else none

/-- The uuid of the property that identifies the entity at a node. -/
def idUuid (c : Config) (n : Node) (e : Model.Entity) : String :=
  (n.text? c.idField).getD e.idUuid

/-- An entity at a node.  The properties with the identifying uuid stand apart, and the first of
them is the identifying property. -/
def entity (t : Tree) (c : Config) (n : Node) (e : Model.Entity) : Except Error Entity := do
  let body ← classBody t c n e.toClassBody
  let identifying (p : Property) : Bool := !(idUuid c n e).isEmpty && p.uuid = idUuid c n e
  .ok { toClassBody :=
          { body with properties := body.properties.filter fun p => !identifying p }
        id := body.properties.find? identifying
        isAggregationRoot := some e.isAggregationRoot }

/-- A command at a node, without its rules. -/
def command (t : Tree) (c : Config) (n : Node) (m : Model.Command) : Command :=
  let naming := nodeNaming n m.toNaming
  { toNaming := naming, source := triggers m.source, repository := m.repository,
    eventSendable := m.eventSendable, properties := properties t c m.properties,
    event :=
      { uuid := naming.uuid, name := naming.name ++ "Event",
        properties := properties t c m.eventProperties },
    result := result t c m.result }

/-- The part that a node is. -/
def domainPart (t : Tree) (c : Config) (n : Node) : Except Error DomainPart :=
  match n.kind with
  | .aggregation => do
    let a ← n.read Model.Aggregation.ofJson?
    .ok (.aggregation n.id (nodeNaming n a.toNaming))
  | .entity => do
    let e ← n.read Model.Entity.ofJson?
    let compiled ← entity t c n e
    .ok (.entity n.id (owner? t n) compiled)
  | .valueObject => do
    let v ← n.read Model.ValueObject.ofJson?
    let body ← classBody t c n v.toClassBody
    .ok (.valueObject n.id (owner? t n) ⟨body⟩)
  | .enumeration => do
    let e ← n.read Model.Enumeration.ofJson?
    .ok (.enumeration n.id (owner? t n) (enumeration n e))
  | .command => do
    let m ← n.read Model.Command.ofJson?
    .ok (.command n.id (m.aggregation.bind Model.Reference.target?) (command t c n m))
  | .rule => do
    let r ← n.read Model.Rule.ofJson?
    .ok (.rule n.id (r.aggregator.bind Model.Reference.target?) (rule n r))
  | _ => (foreign t c "domain" n).map .skipped

/-! ## What has been visited -/

/-- An aggregation while its tree is walked: its members, and the places of its commands. -/
structure Slot where
  naming : Naming
  entities : List Entity := []
  valueObjects : List ValueObject := []
  enums : List Enumeration := []
  commands : List Nat := []

namespace Slot

/-- The aggregation with one more entity. -/
def withEntity (s : Slot) (e : Entity) : Slot :=
  { s with entities := s.entities ++ [e] }

/-- The aggregation with one more value object. -/
def withValueObject (s : Slot) (v : ValueObject) : Slot :=
  { s with valueObjects := s.valueObjects ++ [v] }

/-- The aggregation with one more enumeration. -/
def withEnum (s : Slot) (e : Enumeration) : Slot :=
  { s with enums := s.enums ++ [e] }

/-- The aggregation with the command at a place. -/
def withCommand (s : Slot) (place : Nat) : Slot :=
  { s with commands := s.commands ++ [place] }

end Slot

/-- A command with one more rule. -/
def withRule (c : Command) (r : Rule) : Command :=
  { c with rules := c.rules ++ [r] }

/-- What has been compiled of a domain tree. -/
structure DomainState where
  aggregates : Register Slot := {}
  commands : Register Command := {}
  warnings : List Warning := []

namespace DomainState

/-- Adds warnings. -/
def warn (s : DomainState) (warnings : List Warning) : DomainState :=
  { s with warnings := s.warnings ++ warnings }

/-- Adds a member to the aggregation it stands under, if that has been visited. -/
def addMember (s : DomainState) (member : Member) (id : String) (owner : Option String)
    (add : Slot → Slot) : DomainState :=
  match owner.bind s.aggregates.place? with
  | some place => { s with aggregates := s.aggregates.modifyAt place add }
  | none => s.warn [.outsideAggregation member id]

/-- Attaches the command at a place to the aggregation that it names. -/
def attachCommand (target : String) (place : Nat) (s : DomainState) : DomainState :=
  match s.aggregates.place? target with
  | some slot => { s with aggregates := s.aggregates.modifyAt slot (·.withCommand place) }
  | none =>
    let uuid := (s.commands.items[place]?.map (·.uuid)).getD ""
    s.warn [.unknownAggregation uuid target]

/-- Attaches a rule to the command that it names. -/
def attachRule (target : String) (rule : Rule) (s : DomainState) : DomainState :=
  match s.commands.place? target with
  | some place => { s with commands := s.commands.modifyAt place (withRule · rule) }
  | none => s.warn [.unknownRuleTarget .command rule.uuid target]

end DomainState

namespace DomainPart

/-- Takes in a part when it is visited. -/
def enter (part : DomainPart) (s : DomainState) : DomainState :=
  match part with
  | .aggregation id naming => { s with aggregates := s.aggregates.push id { naming } }
  | .entity id owner compiled =>
    (s.warn (if compiled.id.isNone then [.noIdentifier id] else [])).addMember .entity id owner
      (·.withEntity compiled)
  | .valueObject id owner compiled =>
    s.addMember .valueObject id owner (·.withValueObject compiled)
  | .enumeration id owner compiled => s.addMember .enumeration id owner (·.withEnum compiled)
  | .command id target compiled =>
    { s with commands := s.commands.push id compiled }.warn
      (if target.isNone then [.noAggregation id] else [])
  | .rule id target _ => s.warn (if target.isNone then [.noRuleTarget .command id] else [])
  | .skipped warnings => s.warn warnings

/-- The changes that a part puts off, where `s` is the state before it is taken in. -/
def later (part : DomainPart) (s : DomainState) : List (DomainState → DomainState) :=
  match part with
  | .command _ (some target) _ => [DomainState.attachCommand target s.commands.items.length]
  | .rule _ (some target) compiled => [DomainState.attachRule target compiled]
  | _ => []

end DomainPart

/-- How a domain tree is taken in. -/
def domainCollector : Tree.Collector DomainState DomainPart :=
  ⟨DomainPart.enter, DomainPart.later⟩

/-! ## The whole -/

/-- Takes the commands at places out of those that are left.  A command can be taken once. -/
def takeCommands : List Nat → List (Option Command) → List Command × List (Option Command)
  | [], left => ([], left)
  | place :: rest, left =>
    match left[place]? with
    | some (some command) =>
      let (others, left) := takeCommands rest (left.set place none)
      (command :: others, left)
    | _ => takeCommands rest left

/-- An aggregation with its commands.  The first of its entities that says so is the root. -/
def aggregate (slot : Slot) (commands : List Command) : Aggregate :=
  let isRoot (e : Entity) : Bool := e.isAggregationRoot = some true
  { toNaming := slot.naming, root := slot.entities.find? isRoot,
    entities := slot.entities.eraseP isRoot, valueObjects := slot.valueObjects,
    enums := slot.enums, commands }

/-- The aggregations, one after the other taking their commands. -/
def assemble : List Slot → List (Option Command) → List Aggregate
  | [], _ => []
  | slot :: rest, left =>
    let (commands, left) := takeCommands slot.commands left
    aggregate slot commands :: assemble rest left

/-- The warning that an aggregation has no root. -/
def rootWarnings (a : Aggregate) : List Warning :=
  if a.root.isNone then [.noRoot a.name] else []

/-- The domain model of what has been visited. -/
def DomainState.report (s : DomainState) : Report DomainModel :=
  let all := assemble s.aggregates.items (s.commands.items.map some)
  { result := ⟨all⟩, warnings := s.warnings ++ all.flatMap rootWarnings }

/-- Compiles a domain tree. -/
def domainModel (t : Tree) (c : Config) : Except Error (Report DomainModel) :=
  (t.collect (domainPart t c) domainCollector {}).map DomainState.report

end DomainDesign.Compile
