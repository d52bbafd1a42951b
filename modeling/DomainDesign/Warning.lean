/-!
# Warnings

What a compiler leaves out, and what it misses, without stopping.
-/

namespace DomainDesign

/-- The parts of a domain that belong to an aggregation by their place in the tree. -/
inductive Member where
  | entity
  | valueObject
  | enumeration
deriving DecidableEq, Inhabited, Repr

/-- How a warning speaks of such a part. -/
def Member.label : Member → String
  | .entity => "entity"
  | .valueObject => "value object"
  | .enumeration => "enum"

/-- What a rule may hold for. -/
inductive RuleTarget where
  | command
  | query
deriving DecidableEq, Inhabited, Repr

/-- How a warning speaks of what a rule holds for. -/
def RuleTarget.label : RuleTarget → String
  | .command => "command"
  | .query => "query"

/-- The two sides of a mapper. -/
inductive Side where
  | source
  | target
deriving DecidableEq, Inhabited, Repr

/-- How a warning speaks of a side of a mapper. -/
def Side.label : Side → String
  | .source => "source"
  | .target => "target"

/-- Something left out or missed. -/
inductive Warning where
  | foreignNode (id kind stage : String)
  | noIdentifier (entity : String)
  | outsideAggregation (member : Member) (id : String)
  | noAggregation (command : String)
  | unknownAggregation (command aggregation : String)
  | noRuleTarget (target : RuleTarget) (rule : String)
  | unknownRuleTarget (target : RuleTarget) (rule id : String)
  | noRoot (aggregation : String)
  | missingColumn (object column : String)
  | unresolvedSide (side : Side) (mapper : String)
  | unresolvedPair (mapper pair : String)
deriving DecidableEq, Inhabited, Repr

namespace Warning

/-- The text of a warning. -/
def message : Warning → String
  | .foreignNode id kind stage => s!"skipping node '{id}' of kind '{kind}' in the {stage} model"
  | .noIdentifier entity => s!"entity '{entity}' has no identifier property"
  | .outsideAggregation member id =>
    s!"{member.label} '{id}' is outside any aggregation, skipped"
  | .noAggregation command => s!"command '{command}' names no aggregation, skipped"
  | .unknownAggregation command aggregation =>
    s!"command '{command}' names unknown aggregation '{aggregation}', skipped"
  | .noRuleTarget target rule => s!"rule '{rule}' names no {target.label}, skipped"
  | .unknownRuleTarget target rule id =>
    s!"rule '{rule}' names unknown {target.label} '{id}', skipped"
  | .noRoot aggregation => s!"aggregation '{aggregation}' has no aggregate root"
  | .missingColumn object column =>
    s!"data object '{object}' column '{column}' references a missing column, skipped"
  | .unresolvedSide side mapper =>
    s!"mapper '{mapper}' has an unresolvable {side.label} object, skipped"
  | .unresolvedPair mapper pair =>
    s!"mapper '{mapper}' field pair '{pair}' does not resolve, skipped"

end Warning

/-- A result with the warnings that led to it. -/
structure Report (α : Type) where
  result : α
  warnings : List Warning := []

end DomainDesign
