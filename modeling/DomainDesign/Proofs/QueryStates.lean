import DomainDesign.Compile.Queries
import DomainDesign.Proofs.Registers
import DomainDesign.Proofs.Walks

/-!
# What the query compiler collects

The queries and the data transfer objects of a query model stand in the order of the walk, and what
is put off is to attach the rules.

`report_settle` says what is collected where there are no rules.  Where there are some, it matters
that a rule finds the query that it names: `holds_enterAll` says what the register of queries holds
when all parts have been taken in, and `holds_attachAll` that making the changes adds to each query
the rules that name it, in order, and does nothing else.
-/

namespace DomainDesign.Compile

open Compiled

namespace QueryPart

/-- The query that a part is. -/
def query? : QueryPart → Option Query
  | .query _ compiled => some compiled
  | _ => none

/-- The data transfer object that a part is. -/
def dto? : QueryPart → Option Dto
  | .dto compiled => some compiled
  | _ => none

/-- The query that a part is, with its id. -/
def keyed? : QueryPart → Option (String × Query)
  | .query id compiled => some (id, compiled)
  | _ => none

/-- The rule that a part is, if it names the query with an id. -/
def ruleFor? (id : String) : QueryPart → Option Rule
  | .rule _ target compiled => if target = some id then some compiled else none
  | _ => none

/-- The change that a part puts off: a rule is attached to the query that it names. -/
def attachment? : QueryPart → Option (QueryState → QueryState)
  | .rule _ (some target) compiled => some (QueryState.attachRule target compiled)
  | _ => none

end QueryPart

/-- **Taking in all parts.** -/
lemma enterAll_queries (parts : List QueryPart) (s : QueryState) :
    (queryCollector.enterAll parts s).1.queries.items
      = s.queries.items ++ parts.filterMap (·.query?)
      ∧ (queryCollector.enterAll parts s).1.dtos = s.dtos ++ parts.filterMap (·.dto?)
      ∧ (queryCollector.enterAll parts s).2 = parts.filterMap (·.attachment?) := by
  induction parts generalizing s with
  | nil => exact ⟨(List.append_nil _).symm, (List.append_nil _).symm, rfl⟩
  | cons part rest ih =>
      obtain ⟨hqueries, hdtos, hchanges⟩ := ih (part.enter s)
      have henter : queryCollector.enterAll (part :: rest) s
          = ((queryCollector.enterAll rest (part.enter s)).1,
              part.later s ++ (queryCollector.enterAll rest (part.enter s)).2) := rfl
      rw [henter, hqueries, hdtos, hchanges]
      cases part with
      | query id compiled =>
          simp [QueryPart.query?, QueryPart.dto?, QueryPart.attachment?, QueryPart.enter,
            QueryPart.later, Register.push]
      | dto compiled =>
          simp [QueryPart.query?, QueryPart.dto?, QueryPart.attachment?, QueryPart.enter,
            QueryPart.later]
      | rule id target compiled =>
          cases target <;>
            simp [QueryPart.query?, QueryPart.dto?, QueryPart.attachment?, QueryPart.enter,
              QueryPart.later, QueryState.warn]
      | skipped warnings =>
          simp [QueryPart.query?, QueryPart.dto?, QueryPart.attachment?, QueryPart.enter,
            QueryPart.later, QueryState.warn]

/-- Where there are no rules, the parts make up the query model. -/
lemma report_settle {parts : List QueryPart} (hrules : parts.filterMap (·.attachment?) = []) :
    (queryCollector.settle {} parts).report.result
      = ⟨parts.filterMap (·.query?), parts.filterMap (·.dto?)⟩ := by
  obtain ⟨hqueries, hdtos, hchanges⟩ := enterAll_queries parts {}
  rw [hrules] at hchanges
  rw [Tree.Collector.settle, hchanges, List.foldl_nil, QueryState.report, hqueries, hdtos]
  rfl

/-! ## Rules -/

/-- A query with more rules. -/
def withQueryRules (q : Query) (rules : List Rule) : Query :=
  { q with rules := q.rules ++ rules }

@[simp] lemma withQueryRules_nil (q : Query) : withQueryRules q [] = q := by
  simp [withQueryRules]

lemma withQueryRules_withQueryRules (q : Query) (before after : List Rule) :
    withQueryRules (withQueryRules q before) after = withQueryRules q (before ++ after) := by
  simp [withQueryRules]

variable {s : QueryState} {entries : List (String × Query)}

/-- **The register holds the queries among the parts.** -/
lemma QueryState.holds_enterAll {parts : List QueryPart} (h : s.queries.Holds entries)
    (hnodup : ((entries ++ parts.filterMap (·.keyed?)).map (·.1)).Nodup) :
    (queryCollector.enterAll parts s).1.queries.Holds (entries ++ parts.filterMap (·.keyed?)) := by
  induction parts generalizing s entries with
  | nil => simpa [Tree.Collector.enterAll] using h
  | cons part rest ih =>
      change (queryCollector.enterAll rest (part.enter s)).1.queries.Holds _
      cases part with
      | query id compiled =>
          have hentries : (QueryPart.query id compiled :: rest).filterMap (·.keyed?)
              = (id, compiled) :: rest.filterMap (·.keyed?) := rfl
          rw [hentries] at hnodup ⊢
          have hid : id ∉ entries.map (·.1) := key_notMem_before hnodup
          rw [List.append_cons] at hnodup ⊢
          exact ih (h.push hid compiled) hnodup
      | _ => exact ih h hnodup

/-- A rule is attached to the query that it names and to no other. -/
lemma QueryState.holds_attachRule (h : s.queries.Holds entries) (hnodup : (entries.map (·.1)).Nodup)
    (target : String) (rule : Rule) :
    (s.attachRule target rule).queries.Holds
      (Register.changeAt target (withQueryRule · rule) entries) := by
  simp only [QueryState.attachRule]
  cases hplace : s.queries.place? target with
  | some place => exact h.modifyAt hnodup hplace _
  | none =>
      rw [h.changeAt_eq hplace]
      exact h

/-- The rule of one part. -/
lemma changeAt_withQueryRule (id target : String) (rule : Rule) :
    Register.changeAt target (withQueryRule · rule) entries
      = entries.map fun e =>
        (e.1, withQueryRules e.2 ([QueryPart.rule id (some target) rule].filterMap
          (·.ruleFor? e.1))) := by
  refine List.map_congr_left fun e _ => ?_
  by_cases he : e.1 = target
  · simp [QueryPart.ruleFor?, he, withQueryRules, withQueryRule]
  · simp [QueryPart.ruleFor?, he, Ne.symm he]

/-- **Making all changes** adds to each query the rules that name it. -/
lemma QueryState.holds_attachAll (h : s.queries.Holds entries) (hnodup : (entries.map (·.1)).Nodup)
    (parts : List QueryPart) :
    ((parts.filterMap (·.attachment?)).foldl (fun s change => change s) s).queries.Holds
      (entries.map fun e => (e.1, withQueryRules e.2 (parts.filterMap (·.ruleFor? e.1)))) := by
  induction parts generalizing s entries with
  | nil => simpa using h
  | cons part rest ih =>
      cases hchange : part.attachment? with
      | none =>
          have hnone : ∀ id, part.ruleFor? id = none := by
            intro id
            cases part with
            | rule _ target => cases target <;> simp [QueryPart.attachment?,
                QueryPart.ruleFor?] at hchange ⊢
            | _ => rfl
          simp only [List.filterMap_cons, hchange, hnone]
          exact ih h hnodup
      | some change =>
          obtain ⟨id, target, rule, rfl⟩ :
              ∃ id target rule, part = .rule id (some target) rule := by
            cases part with
            | rule id target rule =>
                cases target with
                | none => cases hchange
                | some target => exact ⟨id, target, rule, rfl⟩
            | _ => cases hchange
          have hstep := QueryState.holds_attachRule h hnodup target rule
          rw [changeAt_withQueryRule id] at hstep
          have hrest := ih hstep (by simpa [Function.comp_def] using hnodup)
          rw [List.map_map] at hrest
          simp only [Function.comp_def, withQueryRules_withQueryRules, ← List.filterMap_append,
            List.singleton_append] at hrest
          exact hrest

lemma QueryState.dtos_attachAll (parts : List QueryPart) (s : QueryState) :
    ((parts.filterMap (·.attachment?)).foldl (fun s change => change s) s).dtos = s.dtos := by
  induction parts generalizing s with
  | nil => rfl
  | cons part rest ih =>
      cases part with
      | rule id target rule =>
          cases target with
          | none => exact ih s
          | some target =>
              refine (ih (s.attachRule target rule)).trans ?_
              rw [QueryState.attachRule]
              split <;> rfl
      | _ => exact ih s

/-- **What the query compiler makes of parts.** -/
theorem queryModel_of_settle {parts : List QueryPart}
    (hnodup : ((parts.filterMap (·.keyed?)).map (·.1)).Nodup) :
    (queryCollector.settle {} parts).report.result
      = ⟨(parts.filterMap (·.keyed?)).map fun e =>
          withQueryRules e.2 (parts.filterMap (·.ruleFor? e.1)), parts.filterMap (·.dto?)⟩ := by
  obtain ⟨-, hdtos, hchanges⟩ := enterAll_queries parts {}
  have hempty : ({} : QueryState).queries.Holds [] := Register.holds_empty
  have hentered := QueryState.holds_enterAll hempty hnodup
  have hsettled := QueryState.holds_attachAll hentered hnodup parts
  rw [Tree.Collector.settle, hchanges, QueryState.report, hsettled.items,
    QueryState.dtos_attachAll, hdtos, List.map_map]
  rfl

end DomainDesign.Compile
