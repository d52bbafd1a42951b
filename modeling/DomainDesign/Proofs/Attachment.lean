import DomainDesign.Proofs.DomainStates
import DomainDesign.Proofs.Reading

/-!
# Commands and rules are attached to what they name

A command names an aggregation and a rule names a command.  The compiler meets them in the order of
the walk, which may be before or after what they name, and attaches them in the end.
`attachment_exact` says that nothing of this can be seen in the result: the aggregates are the
visited aggregations, the commands of an aggregate are the visited commands that name it, and the
rules of a command are the visited rules that name it, each in the order of the walk.

`DomainStates` says what the compiler makes of a list of parts.  What is added here is where the
parts come from: `partOf_of_domainPart` tells of each visited node what part it is, and
`parts_of_domainModel` goes from the result back to the parts that the walk has read, node by node.
-/

namespace DomainDesign.Compile

open Compiled

/-! ## What the nodes name -/

/-- The aggregation that a command names. -/
def namedAggregation? (n : Node) : Option String :=
  (Model.Command.ofJson? (.obj n.properties)).bind fun m =>
    m.aggregation.bind Model.Reference.target?

/-- The command that a rule names, or the query where it stands among queries. -/
def namedCommand? (n : Node) : Option String :=
  (Model.Rule.ofJson? (.obj n.properties)).bind fun m =>
    m.aggregator.bind Model.Reference.target?

/-- The visited aggregations. -/
def aggregationNodes (t : Tree) : List Node :=
  t.visitOrder.filter fun n => n.kind = .aggregation

/-- The visited commands that name the aggregation with an id. -/
def commandNodes (t : Tree) (id : String) : List Node :=
  t.visitOrder.filter fun n => n.kind = .command ∧ namedAggregation? n = some id

/-- The visited rules that name the command or query with an id. -/
def ruleNodes (t : Tree) (id : String) : List Node :=
  t.visitOrder.filter fun n => n.kind = .rule ∧ namedCommand? n = some id

/-! ## What is compiled of a node -/

/-- A rule is that of a node. -/
structure RuleOf (n : Node) (compiled : Rule) : Prop where
  uuid : compiled.uuid = n.id
  content : ∃ m, Model.Rule.ofJson? (.obj n.properties) = some m ∧ compiled = rule n m

/-- A command is that of a node, and its rules are those that name it. -/
structure CommandOf (t : Tree) (c : Config) (n : Node) (compiled : Command) : Prop where
  uuid : compiled.uuid = n.id
  content : ∃ m, Model.Command.ofJson? (.obj n.properties) = some m
    ∧ { compiled with rules := [] } = command t c n m
  rules : List.Forall₂ RuleOf (ruleNodes t n.id) compiled.rules

/-- An aggregate is that of a node, and its commands are those that name it. -/
structure AggregateOf (t : Tree) (c : Config) (n : Node) (compiled : Aggregate) : Prop where
  uuid : compiled.uuid = n.id
  content : ∃ m, Model.Aggregation.ofJson? (.obj n.properties) = some m
    ∧ compiled.toNaming = nodeNaming n m.toNaming
  commands : List.Forall₂ (CommandOf t c) (commandNodes t n.id) compiled.commands

/-! ## What part a node is -/

/-- The part that a node is read as, by the kind of the node. -/
inductive PartOf (t : Tree) (c : Config) (n : Node) : DomainPart → Prop
  | aggregation {m : Model.Aggregation} (kind : n.kind = .aggregation)
      (read : Model.Aggregation.ofJson? (.obj n.properties) = some m) :
      PartOf t c n (.aggregation n.id (nodeNaming n m.toNaming))
  | entity {m : Model.Entity} {compiled : Entity} (kind : n.kind = .entity)
      (read : Model.Entity.ofJson? (.obj n.properties) = some m)
      (compile : entity t c n m = .ok compiled) :
      PartOf t c n (.entity n.id (owner? t n) compiled)
  | valueObject {m : Model.ValueObject} {body : ClassBody} (kind : n.kind = .valueObject)
      (read : Model.ValueObject.ofJson? (.obj n.properties) = some m)
      (compile : classBody t c n m.toClassBody = .ok body) :
      PartOf t c n (.valueObject n.id (owner? t n) ⟨body⟩)
  | enumeration {m : Model.Enumeration} (kind : n.kind = .enumeration)
      (read : Model.Enumeration.ofJson? (.obj n.properties) = some m) :
      PartOf t c n (.enumeration n.id (owner? t n) (enumeration n m))
  | command {m : Model.Command} (kind : n.kind = .command)
      (read : Model.Command.ofJson? (.obj n.properties) = some m) :
      PartOf t c n (.command n.id (namedAggregation? n) (command t c n m))
  | rule {m : Model.Rule} (kind : n.kind = .rule)
      (read : Model.Rule.ofJson? (.obj n.properties) = some m) :
      PartOf t c n (.rule n.id (namedCommand? n) (rule n m))
  | skipped {warnings : List Warning}
      (kind : n.kind ∉ [.aggregation, .entity, .valueObject, .enumeration, .command, .rule]) :
      PartOf t c n (.skipped warnings)

variable {t : Tree} {c : Config} {n : Node} {part : DomainPart} {parts : List DomainPart}

/-- **What a node can be read as.** -/
lemma partOf_of_domainPart (h : domainPart t c n = .ok part) : PartOf t c n part := by
  rw [domainPart] at h
  split at h
  next hkind =>
    simp only [bind_ok_iff, Node.read_eq_ok] at h
    obtain ⟨m, hread, hpart⟩ := h
    cases hpart
    exact .aggregation hkind hread
  next hkind =>
    simp only [bind_ok_iff, Node.read_eq_ok] at h
    obtain ⟨m, hread, compiled, hcompiled, hpart⟩ := h
    cases hpart
    exact .entity hkind hread hcompiled
  next hkind =>
    simp only [bind_ok_iff, Node.read_eq_ok] at h
    obtain ⟨m, hread, body, hbody, hpart⟩ := h
    cases hpart
    exact .valueObject hkind hread hbody
  next hkind =>
    simp only [bind_ok_iff, Node.read_eq_ok] at h
    obtain ⟨m, hread, hpart⟩ := h
    cases hpart
    exact .enumeration hkind hread
  next hkind =>
    simp only [bind_ok_iff, Node.read_eq_ok] at h
    obtain ⟨m, hread, hpart⟩ := h
    cases hpart
    have hnamed : namedAggregation? n = m.aggregation.bind Model.Reference.target? := by
      rw [namedAggregation?, hread, Option.bind_some]
    rw [← hnamed]
    exact .command hkind hread
  next hkind =>
    simp only [bind_ok_iff, Node.read_eq_ok] at h
    obtain ⟨m, hread, hpart⟩ := h
    cases hpart
    have hnamed : namedCommand? n = m.aggregator.bind Model.Reference.target? := by
      rw [namedCommand?, hread, Option.bind_some]
    rw [← hnamed]
    exact .rule hkind hread
  next =>
    obtain ⟨warnings, -, rfl⟩ := map_ok_iff.mp h
    refine .skipped ?_
    simp_all

/-- The nodes that pass their checks, with the parts that they are. -/
def Reads (t : Tree) (c : Config) (n : Node) (part : DomainPart) : Prop :=
  n.checkIdentity = .ok () ∧ PartOf t c n part

/-- A compilation that succeeds has read every visited node. -/
lemma parts_of_domainModel {r : Report DomainModel} (h : domainModel t c = .ok r) :
    ∃ parts, List.Forall₂ (Reads t c) t.visitOrder parts
      ∧ r = (domainCollector.settle {} parts).report := by
  rw [domainModel, Tree.collect_eq] at h
  obtain ⟨s, hs, rfl⟩ := map_ok_iff.mp h
  obtain ⟨parts, hparts, rfl⟩ := map_ok_iff.mp hs
  refine ⟨parts, ?_, rfl⟩
  exact (Tree.readAll_eq_ok_iff.mp hparts).imp fun n part h => ⟨h.1, partOf_of_domainPart h.2⟩

/-! ## Rules, commands and aggregations among the parts -/

lemma rules_of_parts (h : List.Forall₂ (Reads t c) t.visitOrder parts) (id : String) :
    List.Forall₂ RuleOf (ruleNodes t id) (parts.filterMap (·.ruleFor? id)) := by
  rw [ruleNodes, ← List.filterMap_eq_filter]
  refine List.rel_filterMap ?_ h
  rintro n part ⟨hcheck, hpart⟩
  cases hpart with
  | rule hkind hread =>
      by_cases hnamed : namedCommand? n = some id
      · simp only [Option.guard, hkind, hnamed, and_self, decide_true, if_true, DomainPart.ruleFor?]
        exact .some ⟨nodeNaming_uuid hcheck (Model.Rule.naming_of_ofJson? hread), _, hread, rfl⟩
      · simp [Option.guard, hkind, hnamed, DomainPart.ruleFor?]
  | skipped hkind =>
      simp only [List.mem_cons, List.not_mem_nil, or_false, not_or] at hkind
      simp [Option.guard, hkind, DomainPart.ruleFor?]
  | _ hkind => simp [Option.guard, hkind, DomainPart.ruleFor?]

/-- The visited commands, and what their parts say. -/
lemma commandParts (h : List.Forall₂ (Reads t c) t.visitOrder parts) :
    List.Forall₂ (fun n e => e.1 = n.id ∧ n.checkIdentity = .ok () ∧ e.2.1 = namedAggregation? n ∧
        ∃ m, Model.Command.ofJson? (.obj n.properties) = some m ∧ e.2.2 = command t c n m)
      (t.visitOrder.filter fun n => n.kind = .command) (parts.filterMap (·.command?)) := by
  rw [← List.filterMap_eq_filter]
  refine List.rel_filterMap ?_ h
  rintro n part ⟨hcheck, hpart⟩
  cases hpart with
  | command hkind hread =>
      simp only [Option.guard, hkind, decide_true, if_true, DomainPart.command?]
      exact .some ⟨rfl, hcheck, rfl, _, hread, rfl⟩
  | skipped hkind =>
      simp only [List.mem_cons, List.not_mem_nil, or_false, not_or] at hkind
      simp [Option.guard, hkind, DomainPart.command?]
  | _ hkind => simp [Option.guard, hkind, DomainPart.command?]

/-- The visited aggregations, and what their parts say. -/
lemma aggregationParts (h : List.Forall₂ (Reads t c) t.visitOrder parts) :
    List.Forall₂ (fun n e => e.1 = n.id ∧ n.checkIdentity = .ok () ∧
        ∃ m, Model.Aggregation.ofJson? (.obj n.properties) = some m
          ∧ e.2.naming = nodeNaming n m.toNaming)
      (aggregationNodes t) (sections parts) := by
  have hparts : List.Forall₂ (fun n e => e.1 = n.id ∧ n.checkIdentity = .ok () ∧
      ∃ m, Model.Aggregation.ofJson? (.obj n.properties) = some m ∧ e.2 = nodeNaming n m.toNaming)
      (aggregationNodes t) ((sections parts).map fun e => (e.1, e.2.naming)) := by
    rw [sections_naming, aggregationNodes, ← List.filterMap_eq_filter]
    refine List.rel_filterMap ?_ h
    rintro n part ⟨hcheck, hpart⟩
    cases hpart with
    | aggregation hkind hread =>
        simp only [Option.guard, hkind, decide_true, if_true, DomainPart.aggregation?]
        exact .some ⟨rfl, hcheck, _, hread, rfl⟩
    | skipped hkind =>
        simp only [List.mem_cons, List.not_mem_nil, or_false, not_or] at hkind
        simp [Option.guard, hkind, DomainPart.aggregation?]
    | _ hkind => simp [Option.guard, hkind, DomainPart.aggregation?]
  exact List.forall₂_map_right_iff.mp hparts

lemma nodup_sections (h : List.Forall₂ (Reads t c) t.visitOrder parts) :
    ((sections parts).map (·.1)).Nodup := by
  rw [map_eq_map ((aggregationParts h).imp fun _ _ => And.left)]
  exact t.nodup_ids_visitOrder.sublist (List.filter_sublist.map _)

lemma nodup_commandEntries (h : List.Forall₂ (Reads t c) t.visitOrder parts) :
    ((commandEntries parts).map (·.1)).Nodup := by
  have hids : (commandEntries parts).map (·.1) = (parts.filterMap (·.command?)).map (·.1) := by
    rw [commandEntries, List.map_map]
    rfl
  rw [hids, map_eq_map ((commandParts h).imp fun _ _ => And.left)]
  exact t.nodup_ids_visitOrder.sublist (List.filter_sublist.map _)

/-- The commands that name an aggregation, each with the rules that name it. -/
lemma commands_of_parts (h : List.Forall₂ (Reads t c) t.visitOrder parts) (id : String) :
    List.Forall₂ (CommandOf t c) (commandNodes t id) (commandsFor id parts) := by
  have hnodes : commandNodes t id
      = (t.visitOrder.filter fun n => n.kind = .command).filter
          fun n => namedAggregation? n = some id := by
    rw [List.filter_filter]
    refine List.filter_congr fun n _ => ?_
    simp [Bool.and_comm]
  -- both sides choose by the aggregation that is named, in nodes here and in parts there
  rw [hnodes, commandsFor, List.forall₂_map_right_iff]
  refine (List.rel_filter ?_ (commandParts h)).imp fun n e => ?_
  · rintro n e ⟨-, -, hnamed, -⟩
    simp [hnamed]
  · rintro ⟨hid, hcheck, -, m, hread, hcompiled⟩
    rw [hcompiled, hid]
    refine ⟨nodeNaming_uuid hcheck (Model.Command.naming_of_ofJson? hread), ⟨m, hread, rfl⟩, ?_⟩
    exact rules_of_parts h n.id

/-- The aggregations, each with the commands that name it. -/
lemma aggregates_of_parts (h : List.Forall₂ (Reads t c) t.visitOrder parts) :
    List.Forall₂ (AggregateOf t c) (aggregationNodes t)
      (domainCollector.settle {} parts).report.result.aggregates := by
  rw [aggregates_of_settle (nodup_sections h) (nodup_commandEntries h), List.forall₂_map_right_iff]
  refine (aggregationParts h).imp fun n e => ?_
  rintro ⟨hid, hcheck, m, hread, hnaming⟩
  refine ⟨?_, ⟨m, hread, hnaming⟩, ?_⟩
  · change e.2.naming.uuid = n.id
    rw [hnaming]
    exact nodeNaming_uuid hcheck (Model.Aggregation.naming_of_ofJson? hread)
  · rw [hid]
    exact commands_of_parts h n.id

/-! ## Each command once, and what is left out -/

/-- The ids of the commands of all aggregates are those of the nodes that name them. -/
lemma command_uuids {nodes : List Node} {aggregates : List Aggregate}
    (h : List.Forall₂ (AggregateOf t c) nodes aggregates) :
    (aggregates.flatMap (·.commands)).map (·.uuid)
      = nodes.flatMap fun n => (commandNodes t n.id).map (·.id) := by
  induction h with
  | nil => rfl
  | @cons n a nodes aggregates ha _ ih =>
      have hfirst : a.commands.map (·.uuid) = (commandNodes t n.id).map (·.id) :=
        map_eq_map (ha.commands.imp fun _ _ hcommand => hcommand.uuid)
      rw [List.flatMap_cons, List.map_append, hfirst, ih, List.flatMap_cons]

/-- A node names one other node, so no node is there twice among those that name different ones. -/
lemma nodup_named_ids {nodes : List Node} (hnodes : (nodes.map (·.id)).Nodup) (kind : Kind)
    (named? : Node → Option String) :
    (nodes.flatMap fun n => (t.visitOrder.filter fun m =>
      m.kind = kind ∧ named? m = some n.id).map (·.id)).Nodup := by
  rw [List.nodup_flatMap]
  refine ⟨fun n _ => t.nodup_ids_visitOrder.sublist (List.filter_sublist.map _), ?_⟩
  refine (List.pairwise_map.mp hnodes).imp fun {a b} hne => ?_
  intro id hida hidb
  obtain ⟨m, hm, rfl⟩ := List.mem_map.mp hida
  obtain ⟨m', hm', hid⟩ := List.mem_map.mp hidb
  simp only [List.mem_filter, decide_eq_true_eq] at hm hm'
  have hsame : m' = m := Tree.eq_of_id_eq hm'.1 hm.1 hid
  rw [hsame, hm.2.2] at hm'
  exact hne (Option.some.inj hm'.2.2)

lemma nodup_command_ids (t : Tree) :
    ((aggregationNodes t).flatMap fun n => (commandNodes t n.id).map (·.id)).Nodup :=
  nodup_named_ids (t.nodup_ids_visitOrder.sublist (List.filter_sublist.map _)) _ _

/-- **Attachment is exact.**  The nodes that can be reached are visited in pre-order.  The
aggregates are the visited aggregations, their commands those that name them and the rules of these
those that name them, in the order of the walk; no command is there twice, and what names nothing
that was visited is nowhere. -/
theorem attachment_exact {r : Report DomainModel} (h : domainModel t c = .ok r) :
    t.Preorder t.visitOrder
      ∧ List.Forall₂ (AggregateOf t c) (aggregationNodes t) r.result.aggregates
      ∧ ((r.result.aggregates.flatMap (·.commands)).map (·.uuid)).Nodup
      ∧ (∀ n ∈ t.visitOrder, n.kind = .command →
          (∀ a ∈ aggregationNodes t, namedAggregation? n ≠ some a.id) →
          ∀ a ∈ r.result.aggregates, ∀ k ∈ a.commands, k.uuid ≠ n.id)
      ∧ (∀ n ∈ t.visitOrder, n.kind = .rule →
          (∀ m ∈ t.visitOrder, m.kind = .command → namedCommand? n ≠ some m.id) →
          ∀ a ∈ r.result.aggregates, ∀ k ∈ a.commands, ∀ s ∈ k.rules, s.uuid ≠ n.id) := by
  obtain ⟨parts, hparts, rfl⟩ := parts_of_domainModel h
  have haggregates := aggregates_of_parts hparts
  refine ⟨t.preorder_visitOrder, haggregates, ?_, ?_, ?_⟩
  · rw [command_uuids haggregates]
    exact nodup_command_ids t
  · intro n hn _ hnames a ha k hk hid
    obtain ⟨m, hm, hof⟩ := exists_of_mem_right haggregates ha
    obtain ⟨m', hm', hkof⟩ := exists_of_mem_right hof.commands hk
    simp only [commandNodes, List.mem_filter, decide_eq_true_eq] at hm'
    obtain rfl : m' = n := Tree.eq_of_id_eq hm'.1 hn (hkof.uuid.symm.trans hid)
    exact hnames m hm hm'.2.2
  · intro n hn _ hnames a ha k hk s hs hid
    obtain ⟨m, -, hof⟩ := exists_of_mem_right haggregates ha
    obtain ⟨m', hm', hkof⟩ := exists_of_mem_right hof.commands hk
    obtain ⟨m'', hm'', hsof⟩ := exists_of_mem_right hkof.rules hs
    simp only [commandNodes, ruleNodes, List.mem_filter, decide_eq_true_eq] at hm' hm''
    obtain rfl : m'' = n := Tree.eq_of_id_eq hm''.1 hn (hsof.uuid.symm.trans hid)
    exact hnames m' hm'.1 hm'.2.1 hm''.2.2

/-- A rule above the command that it names, which stands above the aggregation that it names. -/
def invertedTree : Tree :=
  let under (name target : String) : String × Json := (name, .obj [("referenceId", .str target)])
  .ofNodes "__ROOT__"
    [{ id := "__ROOT__", kind := .root, properties := [], childIds := ["limit"]
       childOrder := List.pairwise_singleton .. },
      { id := "limit", kind := .rule, properties := [under "aggregator" "hire"],
        childIds := ["hire"], childOrder := List.pairwise_singleton .. },
      { id := "hire", kind := .command, properties := [under "aggregation" "staff"],
        childIds := ["staff"], childOrder := List.pairwise_singleton .. },
      Node.make "staff" .aggregation .null]

theorem attachment_exact_invertedTree :
    ∃ r, domainModel invertedTree {} = .ok r
      ∧ List.Forall₂ (AggregateOf invertedTree {}) (aggregationNodes invertedTree)
        r.result.aggregates
      ∧ (aggregationNodes invertedTree).map (·.id) = ["staff"]
      ∧ (commandNodes invertedTree "staff").map (·.id) = ["hire"]
      ∧ (ruleNodes invertedTree "hire").map (·.id) = ["limit"] := by
  have hok : (domainModel invertedTree {}).isOk = true := by decide +kernel
  cases h : domainModel invertedTree {} with
  | error e =>
      rw [h] at hok
      cases hok
  | ok r =>
    exact ⟨r, rfl, (attachment_exact h).2.1, by decide +kernel, by decide +kernel,
      by decide +kernel⟩

end DomainDesign.Compile
