import DomainDesign.Proofs.Attachment
import DomainDesign.Proofs.QueryStates

/-!
# Query models are exact

A rule in a query tree names a query, and may stand anywhere in the tree.  `queries_exact` says that
the queries and data transfer objects of a compiled model are those that have been visited, in the
order of the walk, that the rules of a query are the visited rules that name it, and how the types
of its properties and of its result are written.

**Texts.**  `Written t void type text` are the rules by which a type is written against a tree,
where a reference is written as the name of the node that it leads to.  `written_typeText` says that
the compiler writes types by these rules, however deep they are nested.

**Nodes.**  `queryPartOf_of_queryPart` tells of each visited node what part it is, and
`queries_of_parts` goes with `QueryStates` from the parts to the queries.
-/

namespace DomainDesign.Compile

open Compiled

/-! ## Texts of types -/

/-- The type under a name among the parameters of a container. -/
def param? (params : List (String × Option TypeExpr)) (key : String) : Option TypeExpr :=
  (params.lookup key).join

/-- How a type is written against a tree, where `void` is written for one that is not there. -/
inductive Written (t : Tree) (void : String) : Option TypeExpr → String → Prop
  | absent : Written t void none void
  | base (name : String) : Written t void (some (.base name)) name
  | named {id display name : String} {n : Node} (there : t.get? id = some n)
      (named : n.name? = some name) (ne_empty : name ≠ "") :
      Written t void (some (.reference id display)) name
  | displayed {id display : String}
      (unnamed : ∀ n name, t.get? id = some n → n.name? = some name → name = "") :
      Written t void (some (.reference id display)) display
  | map {params : List (String × Option TypeExpr)} {key value : String}
      (ofKey : Written t void (param? params "key") key)
      (ofValue : Written t void (param? params "value") value) :
      Written t void (some (.container "Map" params)) ("Map<" ++ key ++ ", " ++ value ++ ">")
  | other {name : String} {params : List (String × Option TypeExpr)} {item : String}
      (ne_map : name ≠ "Map") (ofItem : Written t void (param? params "item") item) :
      Written t void (some (.container name params)) (name ++ "<" ++ item ++ ">")

variable {t : Tree} {c : Config} {n : Node} {void : String}

/-- A reference is written by what the tree has under its id. -/
lemma written_reference (id display : String) :
    Written t void (some (.reference id display)) (referenceName t id display) := by
  rw [referenceName]
  cases hname : (t.get? id).bind Node.name? with
  | none =>
      refine .displayed fun n name hn hnamed => ?_
      rw [hn, Option.bind_some, hnamed] at hname
      cases hname
  | some name =>
      by_cases hempty : name = ""
      · subst hempty
        refine .displayed fun n name hn hnamed => ?_
        rw [hn, Option.bind_some, hnamed] at hname
        exact Option.some.inj hname
      · obtain ⟨n, hn, hnamed⟩ := Option.bind_eq_some_iff.mp hname
        have hkept : (some name).filter (!·.isEmpty) = some name := by simp [hempty]
        rw [hkept]
        exact .named hn hnamed hempty

mutual

lemma written_render : (type : TypeExpr) →
    Written t void (some type) (type.render void (referenceName t))
  | .base name => .base name
  | .reference id display => written_reference id display
  | .container name params => by
      rw [TypeExpr.render]
      by_cases hname : name = "Map"
      · subst hname
        rw [if_pos rfl]
        exact .map (written_param params "key") (written_param params "value")
      · rw [if_neg hname]
        exact .other hname (written_param params "item")

lemma written_param : (params : List (String × Option TypeExpr)) → (key : String) →
    Written t void (param? params key)
      (((TypeExpr.renderParams void (referenceName t) params).lookup key).getD void)
  | [], _ => .absent
  | (k, none) :: rest, key => by
      have hrest := written_param rest key
      rw [param?] at hrest ⊢
      rw [TypeExpr.renderParams, Dict.lookup_cons_ite, Dict.lookup_cons_ite]
      split
      · exact .absent
      · exact hrest
  | (k, some type) :: rest, key => by
      have htype := written_render type
      have hrest := written_param rest key
      rw [param?] at hrest ⊢
      rw [TypeExpr.renderParams, Dict.lookup_cons_ite, Dict.lookup_cons_ite]
      split
      · exact htype
      · exact hrest

end

/-- **Types are written by the rules.** -/
lemma written_typeText (type : Option TypeExpr) :
    Written t c.voidClass type (typeText t c type) := by
  cases type with
  | none => exact .absent
  | some type => exact written_render type

/-! ## What is compiled of a node -/

/-- A property is compiled with its type written out. -/
structure PropertyOf (t : Tree) (c : Config) (p : Model.Property) (compiled : Property) :
    Prop where
  content : compiled = { toNaming := naming p.toNaming, type := compiled.type, access := p.access
                         optional := p.optional }
  type : Written t c.voidClass p.type compiled.type

/-- The type of a result is written out, and another word stands where there is none. -/
inductive ReturnOf (t : Tree) (c : Config) : Option TypeExpr → Return → Prop
  | absent : ReturnOf t c none ⟨c.voidReturn⟩
  | present {type : TypeExpr} {text : String} (written : Written t c.voidClass (some type) text) :
      ReturnOf t c (some type) ⟨text⟩

/-- What a query is compiled to, its rules apart. -/
structure QueryContent (t : Tree) (c : Config) (n : Node) (m : Model.Query) (compiled : Query) :
    Prop where
  naming : compiled.toNaming = nodeNaming n m.toNaming
  source : compiled.source = triggers m.source
  pagination : compiled.pagination = m.pagination
  properties : List.Forall₂ (PropertyOf t c) m.properties compiled.properties
  result : ReturnOf t c m.result compiled.result

/-- A query is that of a node, and its rules are those that name it. -/
structure QueryOf (t : Tree) (c : Config) (n : Node) (compiled : Query) : Prop where
  uuid : compiled.uuid = n.id
  content : ∃ m, Model.Query.ofJson? (.obj n.properties) = some m ∧ QueryContent t c n m compiled
  rules : List.Forall₂ RuleOf (ruleNodes t n.id) compiled.rules

/-- A data transfer object is that of a node. -/
structure DtoOf (t : Tree) (c : Config) (n : Node) (compiled : Dto) : Prop where
  uuid : compiled.uuid = n.id
  content : ∃ m, Model.Dto.ofJson? (.obj n.properties) = some m
    ∧ classBody t c n m.toClassBody = .ok compiled.toClassBody

/-- The visited queries. -/
def queryNodes (t : Tree) : List Node :=
  t.visitOrder.filter fun n => n.kind = .query

/-- The visited data transfer objects. -/
def dtoNodes (t : Tree) : List Node :=
  t.visitOrder.filter fun n => n.kind = .dto

lemma propertiesOf (ps : List Model.Property) :
    List.Forall₂ (PropertyOf t c) ps (properties t c ps) := by
  rw [properties, List.forall₂_map_right_iff]
  exact List.forall₂_same.mpr fun p _ => ⟨rfl, written_typeText p.type⟩

lemma returnOf_result (type : Option TypeExpr) : ReturnOf t c type (result t c type) := by
  cases type with
  | none => exact .absent
  | some type => exact .present (written_typeText (some type))

lemma queryContent (m : Model.Query) (rules : List Rule) :
    QueryContent t c n m (withQueryRules (query t c n m) rules) where
  naming := rfl
  source := rfl
  pagination := rfl
  properties := propertiesOf m.properties
  result := returnOf_result m.result

/-! ## What part a node is -/

/-- The part that a node is read as, by the kind of the node. -/
inductive QueryPartOf (t : Tree) (c : Config) (n : Node) : QueryPart → Prop
  | query {m : Model.Query} (kind : n.kind = .query)
      (read : Model.Query.ofJson? (.obj n.properties) = some m) :
      QueryPartOf t c n (.query n.id (query t c n m))
  | dto {m : Model.Dto} {body : ClassBody} (kind : n.kind = .dto)
      (read : Model.Dto.ofJson? (.obj n.properties) = some m)
      (compile : classBody t c n m.toClassBody = .ok body) : QueryPartOf t c n (.dto ⟨body⟩)
  | rule {m : Model.Rule} (kind : n.kind = .rule)
      (read : Model.Rule.ofJson? (.obj n.properties) = some m) :
      QueryPartOf t c n (.rule n.id (namedCommand? n) (rule n m))
  | skipped {warnings : List Warning} (kind : n.kind ∉ [.query, .dto, .rule]) :
      QueryPartOf t c n (.skipped warnings)

variable {part : QueryPart} {parts : List QueryPart}

/-- **What a node can be read as.** -/
lemma queryPartOf_of_queryPart (h : queryPart t c n = .ok part) : QueryPartOf t c n part := by
  rw [queryPart] at h
  split at h
  next hkind =>
    simp only [bind_ok_iff, Node.read_eq_ok] at h
    obtain ⟨m, hread, hpart⟩ := h
    cases hpart
    exact .query hkind hread
  next hkind =>
    simp only [bind_ok_iff, Node.read_eq_ok] at h
    obtain ⟨m, hread, body, hbody, hpart⟩ := h
    cases hpart
    exact .dto hkind hread hbody
  next hkind =>
    simp only [bind_ok_iff, Node.read_eq_ok] at h
    obtain ⟨m, hread, hpart⟩ := h
    cases hpart
    have hnamed : namedCommand? n = m.aggregator.bind Model.Reference.target? := by
      rw [namedCommand?, hread, Option.bind_some]
    rw [← hnamed]
    exact .rule hkind hread
  next =>
    obtain ⟨warnings, -, rfl⟩ := map_ok_iff.mp h
    refine .skipped ?_
    simp_all

/-- The nodes that pass their checks, with the parts that they are. -/
def ReadsQuery (t : Tree) (c : Config) (n : Node) (part : QueryPart) : Prop :=
  n.checkIdentity = .ok () ∧ QueryPartOf t c n part

/-- A compilation that succeeds has read every visited node. -/
lemma parts_of_queryModel {r : Report QueryModel} (h : queryModel t c = .ok r) :
    ∃ parts, List.Forall₂ (ReadsQuery t c) t.visitOrder parts
      ∧ r = (queryCollector.settle {} parts).report := by
  rw [queryModel, Tree.collect_eq] at h
  obtain ⟨s, hs, rfl⟩ := map_ok_iff.mp h
  obtain ⟨parts, hparts, rfl⟩ := map_ok_iff.mp hs
  refine ⟨parts, ?_, rfl⟩
  exact (Tree.readAll_eq_ok_iff.mp hparts).imp fun n part h => ⟨h.1, queryPartOf_of_queryPart h.2⟩

/-! ## Rules, queries and data transfer objects among the parts -/

lemma queryRules_of_parts (h : List.Forall₂ (ReadsQuery t c) t.visitOrder parts) (id : String) :
    List.Forall₂ RuleOf (ruleNodes t id) (parts.filterMap (·.ruleFor? id)) := by
  rw [ruleNodes, ← List.filterMap_eq_filter]
  refine List.rel_filterMap ?_ h
  rintro n part ⟨hcheck, hpart⟩
  cases hpart with
  | rule hkind hread =>
      by_cases hnamed : namedCommand? n = some id
      · simp only [Option.guard, hkind, hnamed, and_self, decide_true, if_true, QueryPart.ruleFor?]
        exact .some ⟨nodeNaming_uuid hcheck (Model.Rule.naming_of_ofJson? hread), _, hread, rfl⟩
      · simp [Option.guard, hkind, hnamed, QueryPart.ruleFor?]
  | skipped hkind =>
      simp only [List.mem_cons, List.not_mem_nil, or_false, not_or] at hkind
      simp [Option.guard, hkind, QueryPart.ruleFor?]
  | _ hkind => simp [Option.guard, hkind, QueryPart.ruleFor?]

/-- The visited queries, and what their parts say. -/
lemma queryEntries (h : List.Forall₂ (ReadsQuery t c) t.visitOrder parts) :
    List.Forall₂ (fun n e => e.1 = n.id ∧ n.checkIdentity = .ok () ∧
        ∃ m, Model.Query.ofJson? (.obj n.properties) = some m ∧ e.2 = query t c n m)
      (queryNodes t) (parts.filterMap (·.keyed?)) := by
  rw [queryNodes, ← List.filterMap_eq_filter]
  refine List.rel_filterMap ?_ h
  rintro n part ⟨hcheck, hpart⟩
  cases hpart with
  | query hkind hread =>
      simp only [Option.guard, hkind, decide_true, if_true, QueryPart.keyed?]
      exact .some ⟨rfl, hcheck, _, hread, rfl⟩
  | skipped hkind =>
      simp only [List.mem_cons, List.not_mem_nil, or_false, not_or] at hkind
      simp [Option.guard, hkind, QueryPart.keyed?]
  | _ hkind => simp [Option.guard, hkind, QueryPart.keyed?]

lemma nodup_queryEntries (h : List.Forall₂ (ReadsQuery t c) t.visitOrder parts) :
    ((parts.filterMap (·.keyed?)).map (·.1)).Nodup := by
  rw [map_eq_map ((queryEntries h).imp fun _ _ => And.left)]
  exact t.nodup_ids_visitOrder.sublist (List.filter_sublist.map _)

/-- The queries, each with the rules that name it. -/
lemma queries_of_parts (h : List.Forall₂ (ReadsQuery t c) t.visitOrder parts) :
    List.Forall₂ (QueryOf t c) (queryNodes t)
      (queryCollector.settle {} parts).report.result.queries := by
  rw [queryModel_of_settle (nodup_queryEntries h), List.forall₂_map_right_iff]
  refine (queryEntries h).imp fun n e => ?_
  rintro ⟨hid, hcheck, m, hread, hcompiled⟩
  rw [hcompiled, hid]
  refine ⟨?_, ⟨m, hread, queryContent m _⟩, queryRules_of_parts h n.id⟩
  exact nodeNaming_uuid hcheck (Model.Query.naming_of_ofJson? hread)

lemma dtos_of_parts (h : List.Forall₂ (ReadsQuery t c) t.visitOrder parts) :
    List.Forall₂ (DtoOf t c) (dtoNodes t)
      (queryCollector.settle {} parts).report.result.dtos := by
  rw [queryModel_of_settle (nodup_queryEntries h), dtoNodes, ← List.filterMap_eq_filter]
  refine List.rel_filterMap ?_ h
  rintro n part ⟨hcheck, hpart⟩
  cases hpart with
  | dto hkind hread hbody =>
      simp only [Option.guard, hkind, decide_true, if_true, QueryPart.dto?]
      refine .some ⟨?_, _, hread, hbody⟩
      rw [naming_of_classBody hbody]
      exact nodeNaming_uuid hcheck (Model.Dto.naming_of_ofJson? hread)
  | skipped hkind =>
      simp only [List.mem_cons, List.not_mem_nil, or_false, not_or] at hkind
      simp [Option.guard, hkind, QueryPart.dto?]
  | _ hkind => simp [Option.guard, hkind, QueryPart.dto?]

/-- The ids of the rules of all queries are those of the nodes that name them. -/
lemma queryRule_uuids {nodes : List Node} {queries : List Query}
    (h : List.Forall₂ (QueryOf t c) nodes queries) :
    (queries.flatMap (·.rules)).map (·.uuid)
      = nodes.flatMap fun n => (ruleNodes t n.id).map (·.id) := by
  induction h with
  | nil => rfl
  | @cons n q nodes queries hq _ ih =>
      have hfirst : q.rules.map (·.uuid) = (ruleNodes t n.id).map (·.id) :=
        map_eq_map (hq.rules.imp fun _ _ hrule => hrule.uuid)
      rw [List.flatMap_cons, List.map_append, hfirst, ih, List.flatMap_cons]

/-- **Query models are exact.**  The nodes that can be reached are visited in pre-order.  The
queries and the data transfer objects are those that are visited, in the order of the walk, and the
rules of a query are those that name it, wherever they stand.  No query and no rule is there twice,
and a rule that names no visited query is nowhere. -/
theorem queries_exact {r : Report QueryModel} (h : queryModel t c = .ok r) :
    t.Preorder t.visitOrder
      ∧ List.Forall₂ (QueryOf t c) (queryNodes t) r.result.queries
      ∧ List.Forall₂ (DtoOf t c) (dtoNodes t) r.result.dtos
      ∧ (r.result.queries.map (·.uuid)).Nodup
      ∧ ((r.result.queries.flatMap (·.rules)).map (·.uuid)).Nodup
      ∧ (∀ n ∈ t.visitOrder, n.kind = .rule →
          (∀ m ∈ queryNodes t, namedCommand? n ≠ some m.id) →
          ∀ q ∈ r.result.queries, ∀ s ∈ q.rules, s.uuid ≠ n.id) := by
  obtain ⟨parts, hparts, rfl⟩ := parts_of_queryModel h
  have hqueries := queries_of_parts hparts
  have hnodes : ((queryNodes t).map (·.id)).Nodup :=
    t.nodup_ids_visitOrder.sublist (List.filter_sublist.map _)
  refine ⟨t.preorder_visitOrder, hqueries, dtos_of_parts hparts, ?_, ?_, ?_⟩
  · rw [map_eq_map (hqueries.imp fun _ _ hquery => hquery.uuid)]
    exact hnodes
  · rw [queryRule_uuids hqueries]
    exact nodup_named_ids hnodes _ _
  · intro n hn _ hnames q hq s hs hid
    obtain ⟨m, hm, hof⟩ := exists_of_mem_right hqueries hq
    obtain ⟨m', hm', hsof⟩ := exists_of_mem_right hof.rules hs
    simp only [ruleNodes, List.mem_filter, decide_eq_true_eq] at hm'
    obtain rfl : m' = n := Tree.eq_of_id_eq hm'.1 hn (hsof.uuid.symm.trans hid)
    exact hnames m hm hm'.2.2

/-- A query below the rule that names it, which is among its children again.  Its types refer to a
data transfer object that has another name by now and to one that is not there, and a second rule
names no query. -/
def catalogueTree : Tree :=
  let names (id : String) : Json := .obj [("aggregator", .obj [("referenceId", .str id)])]
  .ofNodes "__ROOT__"
    [["active", "stray"].foldl Node.withChild (Node.make "__ROOT__" .root .null),
      ["find"].foldl Node.withChild (Node.make "active" .rule (names "find")),
      ["active", "order"].foldl Node.withChild (Node.make "find" .query
        (.obj [("properties", .arr [.obj [("type",
            (TypeExpr.map (.base "Long") (.list (.reference "gone" "Ghost"))).toJson)]]),
          ("result", (TypeExpr.list (.reference "order" "Stale")).toJson)])),
      Node.make "order" .dto (.obj [("name", .str "OrderDTO")]),
      Node.make "stray" .rule (names "order")]

theorem queries_exact_catalogueTree :
    ∃ r, queryModel catalogueTree {} = .ok r
      ∧ List.Forall₂ (QueryOf catalogueTree {}) (queryNodes catalogueTree) r.result.queries
      ∧ List.Forall₂ (DtoOf catalogueTree {}) (dtoNodes catalogueTree) r.result.dtos
      ∧ (ruleNodes catalogueTree "find").map (·.id) = ["active"]
      ∧ r.result.queries.map (fun q => (q.uuid, q.rules.map (·.uuid), q.properties.map (·.type),
          q.result.type))
        = [("find", ["active"], ["Map<Long, List<Ghost>>"], "List<OrderDTO>")]
      ∧ r.result.dtos.map (·.uuid) = ["order"] := by
  have hmodel : (queryModel catalogueTree {}).map (fun r =>
      (r.result.queries.map fun q => (q.uuid, q.rules.map (·.uuid), q.properties.map (·.type),
          q.result.type), r.result.dtos.map (·.uuid)))
      = .ok ([("find", ["active"], ["Map<Long, List<Ghost>>"], "List<OrderDTO>")], ["order"]) := by
    decide +kernel
  obtain ⟨r, hr, hparts⟩ := map_ok_iff.mp hmodel
  obtain ⟨-, hqueries, hdtos, -⟩ := queries_exact hr
  simp only [Prod.mk.injEq] at hparts
  exact ⟨r, hr, hqueries, hdtos, by decide +kernel, hparts⟩

end DomainDesign.Compile
