import DomainDesign.Compile.Aggregates
import DomainDesign.Compile.Mappers
import DomainDesign.Compile.Queries
import DomainDesign.Compile.Tables
import DomainDesign.Proofs.Findings

/-!
# Walks with any handler

What a walk does with a handler of which nothing is known: it may keep any state, fail anywhere and
put off whatever it likes.

**Runs.**  `Handles` and `Runs` say that nodes are handled, and steps run, one after the other
without a failure.  Nothing else can happen before the first failure, and `Handles.visitAll_append`
and `Runs.runAll_append` say that the program is then where the run is.

**How a walk ends.**  `Outcome` lists the four ways: a node declares the id of another, the handler
fails, a step that was put off fails, or nothing does.  `traverse_outcome` says that a walk over the
visited nodes ends in exactly the way that applies, and what follows for the compilers, which are
all walks: none of them accepts a tree in which a node declares another id than its own.

**Which nodes are handled.**  `recording` adds to a handler a record of the nodes it is called on.
`traverse_calls` says what the record of a walk is: the depth-first search from the root.
-/

namespace DomainDesign

/-! ## The identity of a node -/

namespace Node

variable {n : Node} {uuid : String}

/-- A node declares a uuid: a text, and not the empty one. -/
def Declares (n : Node) (uuid : String) : Prop :=
  n.properties.lookup "uuid" = some (.str uuid) ∧ uuid ≠ ""

/-- A node declares no other uuid than its id. -/
def Consistent (n : Node) : Prop :=
  ∀ uuid, n.Declares uuid → uuid = n.id

lemma declaredUuid?_eq_some : n.declaredUuid? = some uuid ↔ n.Declares uuid := by
  rw [declaredUuid?, text?, Declares]
  cases n.properties.lookup "uuid" with
  | none => simp
  | some j =>
      cases j with
      | str text => simp [Json.str?]
      | _ => simp [Json.str?]

lemma checkIdentity_of_declares (h : n.Declares uuid) (hne : uuid ≠ n.id) :
    n.checkIdentity = .error (.identifierMismatch n.id uuid) := by
  rw [checkIdentity, declaredUuid?_eq_some.mpr h]
  exact if_neg hne

lemma checkIdentity_eq_ok : n.checkIdentity = .ok () ↔ n.Consistent := by
  constructor
  · intro h uuid hdeclares
    by_contra hne
    rw [checkIdentity_of_declares hdeclares hne] at h
    cases h
  · intro h
    rw [checkIdentity]
    cases hdeclared : n.declaredUuid? with
    | none => rfl
    | some uuid => exact if_pos (h uuid (declaredUuid?_eq_some.mp hdeclared))

end Node

namespace Tree

/-- A survey that succeeds has found every node that can be reached consistent. -/
lemma consistent_of_survey {α : Type} {t : Tree} {read : Node → Except Error α} {parts : List α}
    (h : t.survey read = .ok parts) {n : Node} (hn : t.Reachable n) : n.Consistent := by
  have hvisited : n ∈ t.visitOrder := (t.preorder_visitOrder.mem_iff n).mpr hn
  obtain ⟨_, -, hcheck, -⟩ := exists_of_mem_right (readAll_eq_ok_iff.mp h).flip hvisited
  exact Node.checkIdentity_eq_ok.mp hcheck

/-! ## Runs -/

/-- What is done with a node.  It gives the steps that are put off. -/
abbrev Handler (σ : Type) := Node → Visit σ (List (Visit σ Unit))

/-- Nodes are checked and handled one after the other, and nothing fails.  What they put off is put
off in the same order. -/
inductive Handles {σ : Type} (handle : Handler σ) :
    List Node → σ → List (Visit σ Unit) → σ → Prop
  | none {s : σ} : Handles handle [] s [] s
  | node {n : Node} {rest : List Node} {deferred later : List (Visit σ Unit)} {s s₁ s₂ : σ}
      (consistent : n.Consistent) (handled : handle n s = .ok deferred s₁)
      (further : Handles handle rest s₁ later s₂) :
      Handles handle (n :: rest) s (deferred ++ later) s₂

/-- Steps are run one after the other, and nothing fails. -/
inductive Runs {σ : Type} : List (Visit σ Unit) → σ → σ → Prop
  | none {s : σ} : Runs [] s s
  | step {step : Visit σ Unit} {rest : List (Visit σ Unit)} {s s₁ s₂ : σ}
      (run : step s = .ok () s₁) (further : Runs rest s₁ s₂) : Runs (step :: rest) s s₂

variable {σ : Type} {handle : Handler σ} {nodes before : List Node} {s s₁ : σ}
  {deferred steps : List (Visit σ Unit)}

lemma visitAll_mismatch {n : Node} {uuid : String} (h : n.Declares uuid) (hne : uuid ≠ n.id)
    (rest : List Node) :
    visitAll handle (n :: rest) s = .error (.identifierMismatch n.id uuid) s := by
  rw [visitAll, Node.checkIdentity_of_declares h hne]
  rfl

lemma visitAll_consistent {n : Node} (h : n.Consistent) (rest : List Node) :
    visitAll handle (n :: rest) = (handle n >>= fun deferred =>
      visitAll handle rest >>= fun later => pure (deferred ++ later)) := by
  rw [visitAll, Node.checkIdentity_eq_ok.mpr h]
  rfl

/-- When nodes have been handled, the others are left to do from the state that they lead to. -/
lemma Handles.visitAll_append (h : Handles handle before s deferred s₁) (rest : List Node) :
    visitAll handle (before ++ rest) s
      = (visitAll handle rest >>= fun later => pure (deferred ++ later)) s₁ := by
  induction h with
  | none => simp
  | @node n before deferred later s s₁ s₂ consistent handled _ ih =>
      rw [List.cons_append, visitAll_consistent consistent, run_bind_ok handled]
      cases hrest : visitAll handle rest s₂ with
      | ok more s₃ =>
          rw [run_bind_ok hrest] at ih ⊢
          rw [run_bind_ok ih, List.append_assoc]
      | error e s₃ =>
          rw [run_bind_error hrest] at ih ⊢
          exact run_bind_error ih

lemma Handles.traverse_eq {t : Tree} (h : Handles handle t.visitOrder s deferred s₁) :
    t.traverse handle s = runAll deferred s₁ := by
  have hvisit := h.visitAll_append []
  have hnil : visitAll handle [] s₁ = .ok [] s₁ := rfl
  rw [List.append_nil, run_bind_ok hnil, List.append_nil] at hvisit
  exact run_bind_ok hvisit

/-- When steps have been run, the others are left to do from the state that they lead to. -/
lemma Runs.runAll_append (h : Runs steps s s₁) (rest : List (Visit σ Unit)) :
    runAll (steps ++ rest) s = runAll rest s₁ := by
  induction h with
  | none => rfl
  | step run _ ih =>
      rw [List.cons_append, runAll, run_bind_ok run]
      exact ih

/-- All nodes are handled, or there is a first one that is not. -/
lemma handles_or_fails (handle : Handler σ) (nodes : List Node) (s : σ) :
    (∃ deferred s₁, Handles handle nodes s deferred s₁)
      ∨ ∃ before n after deferred s₁, nodes = before ++ n :: after
        ∧ Handles handle before s deferred s₁
        ∧ ((∃ uuid, n.Declares uuid ∧ uuid ≠ n.id)
          ∨ n.Consistent ∧ ∃ e s₂, handle n s₁ = .error e s₂) := by
  induction nodes generalizing s with
  | nil => exact Or.inl ⟨[], s, .none⟩
  | cons n rest ih =>
      by_cases hn : n.Consistent
      · cases hhandle : handle n s with
        | error e s₁ => exact Or.inr ⟨[], n, rest, [], s, rfl, .none, Or.inr ⟨hn, e, s₁, hhandle⟩⟩
        | ok deferred s₁ =>
            rcases ih s₁ with ⟨later, s₂, hrest⟩ | ⟨before, m, after, later, s₂, rfl, hbefore, hm⟩
            · exact Or.inl ⟨_, _, .node hn hhandle hrest⟩
            · exact Or.inr ⟨n :: before, m, after, _, _, rfl, .node hn hhandle hbefore, hm⟩
      · simp only [Node.Consistent, not_forall] at hn
        obtain ⟨uuid, hdeclares, hne⟩ := hn
        exact Or.inr ⟨[], n, rest, [], s, rfl, .none, Or.inl ⟨uuid, hdeclares, hne⟩⟩

/-- All steps are run, or there is a first one that fails. -/
lemma runs_or_fails (steps : List (Visit σ Unit)) (s : σ) :
    (∃ s₁, Runs steps s s₁) ∨ ∃ before step after s₁, steps = before ++ step :: after
      ∧ Runs before s s₁ ∧ ∃ e s₂, step s₁ = .error e s₂ := by
  induction steps generalizing s with
  | nil => exact Or.inl ⟨s, .none⟩
  | cons step rest ih =>
      cases hstep : step s with
      | error e s₁ => exact Or.inr ⟨[], step, rest, s, rfl, .none, e, s₁, hstep⟩
      | ok _ s₁ =>
          rcases ih s₁ with ⟨s₂, hrest⟩ | ⟨before, failing, after, s₂, rfl, hbefore, hfails⟩
          · exact Or.inl ⟨s₂, .step hstep hrest⟩
          · exact Or.inr ⟨step :: before, failing, after, s₂, rfl, .step hstep hbefore, hfails⟩

/-! ## How a walk ends -/

/-- How a walk over nodes ends, from a state. -/
inductive Outcome (handle : Handler σ) (nodes : List Node) (s : σ) :
    EStateM.Result Error σ Unit → Prop
  /-- The first node that is not handled declares the id of another one. -/
  | mismatch {before after : List Node} {n : Node} {uuid : String}
      {deferred : List (Visit σ Unit)} {s₁ : σ} (split : nodes = before ++ n :: after)
      (handled : Handles handle before s deferred s₁) (declared : n.Declares uuid)
      (differs : uuid ≠ n.id) : Outcome handle nodes s (.error (.identifierMismatch n.id uuid) s₁)
  /-- The handler fails at the first node that is not handled. -/
  | refused {before after : List Node} {n : Node} {deferred : List (Visit σ Unit)} {s₁ s₂ : σ}
      {e : Error} (split : nodes = before ++ n :: after)
      (handled : Handles handle before s deferred s₁) (consistent : n.Consistent)
      (failed : handle n s₁ = .error e s₂) : Outcome handle nodes s (.error e s₂)
  /-- All nodes are handled, and then a step that was put off fails. -/
  | broken {deferred before after : List (Visit σ Unit)} {step : Visit σ Unit} {s₁ s₂ s₃ : σ}
      {e : Error} (handled : Handles handle nodes s deferred s₁)
      (split : deferred = before ++ step :: after) (run : Runs before s₁ s₂)
      (failed : step s₂ = .error e s₃) : Outcome handle nodes s (.error e s₃)
  /-- All nodes are handled, and then all steps that were put off are run. -/
  | finished {deferred : List (Visit σ Unit)} {s₁ s₂ : σ}
      (handled : Handles handle nodes s deferred s₁) (run : Runs deferred s₁ s₂) :
      Outcome handle nodes s (.ok () s₂)

lemma exists_outcome (handle : Handler σ) (nodes : List Node) (s : σ) :
    ∃ r, Outcome handle nodes s r := by
  rcases handles_or_fails handle nodes s with ⟨deferred, s₁, hall⟩ |
    ⟨before, n, after, deferred, s₁, hsplit, hbefore, ⟨uuid, hdeclares, hne⟩ | ⟨hn, e, s₂, hfails⟩⟩
  · rcases runs_or_fails deferred s₁ with ⟨s₂, hrun⟩ |
      ⟨before, step, after, s₂, hsplit, hrun, e, s₃, hfails⟩
    · exact ⟨_, .finished hall hrun⟩
    · exact ⟨_, .broken hall hsplit hrun hfails⟩
  · exact ⟨_, .mismatch hsplit hbefore hdeclares hne⟩
  · exact ⟨_, .refused hsplit hbefore hn hfails⟩

lemma Outcome.traverse_eq {t : Tree} {r : EStateM.Result Error σ Unit}
    (h : Outcome handle t.visitOrder s r) : t.traverse handle s = r := by
  cases h with
  | mismatch split handled declared differs =>
      refine run_bind_error ?_
      rw [split, handled.visitAll_append]
      exact run_bind_error (visitAll_mismatch declared differs _)
  | refused split handled consistent failed =>
      refine run_bind_error ?_
      rw [split, handled.visitAll_append, visitAll_consistent consistent]
      exact run_bind_error (run_bind_error failed)
  | broken handled split run failed =>
      rw [handled.traverse_eq, split, run.runAll_append]
      exact run_bind_error failed
  | finished handled run =>
      have hrun := run.runAll_append []
      rw [List.append_nil] at hrun
      rw [handled.traverse_eq, hrun]
      rfl

/-- A walk ends in one of the four ways, and each of them is the way in which it ends. -/
lemma traverse_eq_iff (t : Tree) (r : EStateM.Result Error σ Unit) :
    t.traverse handle s = r ↔ Outcome handle t.visitOrder s r := by
  constructor
  · rintro rfl
    obtain ⟨r, hr⟩ := exists_outcome handle t.visitOrder s
    rwa [hr.traverse_eq]
  · exact Outcome.traverse_eq

/-- **How a walk ends.**  The nodes that can be reached are visited in pre-order.  The walk ends at
the first node that declares the id of another or that the handler refuses, in the state that the
nodes before have led to, or else at the first step put off that fails, or else at the end.  And no
compiler, nor the view of the relations, accepts a tree with a node that declares another id. -/
theorem traverse_outcome (t : Tree) (handle : Handler σ) (s : σ) :
    t.Preorder t.visitOrder
      ∧ (∀ r, t.traverse handle s = r ↔ Outcome handle t.visitOrder s r)
      ∧ ∀ n uuid, t.Reachable n → n.Declares uuid → uuid ≠ n.id →
        (∀ c r, Compile.domainModel t c ≠ .ok r) ∧ (∀ c r, Compile.queryModel t c ≠ .ok r)
          ∧ (∀ c r, Compile.dataModel t c ≠ .ok r)
          ∧ (∀ store c r, Compile.objectMapper store t c ≠ .ok r)
          ∧ ∀ trees v, t ∈ trees → View.ofTrees trees ≠ .ok v := by
  refine ⟨t.preorder_visitOrder, t.traverse_eq_iff, ?_⟩
  intro n uuid hn hdeclares hne
  have hsurvey : ∀ {α : Type} {read : Node → Except Error α} {parts : List α},
      t.survey read ≠ .ok parts :=
    fun hparts => hne (consistent_of_survey hparts hn uuid hdeclares)
  have hcollect : ∀ {α τ ρ : Type} {read : Node → Except Error α} {k : Collector τ α} {start : τ}
      {finish : τ → ρ} {r : ρ}, (t.collect read k start).map finish ≠ .ok r := by
    intro α τ ρ read k start finish r hr
    obtain ⟨s, hs, -⟩ := map_ok_iff.mp hr
    rw [collect_eq] at hs
    obtain ⟨parts, hparts, -⟩ := map_ok_iff.mp hs
    exact hsurvey hparts
  refine ⟨fun _ _ => hcollect, fun _ _ => hcollect, fun _ _ => hcollect, ?_, ?_⟩
  · intro store c r hr
    obtain ⟨parts, hparts, -⟩ := bind_ok_iff.mp hr
    exact hsurvey hparts
  · intro trees v ht hv
    obtain ⟨found, hfound, -⟩ := View.ofTrees_ok hv
    obtain ⟨said, hsaid⟩ := Finding.survey_ofTrees hfound ht
    exact hsurvey hsaid

/-- A handler that counts the nodes, and puts off to double the count. -/
def countNode : Handler ℕ := fun _ => do
  modify (· + 1)
  pure [modify (· * 2)]

/-- A tree in which the node `staff` declares that it is `crew`. -/
def mislabelledTree : Tree :=
  .ofNodes "__ROOT__"
    [["hire", "staff"].foldl Node.withChild (Node.make "__ROOT__" .root .null),
      Node.make "hire" .command .null,
      Node.make "staff" .aggregation (.obj [("uuid", .str "crew")])]

theorem traverse_outcome_mislabelledTree :
    Outcome countNode mislabelledTree.visitOrder 0 (.error (.identifierMismatch "staff" "crew") 2)
      ∧ ∀ c r, Compile.domainModel mislabelledTree c ≠ .ok r := by
  obtain ⟨hpreorder, hends, hrejects⟩ := traverse_outcome mislabelledTree countNode 0
  have hstaff : mislabelledTree.visitOrder[2]?
      = some (Node.make "staff" .aggregation (.obj [("uuid", .str "crew")])) := by decide +kernel
  have hreachable := (hpreorder.mem_iff _).mp (List.mem_of_getElem? hstaff)
  refine ⟨(hends _).mp (by with_unfolding_all rfl), ?_⟩
  exact (hrejects _ "crew" hreachable ⟨by decide +kernel, by decide⟩ (by decide)).1

/-! ## Which nodes are handled -/

/-- A result, beside a record of nodes. -/
def withRecord {α : Type} (record : List Node) :
    EStateM.Result Error σ α → EStateM.Result Error (σ × List Node) α
  | .ok a s => .ok a (s, record)
  | .error e s => .error e (s, record)

/-- A step, beside a record of nodes that it leaves alone. -/
def besideRecord (step : Visit σ Unit) : Visit (σ × List Node) Unit := fun s =>
  withRecord s.2 (step s.1)

/-- A handler that writes down every node that it is called on. -/
def recording (handle : Handler σ) : Handler (σ × List Node) := fun n s =>
  match handle n s.1 with
  | .ok deferred s₁ => .ok (deferred.map besideRecord) (s₁, s.2 ++ [n])
  | .error e s₁ => .error e (s₁, s.2 ++ [n])

/-- Recording changes nothing in how nodes are handled. -/
lemma Handles.recording (h : Handles handle nodes s deferred s₁) (record : List Node) :
    Handles (recording handle) nodes (s, record) (deferred.map besideRecord)
      (s₁, record ++ nodes) := by
  induction h generalizing record with
  | none =>
      rw [List.append_nil]
      exact .none
  | @node n rest deferred later s s₁ s₂ consistent handled _ ih =>
      have hcall : Tree.recording handle n (s, record)
          = .ok (deferred.map besideRecord) (s₁, record ++ [n]) := by
        rw [Tree.recording, handled]
      have hrest := ih (record ++ [n])
      rw [List.append_assoc, List.singleton_append] at hrest
      rw [List.map_append]
      exact .node consistent hcall hrest

lemma runAll_besideRecord (steps : List (Visit σ Unit)) (s : σ) (record : List Node) :
    runAll (steps.map besideRecord) (s, record) = withRecord record (runAll steps s) := by
  induction steps generalizing s with
  | nil => rfl
  | cons step rest ih =>
      rw [List.map_cons, runAll, runAll]
      cases hstep : step s with
      | ok _ s₁ =>
          have hbeside : besideRecord step (s, record) = .ok () (s₁, record) := by
            rw [besideRecord, hstep]
            rfl
          rw [run_bind_ok hbeside, run_bind_ok hstep]
          exact ih s₁
      | error e s₁ =>
          have hbeside : besideRecord step (s, record) = .error e (s₁, record) := by
            rw [besideRecord, hstep]
            rfl
          rw [run_bind_error hbeside, run_bind_error hstep]
          rfl

/-- Consistent nodes are all handled by a handler that never fails. -/
lemma exists_handles (htotal : ∀ n s, ∃ deferred s₁, handle n s = .ok deferred s₁)
    (hnodes : ∀ n ∈ nodes, n.Consistent) (s : σ) :
    ∃ deferred s₁, Handles handle nodes s deferred s₁ := by
  rcases handles_or_fails handle nodes s with hall |
    ⟨before, n, after, deferred, s₁, rfl, -, ⟨uuid, hdeclares, hne⟩ | ⟨-, e, s₂, hfails⟩⟩
  · exact hall
  · exact absurd (hnodes n (by simp) uuid hdeclares) hne
  · obtain ⟨deferred, s₃, hhandle⟩ := htotal n s₁
    rw [hhandle] at hfails
    cases hfails

/-- **A walk handles what a depth-first search meets.**  A handler that never fails, on a tree where
every node that can be reached is consistent, is called once on each of them, in the order of the
recursive search that takes children in the order of their ids; then what was put off is run. -/
theorem traverse_calls {t : Tree} (htotal : ∀ n s, ∃ deferred s₁, handle n s = .ok deferred s₁)
    (hconsistent : ∀ n, t.Reachable n → n.Consistent) (s : σ) :
    ∃ order, t.traverse (recording handle) (s, []) = withRecord order (t.traverse handle s)
      ∧ t.Preorder order
      ∧ (∀ other, Search (·.id) t.children t.root?.toList [] other → other = order)
      ∧ (∀ n, (t.children n).Pairwise fun a b => a.id < b.id)
      ∧ (order.map (·.id)).Nodup
      ∧ (t.root? = none → order = [])
      ∧ ∃ deferred s₁, Handles handle order s deferred s₁
        ∧ t.traverse handle s = runAll deferred s₁ := by
  have hpreorder := t.preorder_visitOrder
  obtain ⟨deferred, s₁, hhandles⟩ :=
    exists_handles htotal (fun n hn => hconsistent n ((hpreorder.mem_iff n).mp hn)) s
  refine ⟨t.visitOrder, ?_, hpreorder, fun other => hpreorder.search.unique, t.pairwise_children,
    t.nodup_ids_visitOrder, fun hroot => ?_, deferred, s₁, hhandles, hhandles.traverse_eq⟩
  · have hrecord := hhandles.recording []
    rw [List.nil_append] at hrecord
    rw [hrecord.traverse_eq, runAll_besideRecord, hhandles.traverse_eq]
  · have hsearch := hpreorder.search
    rw [hroot] at hsearch
    exact Search.done.unique hsearch

/-- A tree in which children are shared, missing, or lead back to where they are. -/
def tangledTree : Tree :=
  let node (id : String) (childIds : List String) : Node :=
    childIds.foldl Node.withChild (Node.make id (.other "") .null)
  .ofNodes "__ROOT__"
    [node "__ROOT__" ["a", "b", "gone"], node "a" ["a", "b", "c"], node "b" ["__ROOT__", "c"],
      node "c" [], node "lost" ["a"]]

theorem traverse_calls_tangledTree :
    ∃ order, tangledTree.traverse (recording countNode) (0, [])
        = withRecord order (tangledTree.traverse countNode 0)
      ∧ order.map (·.id) = ["__ROOT__", "a", "b", "c"] := by
  have hsilent : tangledTree.nodes.all (fun e => e.2.declaredUuid?.isNone) = true := by
    decide +kernel
  have hconsistent : ∀ n, tangledTree.Reachable n → n.Consistent := by
    intro n hn uuid hdeclares
    have hnode := mem_nodes_of_mem_visitOrder ((tangledTree.preorder_visitOrder.mem_iff n).mpr hn)
    have hnone := List.all_eq_true.mp hsilent _ hnode
    rw [Node.declaredUuid?_eq_some.mpr hdeclares] at hnone
    cases hnone
  obtain ⟨order, hrecord, -, hunique, -⟩ :=
    traverse_calls (fun _ _ => ⟨_, _, rfl⟩) hconsistent 0
  refine ⟨order, hrecord, ?_⟩
  rw [← hunique _ tangledTree.search_visitOrder]
  decide +kernel

end Tree

end DomainDesign
