import DomainDesign.Tree.Basic

/-!
# Walking a tree

A walk visits every node that can be reached from the root, once, a node before its children and the
children in the order of their ids.

* `Tree.visitOrder` — the nodes in the order in which they are visited.  A list of ids still to be
  visited is worked off from the front; the children of a visited node go to the front of it.  The
  nodes not visited yet are carried along, so a node is found at most once and the walk ends on any
  graph.
* `Tree.survey` — a walk that reads every node by itself.  Each node is checked and then read, and
  the first error ends the walk.
* `Tree.traverse` — a walk with a handler.  Each node is checked and then handled; a handler may put
  steps off until every node has been handled.  The first error ends the walk, and the state is the
  one at that point.
* `Tree.collect` — a walk that builds up a state: every node is read, what is read is taken into the
  state, and changes that need the whole tree are put off.
-/

namespace DomainDesign

namespace Dict

variable {α : Type}

/-- Takes the entry under a key out. -/
def erase (key : String) (d : Dict α) : Dict α :=
  d.filter fun e => e.1 ≠ key

theorem erase_cons (key : String) (e : String × α) (d : Dict α) :
    erase key (e :: d) = if e.1 = key then erase key d else e :: erase key d := by
  by_cases he : e.1 = key
  · rw [if_pos he, erase, List.filter_cons_of_neg (by simpa using he), ← erase]
  · rw [if_neg he, erase, List.filter_cons_of_pos (by simpa using he), ← erase]

theorem lookup_erase (key : String) (d : Dict α) (k : String) :
    (erase key d).lookup k = if k = key then none else d.lookup k := by
  induction d with
  | nil => simp [erase]
  | cons e rest ih =>
      rw [erase_cons, lookup_cons_ite]
      by_cases he : e.1 = key
      · rw [if_pos he, ih, he]
        split <;> rfl
      · rw [if_neg he, lookup_cons_ite, ih]
        by_cases hk : k = key
        · simp [hk, Ne.symm he]
        · simp [hk]

end Dict

namespace Tree

/-- How many steps a walk through nodes can take: one for each node, and one for each child that a
node lists. -/
def steps (nodes : Dict Node) : Nat :=
  nodes.foldr (fun e rest => e.2.childIds.length + 1 + rest) 0

theorem steps_cons (e : String × Node) (nodes : Dict Node) :
    steps (e :: nodes) = e.2.childIds.length + 1 + steps nodes :=
  rfl

theorem steps_erase_le (id : String) (nodes : Dict Node) :
    steps (Dict.erase id nodes) ≤ steps nodes := by
  induction nodes with
  | nil => exact Nat.le_refl _
  | cons e rest ih =>
      rw [Dict.erase_cons]
      split
      · exact Nat.le_trans ih (Nat.le_add_left ..)
      · exact Nat.add_le_add_left ih _

/-- A node that is taken out leaves room for its children. -/
theorem steps_erase_lt {nodes : Dict Node} {id : String} {n : Node}
    (h : nodes.lookup id = some n) :
    n.childIds.length + steps (Dict.erase id nodes) < steps nodes := by
  induction nodes with
  | nil => simp at h
  | cons e rest ih =>
      rw [Dict.lookup_cons_ite] at h
      rw [Dict.erase_cons, steps_cons]
      by_cases he : e.1 = id
      · rw [if_pos he.symm] at h
        cases h
        have hrest := steps_erase_le id rest
        rw [if_pos he]
        omega
      · rw [if_neg (Ne.symm he)] at h
        have hrest := ih h
        rw [if_neg he, steps_cons]
        omega

/-- The nodes met when the pending ids are worked off, where only the unvisited nodes are
visited. -/
def visitFrom (pending : List String) (unvisited : Dict Node) : List Node :=
  match pending with
  | [] => []
  | id :: rest =>
    match h : unvisited.lookup id with
    | none => visitFrom rest unvisited
    | some n =>
      have := steps_erase_lt h
      n :: visitFrom (n.childIds ++ rest) (Dict.erase id unvisited)
-- a single number, so that the walk through a given tree can be evaluated
termination_by steps unvisited + pending.length
decreasing_by
  · exact Nat.add_lt_add_left (Nat.lt_succ_self _) _
  · rw [List.length_append, List.length_cons]
    omega

/-- The nodes that can be reached from the root, in the order of the walk. -/
def visitOrder (t : Tree) : List Node :=
  visitFrom [t.rootId] t.nodes

/-- Checks and reads the nodes one after the other. -/
def readAll {α : Type} (read : Node → Except Error α) : List Node → Except Error (List α)
  | [] => .ok []
  | n :: rest => do
    n.checkIdentity
    let a ← read n
    let others ← readAll read rest
    .ok (a :: others)

/-- What the nodes that can be reached from the root are read as, in the order of the walk. -/
def survey {α : Type} (t : Tree) (read : Node → Except Error α) : Except Error (List α) :=
  readAll read t.visitOrder

/-- A computation over a state that may fail; the state is kept when it does. -/
abbrev Visit (σ : Type) := EStateM Error σ

variable {σ : Type}

/-- Lifts a check that has no state. -/
def check {α : Type} : Except Error α → Visit σ α
  | .ok a => pure a
  | .error e => throw e

/-- Checks and handles the nodes one after the other.  The result is the steps put off, in order. -/
def visitAll (handle : Node → Visit σ (List (Visit σ Unit))) :
    List Node → Visit σ (List (Visit σ Unit))
  | [] => pure []
  | n :: rest => do
    check n.checkIdentity
    let deferred ← handle n
    let later ← visitAll handle rest
    pure (deferred ++ later)

/-- Runs steps one after the other. -/
def runAll : List (Visit σ Unit) → Visit σ Unit
  | [] => pure ()
  | step :: rest => do
    step
    runAll rest

/-- Walks a tree: every node is handled, then the steps put off are run. -/
def traverse (t : Tree) (handle : Node → Visit σ (List (Visit σ Unit))) : Visit σ Unit := do
  let deferred ← visitAll handle t.visitOrder
  runAll deferred

/-- How a state is built up from what nodes are read as: what is taken in when a node is visited,
and the changes that are put off until all of them have been. -/
structure Collector (σ α : Type) where
  enter : α → σ → σ
  later : α → σ → List (σ → σ)

/-- Reads a node and takes in what is read. -/
def Collector.handle {α : Type} (k : Collector σ α) (read : Node → Except Error α) (n : Node) :
    Visit σ (List (Visit σ Unit)) := do
  let a ← check (read n)
  let s ← get
  set (k.enter a s)
  pure ((k.later a s).map fun change => modify change)

/-- The state that a walk builds up. -/
def collect {α : Type} (t : Tree) (read : Node → Except Error α) (k : Collector σ α) (start : σ) :
    Except Error σ :=
  match t.traverse (k.handle read) start with
  | .ok _ s => .ok s
  | .error e _ => .error e

end Tree

end DomainDesign
