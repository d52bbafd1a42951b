import DomainDesign.Proofs.DepthFirst
import DomainDesign.Proofs.Lists
import DomainDesign.Proofs.Outcomes
import DomainDesign.Tree.Walk

/-!
# What a walk does

**The search.**  `visitFrom` works off a stack of ids.  `search_visitFrom` says that this is the
recursive depth-first search, and `preorder_visitOrder` that the nodes that can be reached from the
root are visited, each once and in pre-order.

**Reading.**  `readAll_eq_ok_iff` says that a survey succeeds exactly if every visited node has the
identity it declares and can be read, and then gives what the nodes are read as, in order.

**Collecting.**  `collect_eq` takes the machinery of handlers and steps put off out of the way: the
state that a walk collects is the pure function `Collector.settle` of what the survey of the same
nodes gives. Every node is taken in before the first change that was put off is made.
-/

namespace DomainDesign

namespace Tree

/-! ## The search -/

/-- A node can be reached from the root, from each node to its children in the tree. -/
inductive Reachable (t : Tree) : Node → Prop
  | root {r : Node} (root : t.root? = some r) : Reachable t r
  | child {n m : Node} (reachable : Reachable t n) (child : m ∈ t.children n) : Reachable t m

/-- A list has the nodes that can be reached, in pre-order: each is followed by what the search
meets below it, and children are taken in the order of their ids. -/
structure Preorder (t : Tree) (order : List Node) : Prop where
  search : Search (·.id) t.children t.root?.toList [] order
  mem_iff : ∀ n, n ∈ order ↔ t.Reachable n

variable {t : Tree} {m n : Node}

lemma id_of_get? {id : String} (h : t.get? id = some n) : n.id = id :=
  t.keyed _ (Dict.mem_of_lookup h)

lemma get?_of_mem_filterMap {ids : List String} (h : n ∈ ids.filterMap t.get?) :
    t.get? n.id = some n := by
  obtain ⟨id, -, hget⟩ := List.mem_filterMap.mp h
  rwa [id_of_get? hget]

/-- Children are in the order of their ids. -/
lemma pairwise_children (t : Tree) (n : Node) :
    (t.children n).Pairwise fun a b => a.id < b.id := by
  rw [children, List.pairwise_filterMap]
  refine n.childOrder.imp ?_
  intro id id' hlt a ha b hb
  rwa [id_of_get? ha, id_of_get? hb]

/-- **Working off the pending ids is a depth-first search**, where the unvisited nodes are those
that have not been seen. -/
lemma search_visitFrom (pending : List String) (unvisited : Dict Node) {seen : List String}
    (hunvisited : ∀ id, unvisited.lookup id = if id ∈ seen then none else t.get? id) :
    Search (·.id) t.children (pending.filterMap t.get?) seen (visitFrom pending unvisited) := by
  fun_induction visitFrom pending unvisited generalizing seen with
  | case1 => exact .done
  | case2 unvisited id rest hlook ih =>
      rw [hunvisited] at hlook
      cases hget : t.get? id with
      | none =>
          rw [List.filterMap_cons_none hget]
          exact ih hunvisited
      | some n =>
          rw [List.filterMap_cons_some hget]
          have hseen : id ∈ seen := by
            by_contra hnew
            rw [if_neg hnew, hget] at hlook
            cases hlook
          exact .pass (by rwa [id_of_get? hget]) (ih hunvisited)
  | case3 unvisited id rest n hlook hlen ih =>
      rw [hunvisited] at hlook
      have hnew : id ∉ seen := fun hseen => by simp [hseen] at hlook
      rw [if_neg hnew] at hlook
      obtain rfl := id_of_get? hlook
      have hleft : ∀ k, (Dict.erase n.id unvisited).lookup k
          = if k ∈ seen ++ [n.id] then none else t.get? k := by
        intro k
        rw [Dict.lookup_erase, hunvisited]
        by_cases hk : k = n.id <;> simp [hk]
      -- the children stand before the rest of the stack: what is met of them comes first
      obtain ⟨inner, outer, hmet, hinner, houter⟩ := (List.filterMap_append ▸ ih hleft).split
      rw [List.filterMap_cons_some hlook, hmet]
      exact .meet hnew hinner (by simpa using houter)

lemma search_visitOrder (t : Tree) :
    Search (·.id) t.children t.root?.toList [] t.visitOrder := by
  have hroot : [t.rootId].filterMap t.get? = t.root?.toList := by
    cases h : t.get? t.rootId <;> simp [root?, h]
  rw [← hroot]
  exact search_visitFrom _ _ fun id => by simp [get?]

/-- **No id is visited twice.** -/
theorem nodup_ids_visitOrder (t : Tree) : (t.visitOrder.map (·.id)).Nodup :=
  t.search_visitOrder.nodup.1

lemma get?_of_mem_visitOrder : ∀ n ∈ t.visitOrder, t.get? n.id = some n := by
  refine t.search_visitOrder.forall_met (fun r hr _ => ?_)
    fun n m _ hm _ => get?_of_mem_filterMap hm
  have hget : t.get? t.rootId = some r := Option.mem_toList.mp hr
  rwa [id_of_get? hget]

/-- **The nodes that can be reached are visited in pre-order**, and no others. -/
theorem preorder_visitOrder (t : Tree) : t.Preorder t.visitOrder := by
  have hsearch := t.search_visitOrder
  refine ⟨hsearch, fun n => ⟨?_, fun h => ?_⟩⟩
  · exact hsearch.forall_met (fun r hr _ => .root (Option.mem_toList.mp hr))
      (fun n m hn hm _ => hn.child hm) n
  · -- a node with the id of a visited one is that node
    have hknown : ∀ {m}, m.id ∈ t.visitOrder.map (·.id) → t.get? m.id = some m →
        m ∈ t.visitOrder := by
      intro m hid hm
      obtain ⟨m', hm', heq⟩ := List.mem_map.mp hid
      have hget := get?_of_mem_visitOrder m' hm'
      rw [heq, hm] at hget
      rwa [Option.some.inj hget]
    induction h with
    | @root r hr =>
        have hcovered := hsearch.covers_pending (Option.mem_toList.mpr hr)
        exact hknown (by simpa using hcovered) (by rwa [id_of_get? hr])
    | @child n m _ hm ih =>
        have hcovered := hsearch.covers_next ih hm
        exact hknown (by simpa using hcovered) (get?_of_mem_filterMap hm)

/-- A node that is visited is in the tree, under its id. -/
lemma mem_nodes_of_mem_visitOrder (h : n ∈ t.visitOrder) : (n.id, n) ∈ t.nodes :=
  Dict.mem_of_lookup (get?_of_mem_visitOrder n h)

/-- The children of a visited node are visited. -/
lemma mem_visitOrder_of_child (hn : n ∈ t.visitOrder) (hm : m ∈ t.children n) :
    m ∈ t.visitOrder := by
  have hreachable : t.Reachable n := (t.preorder_visitOrder.mem_iff n).mp hn
  exact (t.preorder_visitOrder.mem_iff m).mpr (hreachable.child hm)

/-- Visited nodes with the same id are the same. -/
lemma eq_of_id_eq (hm : m ∈ t.visitOrder) (hn : n ∈ t.visitOrder)
    (hid : m.id = n.id) : m = n :=
  List.inj_on_of_nodup_map t.nodup_ids_visitOrder hm hn hid

/-! ## Reading -/

variable {σ α : Type} {read : Node → Except Error α}

/-- Reading succeeds exactly if every node has the identity it declares and can be read. -/
theorem readAll_eq_ok_iff {nodes : List Node} {parts : List α} :
    readAll read nodes = .ok parts
      ↔ List.Forall₂ (fun n a => n.checkIdentity = .ok () ∧ read n = .ok a) nodes parts := by
  induction nodes generalizing parts with
  | nil => simp [readAll, eq_comm]
  | cons n rest ih =>
      simp only [readAll, bind_ok_iff, List.forall₂_cons_left_iff]
      constructor
      · rintro ⟨_, hcheck, a, hread, others, hrest, hparts⟩
        cases hparts
        exact ⟨a, others, ⟨hcheck, hread⟩, ih.mp hrest, rfl⟩
      · rintro ⟨a, others, ⟨hcheck, hread⟩, hrest, rfl⟩
        exact ⟨(), hcheck, a, hread, others, ih.mpr hrest, rfl⟩

/-! ## Collecting -/

/-- The state when the parts have been taken in, and the changes that were put off. -/
def Collector.enterAll (k : Collector σ α) : List α → σ → σ × List (σ → σ)
  | [], s => (s, [])
  | a :: rest, s =>
    let (s', changes) := enterAll k rest (k.enter a s)
    (s', k.later a s ++ changes)

/-- The state when the parts have been taken in and then the changes have been made. -/
def Collector.settle (k : Collector σ α) (s : σ) (parts : List α) : σ :=
  (k.enterAll parts s).2.foldl (fun s change => change s) (k.enterAll parts s).1

/-- What handling one node does, and what is left to do then. -/
lemma visitAll_handle_cons (k : Collector σ α) {n : Node} {a : α}
    (hcheck : n.checkIdentity = .ok ())
    (hread : read n = .ok a) (rest : List Node) (s : σ) :
    visitAll (k.handle read) (n :: rest) s
      = EStateM.bind (visitAll (k.handle read) rest) (fun later =>
          pure ((k.later a s).map (fun change => modify change) ++ later)) (k.enter a s) := by
  simp only [visitAll, hcheck, check, Collector.handle, hread]
  rfl

lemma visitAll_handle_ok (k : Collector σ α) {nodes : List Node} {parts : List α}
    (h : readAll read nodes = .ok parts) (s : σ) :
    visitAll (k.handle read) nodes s
      = .ok ((k.enterAll parts s).2.map fun change => modify change) (k.enterAll parts s).1 := by
  induction nodes generalizing parts s with
  | nil => cases h; rfl
  | cons n rest ih =>
      simp only [readAll, bind_ok_iff] at h
      obtain ⟨_, hcheck, a, hread, others, hrest, hparts⟩ := h
      cases hparts
      rw [visitAll_handle_cons k hcheck hread, EStateM.bind, ih hrest]
      simp only [Collector.enterAll, List.map_append]
      rfl

lemma visitAll_handle_error (k : Collector σ α) {nodes : List Node} {e : Error}
    (h : readAll read nodes = .error e) (s : σ) :
    ∃ s', visitAll (k.handle read) nodes s = .error e s' := by
  induction nodes generalizing s with
  | nil => cases h
  | cons n rest ih =>
      cases hcheck : n.checkIdentity with
      | error e' =>
          rw [readAll, hcheck] at h
          cases h
          exact ⟨s, by simp only [visitAll, hcheck]; rfl⟩
      | ok _ =>
          cases hread : read n with
          | error e' =>
              rw [readAll, hcheck, hread] at h
              cases h
              exact ⟨s, by simp only [visitAll, hcheck, Collector.handle, hread]; rfl⟩
          | ok a =>
              have hrest : readAll read rest = .error e := by
                rw [readAll, hcheck, hread] at h
                cases hothers : readAll read rest with
                | error e' => rw [hothers] at h; cases h; rfl
                | ok others => rw [hothers] at h; cases h
              obtain ⟨s', hs'⟩ := ih hrest (k.enter a s)
              exact ⟨s', by rw [visitAll_handle_cons k hcheck hread, EStateM.bind, hs']⟩

lemma runAll_modify (changes : List (σ → σ)) (s : σ) :
    runAll (changes.map fun change => modify change) s
      = .ok () (changes.foldl (fun s change => change s) s) := by
  induction changes generalizing s with
  | nil => rfl
  | cons change rest ih =>
      simp only [List.map_cons, runAll, List.foldl_cons]
      exact ih (change s)

/-- **A walk collects what a survey reads.**  The first error of the survey is the error of the
walk. -/
theorem collect_eq (t : Tree) (read : Node → Except Error α) (k : Collector σ α) (s : σ) :
    t.collect read k s = (t.survey read).map (k.settle s) := by
  have htraverse : t.traverse (k.handle read) s
      = EStateM.bind (visitAll (k.handle read) t.visitOrder) runAll s := rfl
  rw [collect, htraverse, EStateM.bind, survey]
  cases h : readAll read t.visitOrder with
  | ok parts =>
      rw [visitAll_handle_ok k h s]
      simp only [runAll_modify]
      rfl
  | error e =>
      obtain ⟨s', hs'⟩ := visitAll_handle_error k h s
      rw [hs']
      rfl

/-- Taking in a part keeps a property of the state, and so does each change that it puts off. -/
def Collector.Keeps (k : Collector σ α) (P : σ → Prop) (a : α) : Prop :=
  ∀ s, P s → P (k.enter a s) ∧ ∀ change ∈ k.later a s, ∀ s, P s → P (change s)

lemma Collector.enterAll_keeps {k : Collector σ α} {P : σ → Prop} {parts : List α}
    (h : ∀ a ∈ parts, k.Keeps P a) {s : σ} (hs : P s) :
    P (k.enterAll parts s).1 ∧ ∀ change ∈ (k.enterAll parts s).2, ∀ s, P s → P (change s) := by
  induction parts generalizing s with
  | nil => exact ⟨hs, by simp [enterAll]⟩
  | cons a rest ih =>
      obtain ⟨ha, hrest⟩ := List.forall_mem_cons.mp h
      obtain ⟨henter, hlater⟩ := ha s hs
      obtain ⟨hlast, hchanges⟩ := ih hrest henter
      exact ⟨hlast, List.forall_mem_append.mpr ⟨hlater, hchanges⟩⟩

/-- **What every part keeps, a walk keeps.** -/
theorem collect_keeps {P : σ → Prop} {t : Tree} {k : Collector σ α} {s s' : σ}
    (h : t.collect read k s = .ok s') (hs : P s)
    (hkeeps : ∀ n ∈ t.visitOrder, ∀ a, read n = .ok a → k.Keeps P a) : P s' := by
  rw [collect_eq] at h
  obtain ⟨parts, hparts, rfl⟩ := map_ok_iff.mp h
  have hall : ∀ a ∈ parts, k.Keeps P a := by
    intro a ha
    obtain ⟨n, hn, -, hread⟩ := exists_of_mem_right (readAll_eq_ok_iff.mp hparts) ha
    exact hkeeps n hn a hread
  obtain ⟨hlast, hchanges⟩ := Collector.enterAll_keeps hall hs
  exact List.foldlRecOn _ _ hlast fun s hs change hchange => hchanges change hchange s hs

end Tree

end DomainDesign
