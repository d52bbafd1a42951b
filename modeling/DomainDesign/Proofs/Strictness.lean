import DomainDesign.Compile.Aggregates
import DomainDesign.Compile.Mappers
import DomainDesign.Compile.Queries
import DomainDesign.Compile.Tables
import DomainDesign.Proofs.Walks

/-!
# Strict settings only reject

A node of a kind that has no place in a model is an error where the settings are strict, and is left
out with a warning where they are not.  `strict_only_rejects` says that strictness does nothing
else: whatever is compiled under strict settings is compiled to the same report without them.

**Nodes.**  All four compilers read a node of one of their kinds without looking at the strictness,
and leave all others to `foreign`.  `Screens` says this of a way to read nodes, and
`Screens.read_iff` compares the two readings of one node.

**Walks.**  Reading does not look at what has been read before, so the two walks can be compared
node by node, whatever else may be wrong with a node before or after the first one that has no
place: `survey_iff`.
-/

namespace DomainDesign

namespace Compile

/-! ## Kinds -/

/-- The kinds of nodes that a domain model is compiled from. -/
def domainKinds : List Kind :=
  [.aggregation, .entity, .valueObject, .enumeration, .command, .rule]

/-- The kinds of nodes that a query model is compiled from. -/
def queryKinds : List Kind :=
  [.query, .dto, .rule]

/-- The kinds of nodes that a data model is compiled from. -/
def dataKinds : List Kind :=
  [.dataObject]

/-- The kinds of nodes that an object mapper is compiled from. -/
def mapperKinds : List Kind :=
  [.mapperObject]

/-- A node has a place in a model that is compiled from nodes of the kinds, or is a root. -/
def HasPlace (t : Tree) (kinds : List Kind) (n : Node) : Prop :=
  n.kind ∈ kinds ∨ n.kind = .root ∨ n.id = t.rootId

/-! ## Nodes -/

variable {t : Tree} {c : Config} {n : Node} {α β : Type} {kinds : List Kind}

/-- A result that one way gives exactly if the other does and a condition holds stays so when it is
made into something else. -/
lemma map_ok_and_iff {strict lenient : Except Error α} {P : Prop}
    (h : ∀ a, strict = .ok a ↔ lenient = .ok a ∧ P) {finish : α → β} {b : β} :
    strict.map finish = .ok b ↔ lenient.map finish = .ok b ∧ P := by
  simp only [map_ok_iff, h]
  constructor
  · rintro ⟨a, ⟨ha, hP⟩, rfl⟩
    exact ⟨⟨a, ha, rfl⟩, hP⟩
  · rintro ⟨⟨a, ha, rfl⟩, hP⟩
    exact ⟨a, ⟨ha, hP⟩, rfl⟩

/-- Strictness matters for what is not at the root. -/
lemma foreign_strict_iff {stage : String} {warnings : List Warning} :
    foreign t { c with strict := true } stage n = .ok warnings
      ↔ foreign t { c with strict := false } stage n = .ok warnings
        ∧ (n.kind = .root ∨ n.id = t.rootId) := by
  by_cases hroot : n.kind = .root ∨ n.id = t.rootId <;> simp [foreign, hroot]

/-- A way to read nodes looks at the strictness only to screen nodes of other kinds. -/
structure Screens (t : Tree) (kinds : List Kind) (read : Config → Node → Except Error α) :
    Prop where
  placed : ∀ (c : Config) (n : Node), n.kind ∈ kinds →
    read { c with strict := true } n = read { c with strict := false } n
  other : ∃ stage, ∃ skip : List Warning → α, ∀ (c : Config) (n : Node), n.kind ∉ kinds →
    read c n = (foreign t c stage n).map skip

/-- **One node is read under strict settings** as it is without them, if it has a place. -/
lemma Screens.read_iff {read : Config → Node → Except Error α} (h : Screens t kinds read) {a : α} :
    read { c with strict := true } n = .ok a
      ↔ read { c with strict := false } n = .ok a ∧ HasPlace t kinds n := by
  by_cases hkind : n.kind ∈ kinds
  · rw [h.placed c n hkind]
    exact ⟨fun hread => ⟨hread, .inl hkind⟩, And.left⟩
  · obtain ⟨stage, skip, hother⟩ := h.other
    have hplace : HasPlace t kinds n ↔ n.kind = .root ∨ n.id = t.rootId :=
      or_iff_right hkind
    rw [hother _ n hkind, hother _ n hkind, hplace]
    exact map_ok_and_iff fun warnings => foreign_strict_iff

lemma screens_domainPart (t : Tree) : Screens t domainKinds (domainPart t) := by
  refine ⟨fun c n hkind => ?_, "domain", .skipped, fun c n hkind => ?_⟩
  · simp only [domainKinds, List.mem_cons, List.not_mem_nil, or_false] at hkind
    rcases hkind with hkind | hkind | hkind | hkind | hkind | hkind <;>
      (rewrite [domainPart, domainPart, hkind]; rfl)
  · rw [domainPart]
    cases hn : n.kind <;> simp [domainKinds, hn] at hkind ⊢

lemma screens_queryPart (t : Tree) : Screens t queryKinds (queryPart t) := by
  refine ⟨fun c n hkind => ?_, "query", .skipped, fun c n hkind => ?_⟩
  · simp only [queryKinds, List.mem_cons, List.not_mem_nil, or_false] at hkind
    rcases hkind with hkind | hkind | hkind <;> (rewrite [queryPart, queryPart, hkind]; rfl)
  · rw [queryPart]
    cases hn : n.kind <;> simp [queryKinds, hn] at hkind ⊢

lemma screens_dataPart (t : Tree) : Screens t dataKinds (dataPart t) := by
  refine ⟨fun c n hkind => ?_, "data", .skipped, fun c n hkind => ?_⟩
  · rw [dataPart, dataPart, List.mem_singleton.mp hkind]
  · rw [dataPart]
    cases hn : n.kind <;> simp [dataKinds, hn] at hkind ⊢

lemma screens_mapperPart (find : Lookup) (t : Tree) :
    Screens t mapperKinds (mapperPart find t) := by
  refine ⟨fun c n hkind => ?_, "mapper", (⟨none, ·⟩), fun c n hkind => ?_⟩
  · rw [mapperPart, mapperPart, List.mem_singleton.mp hkind]
  · rw [mapperPart]
    cases hn : n.kind <;> simp [mapperKinds, hn] at hkind ⊢

/-! ## Walks -/

/-- Two surveys that differ in which nodes they accept. -/
lemma survey_iff {strict lenient : Node → Except Error α} {P : Node → Prop}
    (h : ∀ n a, strict n = .ok a ↔ lenient n = .ok a ∧ P n) {parts : List α} :
    t.survey strict = .ok parts
      ↔ t.survey lenient = .ok parts ∧ ∀ n, t.Reachable n → P n := by
  have hpair : (fun n a => n.checkIdentity = .ok () ∧ strict n = .ok a)
      = fun n a => P n ∧ n.checkIdentity = .ok () ∧ lenient n = .ok a := by
    funext n a
    rw [h n a, ← and_assoc, and_comm]
  simp only [Tree.survey, Tree.readAll_eq_ok_iff, hpair, List.forall₂_and_left,
    t.preorder_visitOrder.mem_iff]
  exact and_comm

/-- **A whole compilation under strict settings**, where `finish` makes the report of what has been
read. -/
lemma Screens.compile_iff {read : Config → Node → Except Error α} (h : Screens t kinds read)
    {finish : List α → β} {r : β} :
    (t.survey (read { c with strict := true })).map finish = .ok r
      ↔ (t.survey (read { c with strict := false })).map finish = .ok r
        ∧ ∀ n, t.Reachable n → HasPlace t kinds n :=
  map_ok_and_iff fun _ => survey_iff fun _ _ => h.read_iff

/-- What is collected and then reported is a report of what a survey reads. -/
lemma report_collect {σ : Type} (t : Tree) (read : Node → Except Error α)
    (k : Tree.Collector σ α) (start : σ) (report : σ → β) :
    (t.collect read k start).map report
      = (t.survey read).map fun parts => report (k.settle start parts) := by
  rw [Tree.collect_eq]
  cases t.survey read <;> rfl

/-- **Strict settings only reject.**  Each of the four compilers makes a report under strict
settings exactly if it makes the same report, with the same model and the same warnings, where the
settings are not strict and otherwise the same, and every node that can be reached has a place in
its model. -/
theorem strict_only_rejects (t : Tree) (find : Lookup) (c : Config) :
    (∀ r, domainModel t { c with strict := true } = .ok r
      ↔ domainModel t { c with strict := false } = .ok r
        ∧ ∀ n, t.Reachable n → HasPlace t domainKinds n)
    ∧ (∀ r, queryModel t { c with strict := true } = .ok r
      ↔ queryModel t { c with strict := false } = .ok r
        ∧ ∀ n, t.Reachable n → HasPlace t queryKinds n)
    ∧ (∀ r, dataModel t { c with strict := true } = .ok r
      ↔ dataModel t { c with strict := false } = .ok r
        ∧ ∀ n, t.Reachable n → HasPlace t dataKinds n)
    ∧ ∀ r, objectMapper find t { c with strict := true } = .ok r
      ↔ objectMapper find t { c with strict := false } = .ok r
        ∧ ∀ n, t.Reachable n → HasPlace t mapperKinds n := by
  refine ⟨fun r => ?_, fun r => ?_, fun r => ?_, fun r => ?_⟩
  · rw [domainModel, domainModel, report_collect, report_collect]
    exact (screens_domainPart t).compile_iff
  · rw [queryModel, queryModel, report_collect, report_collect]
    exact (screens_queryPart t).compile_iff
  · rw [dataModel, dataModel, report_collect, report_collect]
    exact (screens_dataPart t).compile_iff
  · exact (screens_mapperPart find t).compile_iff

end Compile

end DomainDesign
