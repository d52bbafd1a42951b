import DomainDesign.Proofs.RelationGraph

/-!
# Associations and dependencies

An object is associated with what it holds, and depends on what it uses and does not hold: an id
that is both held and used is an association.  This is said node by node.  The relations of an
object are those of all nodes with its id, and several trees may have a node with the same id.

**Nodes.**  `Node.Holds` and `Node.Uses` say what a node holds and uses, by its kind.
`Finding.tells_apart` says that the finding of a node keeps them apart.

**Objects.**  What one tree has as an association another one may have as a dependency, of the same
object: `Divided`.  `relation_kinds` says that this is the only way for an object to list an id as
both, so that the view of one tree never does.  That it can happen is
`association_beside_dependency`.
-/

namespace DomainDesign

open Model

/-! ## Nodes -/

/-- One of the properties has an id in its type. -/
def HeldBy (ps : List Property) (id : String) : Prop :=
  ∃ p ∈ ps, id ∈ TypeExpr.dependencies? p.type

/-- One of the methods has an id in the type of a parameter or of its result. -/
def UsedBy (ms : List Method) (id : String) : Prop :=
  ∃ m ∈ ms, (∃ p ∈ m.parameters, id ∈ TypeExpr.dependencies? p.type)
    ∨ id ∈ TypeExpr.dependencies? m.result

namespace Model.ClassBody

/-- A class holds what its properties refer to. -/
def Holds (b : ClassBody) (id : String) : Prop :=
  HeldBy b.properties id ∨ HeldBy b.classProperties id

/-- A class uses what its methods refer to. -/
def Uses (b : ClassBody) (id : String) : Prop :=
  UsedBy b.methods id ∨ UsedBy b.classMethods id

end Model.ClassBody

namespace Node

/-- A node holds an id: in the type of a property, or, as a data object, by a column that refers to
it. -/
def Holds (n : Node) (id : String) : Prop :=
  match n.kind with
  | .entity => ∃ e, n.read Entity.ofJson? = .ok e ∧ e.toClassBody.Holds id
  | .valueObject => ∃ v, n.read ValueObject.ofJson? = .ok v ∧ v.toClassBody.Holds id
  | .dto => ∃ d, n.read Dto.ofJson? = .ok d ∧ d.toClassBody.Holds id
  | .command => ∃ c, n.read Command.ofJson? = .ok c
      ∧ (HeldBy c.properties id ∨ HeldBy c.eventProperties id)
  | .query => ∃ q, n.read Query.ofJson? = .ok q ∧ HeldBy q.properties id
  | .dataObject => ∃ d, n.read DataObject.ofJson? = .ok d
      ∧ ∃ p ∈ d.properties, ∃ column cardinality, p.type = .reference (some id) column cardinality
  | _ => False

/-- A node uses an id: in a method, or, as a query, in its result. -/
def Uses (n : Node) (id : String) : Prop :=
  match n.kind with
  | .entity => ∃ e, n.read Entity.ofJson? = .ok e ∧ e.toClassBody.Uses id
  | .valueObject => ∃ v, n.read ValueObject.ofJson? = .ok v ∧ v.toClassBody.Uses id
  | .dto => ∃ d, n.read Dto.ofJson? = .ok d ∧ d.toClassBody.Uses id
  | .query => ∃ q, n.read Query.ofJson? = .ok q ∧ id ∈ TypeExpr.dependencies? q.result
  | _ => False

end Node

namespace Model

variable {id : String}

lemma mem_propertyDependencies {ps : List Property} :
    id ∈ propertyDependencies ps ↔ HeldBy ps id := by
  rw [propertyDependencies, mem_unique, List.mem_flatMap]
  rfl

lemma mem_methodDependencies {ms : List Method} : id ∈ methodDependencies ms ↔ UsedBy ms id := by
  simp only [methodDependencies, parameterDependencies, mem_unique, List.mem_flatMap,
    List.mem_append]
  rfl

/-- What is both held and used is an association. -/
lemma Dependencies.mem_of {associations others : List String} :
    id ∈ (Dependencies.of associations others).dependencies ↔ id ∈ others ∧ id ∉ associations := by
  simp [Dependencies.of_eq, mem_unique]

lemma ClassBody.mem_associations {b : ClassBody} :
    id ∈ b.dependencies.associations ↔ b.Holds id := by
  simp only [dependencies, Dependencies.associations_of, mem_unique, List.mem_append,
    mem_propertyDependencies]
  rfl

lemma ClassBody.mem_dependencies {b : ClassBody} :
    id ∈ b.dependencies.dependencies ↔ b.Uses id ∧ ¬ b.Holds id := by
  rw [← b.mem_associations]
  simp only [dependencies, Dependencies.mem_of, Dependencies.associations_of, List.mem_append,
    mem_methodDependencies]
  rfl

lemma Query.mem_associations {q : Query} :
    id ∈ q.dependencies.associations ↔ HeldBy q.properties id := by
  rw [dependencies, Dependencies.associations_of, mem_propertyDependencies]

lemma Query.mem_dependencies {q : Query} : id ∈ q.dependencies.dependencies
    ↔ id ∈ TypeExpr.dependencies? q.result ∧ ¬ HeldBy q.properties id := by
  rw [dependencies, Dependencies.mem_of, mem_propertyDependencies]

end Model

namespace Finding

variable {t : Tree} {n : Node} {f : Finding} {id : String}

/-- **A finding tells apart what its node holds and what it only uses.** -/
lemma tells_apart (h : ofNode t n = .ok (some f)) :
    (id ∈ f.associations ↔ n.Holds id) ∧ (id ∈ f.dependencies ↔ n.Uses id ∧ ¬ n.Holds id) := by
  rw [ofNode] at h
  rw [Node.Holds, Node.Uses]
  cases hkind : n.kind with
  | root =>
      rw [hkind] at h
      cases h
  | aggregation | enumeration | mapperObject | other =>
      rw [hkind] at h
      cases h
      simp [bare]
  | rule =>
      rw [hkind] at h
      obtain ⟨r, -, hf⟩ := bind_ok_iff.mp h
      cases hf
      simp [bare]
  | command =>
      rw [hkind] at h
      obtain ⟨c, hread, hf⟩ := bind_ok_iff.mp h
      cases hf
      simp [hread, bare, Command.associations, mem_unique, mem_propertyDependencies]
  | query =>
      rw [hkind] at h
      obtain ⟨q, hread, hf⟩ := bind_ok_iff.mp h
      cases hf
      simp [hread, ofDependencies, Query.mem_associations, Query.mem_dependencies]
  | dataObject =>
      rw [hkind] at h
      obtain ⟨d, hread, hf⟩ := bind_ok_iff.mp h
      cases hf
      simp [hread, bare, mem_columnTargets]
  | _ =>
      rw [hkind] at h
      obtain ⟨part, hread, hf⟩ := bind_ok_iff.mp h
      cases hf
      simp [hread, ofDependencies, ClassBody.mem_associations, ClassBody.mem_dependencies]

end Finding

/-! ## Objects -/

namespace ObjectRelations

variable {found : List Finding} {id target : String}

/-- What the findings with an id have in one of their lists, as far as it is known. -/
lemma mem_resolved (part : Finding → List String) :
    target ∈ (unique ((found.filter fun f => f.id = id).flatMap part)).filter
        (fun i => found.any fun f => f.id = i)
      ↔ target ∈ found.map (·.id) ∧ ∃ f ∈ found, f.id = id ∧ target ∈ part f := by
  simp only [List.mem_filter, mem_unique, List.mem_flatMap, List.any_eq_true, decide_eq_true_eq,
    List.mem_map, and_assoc]
  exact and_comm

lemma mem_dependencies : target ∈ (of found id).dependencies
    ↔ target ∈ found.map (·.id) ∧ ∃ f ∈ found, f.id = id ∧ target ∈ f.dependencies :=
  mem_resolved (·.dependencies)

lemma mem_associations : target ∈ (of found id).associations
    ↔ target ∈ found.map (·.id) ∧ ∃ f ∈ found, f.id = id ∧ target ∈ f.associations :=
  mem_resolved (·.associations)

end ObjectRelations

/-- Trees are divided about an id: for an object that one of them has, it is a dependency, and for
the object that another one has under the same id, an association. -/
def Divided (trees : List Tree) (source id : String) : Prop :=
  ∃ t₁ ∈ trees, ∃ t₂ ∈ trees, t₁ ≠ t₂ ∧ ∃ n₁ n₂, t₁.Reachable n₁ ∧ t₂.Reachable n₂
    ∧ n₁.id = source ∧ n₂.id = source ∧ (n₁.Uses id ∧ ¬ n₁.Holds id) ∧ n₂.Holds id

/-- Findings of one id that are not the same about another one are those of divided trees. -/
lemma Finding.divided_iff {trees : List Tree} {found : List Finding} {source id : String}
    (h : ofTrees trees = .ok found) :
    (∃ f ∈ found, f.id = source ∧ id ∈ f.dependencies)
        ∧ (∃ f ∈ found, f.id = source ∧ id ∈ f.associations)
      ↔ Divided trees source id := by
  constructor
  · rintro ⟨⟨f₁, hf₁, rfl, hid₁⟩, ⟨f₂, hf₂, hsame, hid₂⟩⟩
    obtain ⟨t₁, ht₁, n₁, hn₁, -, hsource₁, hsaid₁⟩ := exists_node_of_mem h hf₁
    obtain ⟨t₂, ht₂, n₂, hn₂, -, hsource₂, hsaid₂⟩ := exists_node_of_mem h hf₂
    have huses := (tells_apart hsaid₁).2.mp hid₁
    have hholds := (tells_apart hsaid₂).1.mp hid₂
    refine ⟨t₁, ht₁, t₂, ht₂, ?_, n₁, n₂, hn₁, hn₂, hsource₁, hsource₂.trans hsame, huses, hholds⟩
    -- one tree has one node with the id, which is not divided in itself
    rintro rfl
    have hnode : n₁ = n₂ := by
      refine Tree.eq_of_id_eq ((t₁.preorder_visitOrder.mem_iff n₁).mpr hn₁)
        ((t₁.preorder_visitOrder.mem_iff n₂).mpr hn₂) ?_
      rw [hsource₁, hsource₂, hsame]
    exact huses.2 (hnode ▸ hholds)
  · rintro ⟨t₁, ht₁, t₂, ht₂, -, n₁, n₂, hn₁, hn₂, hsource₁, hsource₂, huses, hholds⟩
    have hkind₁ : n₁.kind ≠ .root := by
      intro hroot
      simp [Node.Uses, hroot] at huses
    have hkind₂ : n₂.kind ≠ .root := by
      intro hroot
      simp [Node.Holds, hroot] at hholds
    obtain ⟨f₁, hf₁, hid₁, hsaid₁⟩ :=
      exists_of_visited h ht₁ ((t₁.preorder_visitOrder.mem_iff n₁).mpr hn₁) hkind₁
    obtain ⟨f₂, hf₂, hid₂, hsaid₂⟩ :=
      exists_of_visited h ht₂ ((t₂.preorder_visitOrder.mem_iff n₂).mpr hn₂) hkind₂
    exact ⟨⟨f₁, hf₁, hid₁.trans hsource₁, (tells_apart hsaid₁).2.mpr huses⟩,
      f₂, hf₂, hid₂.trans hsource₂, (tells_apart hsaid₂).1.mpr hholds⟩

namespace View

/-- No object lists an id both as a dependency and as an association. -/
def AssociationWins (v : View) : Prop :=
  ∀ o ∈ v.objects, ∀ id ∈ o.dependencies, id ∉ o.associations

instance (v : View) : Decidable v.AssociationWins :=
  inferInstanceAs (Decidable (∀ o ∈ v.objects, ∀ id ∈ o.dependencies, id ∉ o.associations))

/-- What is both a dependency and an association in the view of trees: what they are divided about,
as far as it is known. -/
structure KindsOver (v : View) (trees : List Tree) : Prop where
  listed : ∀ o ∈ v.objects, ∀ id, id ∈ o.dependencies ∧ id ∈ o.associations
    ↔ id ∈ v.keys ∧ Divided trees o.id id
  drawn : ∀ source target,
    ⟨source, target, .dependency⟩ ∈ v.edges ∧ ⟨source, target, .association⟩ ∈ v.edges
      ↔ source ≠ target ∧ target ∈ v.keys ∧ Divided trees source target
  wins : v.AssociationWins ↔ ∀ source, ∀ id ∈ v.keys, ¬ Divided trees source id

variable {trees : List Tree} {v : View} {found : List Finding} {source id : String}

/-- The objects of a view are made of the findings with their ids. -/
lemma mem_objects_iff
    (hv : v.objects = (orderedTexts (found.map (·.id))).map (ObjectRelations.of found))
    {o : ObjectRelations} :
    o ∈ v.objects ↔ o.id ∈ found.map (·.id) ∧ o = ObjectRelations.of found o.id := by
  rw [hv, List.mem_map]
  constructor
  · rintro ⟨id, hid, rfl⟩
    exact ⟨mem_orderedTexts.mp hid, rfl⟩
  · rintro ⟨hid, heq⟩
    exact ⟨o.id, mem_orderedTexts.mpr hid, heq.symm⟩

/-- What trees are divided about is listed as both. -/
lemma listed_iff (hfound : Finding.ofTrees trees = .ok found) :
    id ∈ (ObjectRelations.of found source).dependencies
        ∧ id ∈ (ObjectRelations.of found source).associations
      ↔ id ∈ found.map (·.id) ∧ Divided trees source id := by
  rw [ObjectRelations.mem_dependencies, ObjectRelations.mem_associations, ← and_and_left,
    Finding.divided_iff hfound]

/-- Where trees are divided about something for an object, there is that object. -/
lemma object_of_divided (hfound : Finding.ofTrees trees = .ok found)
    (hv : v.objects = (orderedTexts (found.map (·.id))).map (ObjectRelations.of found))
    (h : Divided trees source id) : ObjectRelations.of found source ∈ v.objects := by
  obtain ⟨⟨f, hf, rfl, -⟩, -⟩ := (Finding.divided_iff hfound).mpr h
  exact (mem_objects_iff hv).mpr ⟨List.mem_map_of_mem hf, rfl⟩

/-- **How associations win.**  An id is listed for an object both as a dependency and as an
association, and there are arrows for both, exactly if it is known and the trees are divided about
it.  So associations win everywhere exactly if no two trees are divided about anything known, as no
tree is by itself. -/
theorem relation_kinds (h : ofTrees trees = .ok v) : v.KindsOver trees := by
  obtain ⟨found, hfound, hv⟩ := ofTrees_ok h
  have hkeys : ∀ id, id ∈ v.keys ↔ id ∈ found.map (·.id) := by
    intro id
    rw [keys_eq hv, mem_orderedTexts]
  have hlisted : ∀ o ∈ v.objects, ∀ id, id ∈ o.dependencies ∧ id ∈ o.associations
      ↔ id ∈ v.keys ∧ Divided trees o.id id := by
    intro o ho id
    rw [((mem_objects_iff hv).mp ho).2, listed_iff hfound, hkeys]
    rfl
  refine ⟨hlisted, fun source target => ?drawn, ?wins⟩
  case drawn =>
    rw [mem_edges, mem_edges]
    constructor
    · rintro ⟨⟨o, ho, hsource, hdependency, hne⟩, o', ho', hsource', hassociation, -⟩
      -- the two arrows start at the same object
      have hsame : o' = o := by
        rw [((mem_objects_iff hv).mp ho).2, ((mem_objects_iff hv).mp ho').2, ← hsource, ← hsource']
      subst hsame
      obtain ⟨hknown, hdivided⟩ := (hlisted o' ho target).mp ⟨hdependency, hassociation⟩
      have hid : source = o'.id := hsource
      rw [← hid] at hdivided
      exact ⟨fun heq => hne (heq.symm.trans hid), hknown, hdivided⟩
    · rintro ⟨hne, hknown, hdivided⟩
      have ho := object_of_divided hfound hv hdivided
      obtain ⟨hdependency, hassociation⟩ := (hlisted _ ho target).mpr ⟨hknown, hdivided⟩
      exact ⟨⟨_, ho, rfl, hdependency, hne.symm⟩, _, ho, rfl, hassociation, hne.symm⟩
  case wins =>
    constructor
    · intro hwins source id hknown hdivided
      have ho := object_of_divided hfound hv hdivided
      obtain ⟨hdependency, hassociation⟩ := (hlisted _ ho id).mpr ⟨hknown, hdivided⟩
      exact hwins _ ho id hdependency hassociation
    · intro hnone o ho id hdependency hassociation
      obtain ⟨hknown, hdivided⟩ := (hlisted o ho id).mp ⟨hdependency, hassociation⟩
      exact hnone o.id id hknown hdivided

/-- An order, which has a user. -/
def orderTree : Tree :=
  .ofNodes "__ROOT__"
    [["order", "user"].foldl Node.withChild (Node.make "__ROOT__" .root .null),
      Node.make "order" .entity
        (.obj [("properties", .arr [.obj [("uuid", .str "o1"), ("name", .str "buyer"),
          ("type", (TypeExpr.reference "user" "User").toJson)]])]),
      Node.make "user" .valueObject .null]

/-- The form of an order, under the same id, which has a method to find a user. -/
def orderFormTree : Tree :=
  .ofNodes "__ROOT__"
    [["order"].foldl Node.withChild (Node.make "__ROOT__" .root .null),
      Node.make "order" .dto
        (.obj [("methods", .arr [.obj [("uuid", .str "f1"), ("name", .str "find"),
          ("result", (TypeExpr.reference "user" "User").toJson)]])])]

theorem relation_kinds_orders :
    ∃ v, ofTrees [orderTree, orderFormTree] = .ok v ∧ v.KindsOver [orderTree, orderFormTree]
      ∧ Divided [orderTree, orderFormTree] "order" "user" := by
  have hedges : (ofTrees [orderTree, orderFormTree]).map edges
      = .ok [⟨"order", "user", .dependency⟩, ⟨"order", "user", .association⟩] := by decide +kernel
  obtain ⟨v, hv, heq⟩ := map_ok_iff.mp hedges
  have hkinds := relation_kinds hv
  refine ⟨v, hv, hkinds, ((hkinds.drawn "order" "user").mp ?_).2.2⟩
  rw [heq]
  exact ⟨by decide, by decide⟩

/-- **An association may stand beside a dependency.**  The order and its form have one id, so the
object with that id both depends on the user and is associated with it. -/
theorem association_beside_dependency :
    ∃ v, ofTrees [orderTree, orderFormTree] = .ok v ∧ ¬ v.AssociationWins
      ∧ v.edges = [⟨"order", "user", .dependency⟩, ⟨"order", "user", .association⟩] := by
  have hview : (ofTrees [orderTree, orderFormTree]).map
      (fun v => (decide v.AssociationWins, v.edges))
      = .ok (false, [⟨"order", "user", .dependency⟩, ⟨"order", "user", .association⟩]) := by
    decide +kernel
  obtain ⟨v, hv, heq⟩ := map_ok_iff.mp hview
  obtain ⟨hnot, hedges⟩ := Prod.mk.inj heq
  exact ⟨v, hv, of_decide_eq_false hnot, hedges⟩

end View

end DomainDesign
