import DomainDesign.Proofs.RelationGraph

/-!
# The order of the trees of a document does not matter

What an object refers to, or what belongs to it, may be found in any tree, before or after the
object itself, and a survey stops at the first tree that cannot be read.
`tree_order_irrelevant` says that none of this shows in the view: two orders of the same trees give
the same relations, up to the order of the lists that are gathered from several trees.

**Findings.**  What is found in a list of trees is what is found in each of them, one behind the
other: `Finding.ofTrees_eq_ok_iff`.  So another order of the trees is another order of the findings.

**Objects.**  If no id is found twice, the findings with an id are the same in every order, and only
the lists of what belongs to an object depend on it: `ObjectRelations.alike_of_perm`.
-/

namespace DomainDesign

/-! ## Ids -/

namespace Tree

/-- No node of one tree has the id of a node of the other, where roots and nodes that cannot be
reached do not count. -/
def DisjointIds (t u : Tree) : Prop :=
  ∀ n m, t.Reachable n → u.Reachable m → n.kind ≠ .root → m.kind ≠ .root → n.id ≠ m.id

/-- The ids of the visited nodes that are no roots, in the order of the walk. -/
def objectIds (t : Tree) : List String :=
  (t.visitOrder.filter fun n => n.kind ≠ .root).map (·.id)

variable {t u : Tree}

lemma nodup_objectIds (t : Tree) : t.objectIds.Nodup :=
  t.nodup_ids_visitOrder.sublist (List.filter_sublist.map _)

lemma mem_objectIds {id : String} :
    id ∈ t.objectIds ↔ ∃ n, t.Reachable n ∧ n.kind ≠ .root ∧ n.id = id := by
  simp only [objectIds, List.mem_map, List.mem_filter, decide_eq_true_eq,
    t.preorder_visitOrder.mem_iff, and_assoc]

lemma disjointIds_iff : t.DisjointIds u ↔ t.objectIds.Disjoint u.objectIds := by
  constructor
  · intro h id hid hid'
    obtain ⟨n, hn, hkind, rfl⟩ := mem_objectIds.mp hid
    obtain ⟨m, hm, hkind', hsame⟩ := mem_objectIds.mp hid'
    exact h n m hn hm hkind hkind' hsame.symm
  · intro h n m hn hm hkind hkind' hsame
    exact h (mem_objectIds.mpr ⟨n, hn, hkind, rfl⟩) (mem_objectIds.mpr ⟨m, hm, hkind', hsame.symm⟩)

end Tree

/-! ## Texts in another order -/

lemma unique_perm {texts texts' : List String} (h : texts.Perm texts') :
    (unique texts).Perm (unique texts') := by
  rw [List.perm_ext_iff_of_nodup (nodup_unique _) (nodup_unique _)]
  intro text
  rw [mem_unique, mem_unique, h.mem_iff]

/-- The ordered list of texts does not depend on their order. -/
lemma orderedTexts_of_perm {texts texts' : List String} (h : texts.Perm texts') :
    orderedTexts texts = orderedTexts texts' := by
  have hnodup : ∀ l : List String, (orderedTexts l).Nodup := fun l =>
    (pairwise_orderedTexts l).imp String.ne_of_lt
  refine List.Perm.eq_of_pairwise (fun a b _ _ hab hba => absurd hba (String.lt_asymm hab))
    (pairwise_orderedTexts _) (pairwise_orderedTexts _) ?_
  rw [List.perm_ext_iff_of_nodup (hnodup _) (hnodup _)]
  intro text
  rw [mem_orderedTexts, mem_orderedTexts, h.mem_iff]

/-! ## Findings -/

namespace Finding

variable {t : Tree} {trees trees' : List Tree} {found found' here : List Finding} {id : String}

/-- What the nodes of a tree say, and nothing if the tree cannot be surveyed. -/
def said (t : Tree) : List Finding :=
  (ofTree t).toOption.getD []

/-- **What is found in trees is found in each of them**, and the trees can be surveyed exactly if
each of them can. -/
lemma ofTrees_eq_ok_iff : ofTrees trees = .ok found
    ↔ (∀ t ∈ trees, ofTree t = .ok (said t)) ∧ found = trees.flatMap said := by
  induction trees generalizing found with
  | nil => simp [ofTrees, eq_comm]
  | cons t rest ih =>
      simp only [ofTrees, bind_ok_iff, ih, List.forall_mem_cons, List.flatMap_cons]
      constructor
      · rintro ⟨here, hhere, others, ⟨hrest, rfl⟩, hfound⟩
        cases hfound
        have hsaid : said t = here := by simp [said, hhere, Except.toOption]
        exact ⟨⟨by rw [hsaid, hhere], hrest⟩, by rw [hsaid]⟩
      · rintro ⟨⟨hhere, hrest⟩, rfl⟩
        exact ⟨said t, hhere, _, ⟨hrest, rfl⟩, rfl⟩

/-- Another order of the trees gives the same findings in another order. -/
lemma ofTrees_of_perm (hperm : trees.Perm trees') (h : ofTrees trees = .ok found) :
    ∃ found', ofTrees trees' = .ok found' ∧ found.Perm found' := by
  obtain ⟨hall, rfl⟩ := ofTrees_eq_ok_iff.mp h
  refine ⟨trees'.flatMap said, ofTrees_eq_ok_iff.mpr ⟨fun t ht => ?_, rfl⟩, hperm.flatMap_right _⟩
  exact hall t (hperm.mem_iff.mpr ht)

/-- Every visited node that is no root says one thing, about itself. -/
lemma ids_ofTree (h : ofTree t = .ok here) : here.map (·.id) = t.objectIds := by
  obtain ⟨said, hsaid, hhere⟩ := bind_ok_iff.mp h
  cases hhere
  have hread := Tree.readAll_eq_ok_iff.mp hsaid
  clear hsaid h
  rw [Tree.objectIds]
  generalize t.visitOrder = nodes at hread ⊢
  induction hread with
  | nil => rfl
  | @cons n f nodes said hnode _ ih =>
      rcases ofNode_ok hnode.2 with ⟨hroot, rfl⟩ | ⟨hkind, g, rfl, hid⟩
      · simpa [hroot] using ih
      · simpa [hkind, hid] using ih

/-- **No id is found twice** in trees without common ids. -/
lemma nodup_ids (hdisjoint : trees.Pairwise Tree.DisjointIds) (h : ofTrees trees = .ok found) :
    (found.map (·.id)).Nodup := by
  obtain ⟨hall, rfl⟩ := ofTrees_eq_ok_iff.mp h
  rw [List.map_flatMap, List.nodup_flatMap]
  refine ⟨fun t ht => ?_, ?_⟩
  · rw [ids_ofTree (hall t ht)]
    exact t.nodup_objectIds
  · refine hdisjoint.imp_of_mem fun {t u} ht hu htu => ?_
    have hids := Tree.disjointIds_iff.mp htu
    rw [← ids_ofTree (hall t ht), ← ids_ofTree (hall u hu)] at hids
    exact hids

/-- What is said about an id that is found once is the same in every order. -/
lemma filter_eq_of_perm (hperm : found.Perm found') (hnodup : (found.map (·.id)).Nodup) :
    (found.filter fun f => f.id = id) = found'.filter fun f => f.id = id := by
  have hown : (found.filter fun f => f.id = id).Perm (found'.filter fun f => f.id = id) :=
    hperm.filter _
  have hone : (found.filter fun f => f.id = id).length ≤ 1 := by
    rw [← List.countP_eq_length_filter]
    calc found.countP (fun f => f.id = id) = (found.map (·.id)).count id := by
          rw [List.count, List.countP_map]
          rfl
      _ ≤ 1 := List.nodup_iff_count_le_one.mp hnodup id
  generalize found.filter (fun f => f.id = id) = own at hown hone ⊢
  match own, hone with
  | [], _ => exact hown.nil_eq
  | [f], _ => exact List.singleton_perm.mp hown

end Finding

/-! ## Objects -/

namespace ObjectRelations

/-- Two objects have the same relations, up to the order of what belongs to them. -/
structure Alike (o o' : ObjectRelations) : Prop where
  id : o.id = o'.id
  kind : o.kind = o'.kind
  dependencies : o.dependencies = o'.dependencies
  associations : o.associations = o'.associations
  aggregations : o.aggregations.Perm o'.aggregations
  hasReferencesError : o.hasReferencesError = o'.hasReferencesError

variable {found found' : List Finding}

/-- **The order of the findings shows only in what belongs to an object**, if no id is found
twice. -/
lemma alike_of_perm (hperm : found.Perm found') (hnodup : (found.map (·.id)).Nodup) (id : String) :
    (of found id).Alike (of found' id) := by
  have hknown : ∀ i, (found.any fun f => f.id = i) = found'.any fun f => f.id = i :=
    fun i => hperm.any_eq
  have hown : (found.filter fun f => f.id = id) = found'.filter fun f => f.id = id :=
    Finding.filter_eq_of_perm hperm hnodup
  have hmembers : (((found.flatMap (·.links)).filter fun l => l.1 = id).map (·.2)).Perm
      (((found'.flatMap (·.links)).filter fun l => l.1 = id).map (·.2)) :=
    ((hperm.flatMap_right _).filter _).map _
  refine ⟨rfl, ?_, ?_, ?_, ?_, ?_⟩
  all_goals simp only [of, hown, hknown]
  exact (unique_perm hmembers).filter _

lemma Alike.related_perm {o o' : ObjectRelations} (h : o.Alike o') (r : Relationship) :
    (o.related r).Perm (o'.related r) := by
  cases r with
  | dependency => exact .of_eq h.dependencies
  | association => exact .of_eq h.associations
  | aggregation => exact h.aggregations

/-- Objects that are alike have the same arrows, up to their order. -/
lemma Alike.edges_perm {o o' : ObjectRelations} (h : o.Alike o') : o.edges.Perm o'.edges := by
  have harrows : ∀ r, (o.arrows r).Perm (o'.arrows r) := by
    intro r
    rw [arrows, arrows, h.id]
    exact (h.related_perm r).map _
  rw [edges_eq, edges_eq, h.id]
  exact (((harrows _).append (harrows _)).append (harrows _)).filter _

end ObjectRelations

/-! ## Views -/

namespace View

/-- Two views have the same objects in the same order, and the same arrows in any order. -/
structure Alike (v v' : View) : Prop where
  keys : v.keys = v'.keys
  objects : List.Forall₂ ObjectRelations.Alike v.objects v'.objects
  edges : v.edges.Perm v'.edges

variable {trees trees' : List Tree} {v v' : View}

lemma exists_view_iff : (∃ v, ofTrees trees = .ok v)
    ↔ ∃ found, Finding.ofTrees trees = .ok found := by
  constructor
  · rintro ⟨v, hv⟩
    obtain ⟨found, hfound, -⟩ := ofTrees_ok hv
    exact ⟨found, hfound⟩
  · rintro ⟨found, hfound⟩
    exact ⟨_, bind_ok_iff.mpr ⟨found, hfound, rfl⟩⟩

/-- **The order of the trees does not matter.**  If the trees have no ids in common, then any two
orders of them can both be surveyed or can both not, and give the same view up to the order of what
belongs to an object and of the arrows. -/
theorem tree_order_irrelevant (hperm : trees.Perm trees')
    (hdisjoint : trees.Pairwise Tree.DisjointIds) :
    ((∃ v, ofTrees trees = .ok v) ↔ ∃ v', ofTrees trees' = .ok v')
      ∧ ∀ v v', ofTrees trees = .ok v → ofTrees trees' = .ok v' → v.Alike v' := by
  refine ⟨?_, fun v v' hv hv' => ?_⟩
  · rw [exists_view_iff, exists_view_iff]
    constructor
    · rintro ⟨found, hfound⟩
      obtain ⟨found', hfound', -⟩ := Finding.ofTrees_of_perm hperm hfound
      exact ⟨found', hfound'⟩
    · rintro ⟨found', hfound'⟩
      obtain ⟨found, hfound, -⟩ := Finding.ofTrees_of_perm hperm.symm hfound'
      exact ⟨found, hfound⟩
  · obtain ⟨found, hfound, hobjects⟩ := ofTrees_ok hv
    obtain ⟨found', hfound', hobjects'⟩ := ofTrees_ok hv'
    obtain ⟨found₁, hfound₁, hfindings⟩ := Finding.ofTrees_of_perm hperm hfound
    obtain rfl := Except.ok.inj (hfound₁.symm.trans hfound')
    have halike := ObjectRelations.alike_of_perm hfindings (Finding.nodup_ids hdisjoint hfound)
    have hids := orderedTexts_of_perm (hfindings.map (·.id))
    refine ⟨?_, ?_, ?_⟩
    · rw [keys_eq hobjects, keys_eq hobjects', hids]
    · rw [hobjects, hobjects', hids, List.forall₂_map_left_iff, List.forall₂_map_right_iff,
        List.forall₂_same]
      exact fun id _ => halike id
    · rw [edges, edges, hobjects, hobjects', hids, List.flatMap_map, List.flatMap_map]
      exact List.Perm.flatMap_left _ fun id _ => (halike id).edges_perm

/-- A market with a stall in it. -/
def marketTree : Tree :=
  .ofNodes "__ROOT__"
    [["market"].foldl Node.withChild (Node.make "__ROOT__" .root .null),
      ["stall"].foldl Node.withChild (Node.make "market" .aggregation .null),
      Node.make "stall" .valueObject .null]

/-- A command that belongs to the market, with a property that refers to the stall and one that
refers to something that is not there. -/
def tradeTree : Tree :=
  let typed (id : String) : Json :=
    .obj [("uuid", .str id), ("type", (TypeExpr.reference id id).toJson)]
  .ofNodes "__ROOT__"
    [["trade"].foldl Node.withChild (Node.make "__ROOT__" .root .null),
      Node.make "trade" .command
        (.obj [("aggregation", .obj [("referenceId", .str "market")]),
          ("properties", .arr [typed "stall", typed "gone"])])]

/-- The tree that is read first has what belongs to the market listed first. -/
theorem tree_order_irrelevant_market :
    [marketTree, tradeTree].Pairwise Tree.DisjointIds
      ∧ ∃ v v', ofTrees [marketTree, tradeTree] = .ok v ∧ ofTrees [tradeTree, marketTree] = .ok v'
        ∧ v.Alike v'
        ∧ (v.object? "market").map (·.aggregations) = some ["stall", "trade"]
        ∧ (v'.object? "market").map (·.aggregations) = some ["trade", "stall"]
        ∧ v.referenceErrors = ["trade"] := by
  have hdisjoint : [marketTree, tradeTree].Pairwise Tree.DisjointIds := by
    have hmarket : marketTree.objectIds = ["market", "stall"] := by decide +kernel
    have htrade : tradeTree.objectIds = ["trade"] := by decide +kernel
    rw [List.pairwise_pair, Tree.disjointIds_iff, hmarket, htrade, List.disjoint_singleton]
    decide
  have hview : (ofTrees [marketTree, tradeTree]).map (fun v =>
      ((v.object? "market").map (·.aggregations), v.referenceErrors))
      = .ok (some ["stall", "trade"], ["trade"]) := by decide +kernel
  have hview' : (ofTrees [tradeTree, marketTree]).map (fun v =>
      (v.object? "market").map (·.aggregations)) = .ok (some ["trade", "stall"]) := by
    decide +kernel
  obtain ⟨v, hv, hparts⟩ := map_ok_iff.mp hview
  obtain ⟨v', hv', hmembers'⟩ := map_ok_iff.mp hview'
  obtain ⟨hmembers, herrors⟩ := Prod.ext_iff.mp hparts
  have halike := (tree_order_irrelevant (List.Perm.swap _ _ _) hdisjoint).2 v v' hv hv'
  exact ⟨hdisjoint, v, v', hv, hv', halike, hmembers, hmembers', herrors⟩

end View

end DomainDesign
