import DomainDesign.Proofs.Findings

/-!
# The relations of a document are a closed graph

Relations are found node by node, over several trees; an object is named before it is known whether
it exists, and what belongs to an object is found at the member.  `view_closed` says what the view
of all of them is in the end.

**Nodes.**  `RefersTo n id` says which ids a node refers to, by its kind.  `Finding.refersTo_iff`
says that a finding has them, so a view can be compared with the nodes that can be reached:
`Finding.exists_refersTo_iff`.

**Objects.**  The three lists of an object are made alike, `ObjectRelations.exists_related_eq`: each
id once, and only ids that are known when everything has been found.

**Arrows.**  `ObjectRelations.mem_edges` and `View.mem_edges` read the arrows off the lists.
-/

namespace DomainDesign

open Model

/-! ## Nodes -/

/-- A node refers to an id: as a class, a command or a query in the types that it is written with,
as a data object by a column that refers to another one. -/
def RefersTo (n : Node) (id : String) : Prop :=
  match n.kind with
  | .entity => ∃ e, n.read Entity.ofJson? = .ok e ∧ id ∈ e.toClassBody.dependencies.all
  | .valueObject => ∃ v, n.read ValueObject.ofJson? = .ok v ∧ id ∈ v.toClassBody.dependencies.all
  | .dto => ∃ d, n.read Dto.ofJson? = .ok d ∧ id ∈ d.toClassBody.dependencies.all
  | .command => ∃ c, n.read Command.ofJson? = .ok c ∧ id ∈ c.associations
  | .query => ∃ q, n.read Query.ofJson? = .ok q ∧ id ∈ q.dependencies.all
  | .dataObject => ∃ d, n.read DataObject.ofJson? = .ok d
      ∧ ∃ p ∈ d.properties, ∃ column cardinality, p.type = .reference (some id) column cardinality
  | _ => False

namespace Finding

variable {t : Tree} {trees : List Tree} {n : Node} {f : Finding} {found : List Finding}
  {id : String}

lemma mem_columnTargets {d : DataObject} : id ∈ columnTargets d
    ↔ ∃ p ∈ d.properties, ∃ column cardinality,
      p.type = .reference (some id) column cardinality := by
  rw [columnTargets, mem_unique, List.mem_filterMap]
  refine exists_congr fun p => and_congr_right fun _ => ?_
  split
  next target column cardinality htype => simp [htype, eq_comm]
  next hother =>
    constructor
    · rintro ⟨⟩
    · rintro ⟨column, cardinality, htype⟩
      exact absurd htype (hother _ _ _)

/-- **A finding has what its node refers to.** -/
lemma refersTo_iff (h : ofNode t n = .ok (some f)) :
    RefersTo n id ↔ id ∈ f.dependencies ∨ id ∈ f.associations := by
  rw [ofNode] at h
  cases hkind : n.kind with
  | root =>
      rw [hkind] at h
      cases h
  | aggregation | enumeration | mapperObject | other =>
      rw [hkind] at h
      cases h
      simp [RefersTo, hkind, bare]
  | rule =>
      rw [hkind] at h
      obtain ⟨r, -, hf⟩ := bind_ok_iff.mp h
      cases hf
      simp [RefersTo, hkind, bare]
  | dataObject =>
      rw [hkind] at h
      obtain ⟨d, hread, hf⟩ := bind_ok_iff.mp h
      cases hf
      simp [RefersTo, hkind, hread, bare, mem_columnTargets]
  | command =>
      rw [hkind] at h
      obtain ⟨c, hread, hf⟩ := bind_ok_iff.mp h
      cases hf
      simp [RefersTo, hkind, hread, bare]
  | _ =>
      rw [hkind] at h
      obtain ⟨part, hread, hf⟩ := bind_ok_iff.mp h
      cases hf
      simp [RefersTo, hkind, hread, ofDependencies, Dependencies.all, or_comm]

/-- Everything that is found is said by a node that can be reached. -/
lemma exists_node_of_mem (h : ofTrees trees = .ok found) (hf : f ∈ found) :
    ∃ t ∈ trees, ∃ n, t.Reachable n ∧ n.kind ≠ .root ∧ n.id = f.id
      ∧ ofNode t n = .ok (some f) := by
  obtain ⟨t, ht, n, hn, hsaid⟩ := (mem_ofTrees h).mp hf
  rcases ofNode_ok hsaid with ⟨-, hnone⟩ | ⟨hkind, g, hg, hid⟩
  · cases hnone
  · cases hg
    exact ⟨t, ht, n, (t.preorder_visitOrder.mem_iff n).mp hn, hkind, hid.symm, hsaid⟩

/-- The ids of what is found are those of the nodes that can be reached and are no roots. -/
lemma mem_ids_iff (h : ofTrees trees = .ok found) : id ∈ found.map (·.id)
    ↔ ∃ t ∈ trees, ∃ n, t.Reachable n ∧ n.kind ≠ .root ∧ n.id = id := by
  constructor
  · intro hid
    obtain ⟨f, hf, rfl⟩ := List.mem_map.mp hid
    obtain ⟨t, ht, n, hn, hkind, hsame, -⟩ := exists_node_of_mem h hf
    exact ⟨t, ht, n, hn, hkind, hsame⟩
  · rintro ⟨t, ht, n, hn, hkind, rfl⟩
    exact id_mem_ofTrees h ht ((t.preorder_visitOrder.mem_iff n).mpr hn) hkind

/-- **What the findings with an id have is what the nodes with that id refer to.** -/
lemma exists_refersTo_iff (h : ofTrees trees = .ok found) {source : String} :
    (∃ f ∈ found, f.id = source ∧ (id ∈ f.dependencies ∨ id ∈ f.associations))
      ↔ ∃ t ∈ trees, ∃ n, t.Reachable n ∧ n.id = source ∧ RefersTo n id := by
  constructor
  · rintro ⟨f, hf, rfl, hid⟩
    obtain ⟨t, ht, n, hn, -, hsame, hsaid⟩ := exists_node_of_mem h hf
    exact ⟨t, ht, n, hn, hsame, (refersTo_iff hsaid).mpr hid⟩
  · rintro ⟨t, ht, n, hn, rfl, hrefers⟩
    have hkind : n.kind ≠ .root := by
      intro hroot
      simp [RefersTo, hroot] at hrefers
    obtain ⟨f, hf, hsame, hsaid⟩ :=
      exists_of_visited h ht ((t.preorder_visitOrder.mem_iff n).mpr hn) hkind
    exact ⟨f, hf, hsame, (refersTo_iff hsaid).mp hrefers⟩

end Finding

/-! ## Objects -/

namespace ObjectRelations

/-- What an object is related to in one way. -/
def related (o : ObjectRelations) : Relationship → List String
  | .dependency => o.dependencies
  | .association => o.associations
  | .aggregation => o.aggregations

variable {found : List Finding} {id target : String} {r : Relationship} {o : ObjectRelations}

/-- The lists of an object are made alike. -/
lemma exists_related_eq (found : List Finding) (id : String) (r : Relationship) :
    ∃ ids, (of found id).related r = (unique ids).filter fun i => found.any fun f => f.id = i := by
  cases r <;> exact ⟨_, rfl⟩

lemma nodup_related : ((of found id).related r).Nodup := by
  obtain ⟨ids, hids⟩ := exists_related_eq found id r
  rw [hids]
  exact (nodup_unique ids).filter _

lemma mem_of_related (h : target ∈ (of found id).related r) : target ∈ found.map (·.id) := by
  obtain ⟨ids, hids⟩ := exists_related_eq found id r
  rw [hids, List.mem_filter] at h
  simpa using h.2

/-- What the findings with an id have, before it is asked what is known. -/
lemma mem_own : (target ∈ unique ((found.filter fun f => f.id = id).flatMap (·.dependencies))
      ∨ target ∈ unique ((found.filter fun f => f.id = id).flatMap (·.associations)))
    ↔ ∃ f ∈ found, f.id = id ∧ (target ∈ f.dependencies ∨ target ∈ f.associations) := by
  simp only [mem_unique, List.mem_flatMap, List.mem_filter, decide_eq_true_eq, and_assoc,
    ← exists_or, ← and_or_left]

/-- An object lists what it refers to, if that is known. -/
lemma mem_dependencies_or_associations :
    target ∈ (of found id).dependencies ∨ target ∈ (of found id).associations
      ↔ target ∈ found.map (·.id)
        ∧ ∃ f ∈ found, f.id = id ∧ (target ∈ f.dependencies ∨ target ∈ f.associations) := by
  simp only [of, List.mem_filter, ← or_and_right, mem_own, List.any_eq_true, decide_eq_true_eq,
    List.mem_map]
  exact and_comm

/-- An object is flagged if it refers to what is not known. -/
lemma hasReferencesError_iff : (of found id).hasReferencesError = true
    ↔ ∃ target, (∃ f ∈ found, f.id = id ∧ (target ∈ f.dependencies ∨ target ∈ f.associations))
      ∧ target ∉ found.map (·.id) := by
  simp only [of, Bool.not_eq_true', Bool.and_eq_false_iff, List.all_eq_false, ← exists_or,
    ← or_and_right, mem_own, List.any_eq_true, decide_eq_true_eq, List.mem_map]

/-! ## Arrows -/

/-- The arrows of an object to all that it is related to in one way, also to itself. -/
def arrows (o : ObjectRelations) (r : Relationship) : List Edge :=
  (o.related r).map fun target => ⟨o.id, target, r⟩

lemma edges_eq (o : ObjectRelations) : o.edges
    = (o.arrows .dependency ++ o.arrows .association ++ o.arrows .aggregation).filter
      fun e => e.target ≠ o.id :=
  rfl

lemma mem_arrows {e : Edge} : e ∈ o.arrows r
    ↔ e.relationship = r ∧ e.source = o.id ∧ e.target ∈ o.related r := by
  rw [arrows, List.mem_map]
  constructor
  · rintro ⟨target, htarget, rfl⟩
    exact ⟨rfl, rfl, htarget⟩
  · rintro ⟨rfl, hsource, htarget⟩
    exact ⟨e.target, htarget, by rw [← hsource]⟩

/-- The arrows of an object are the entries of its lists, apart from itself. -/
lemma mem_edges {e : Edge} : e ∈ o.edges
    ↔ e.source = o.id ∧ e.target ∈ o.related e.relationship ∧ e.target ≠ o.id := by
  rw [edges_eq, List.mem_filter, List.mem_append, List.mem_append, mem_arrows, mem_arrows,
    mem_arrows, decide_eq_true_eq]
  cases e.relationship <;> simp [and_assoc]

lemma nodup_edges (h : ∀ r, (o.related r).Nodup) : o.edges.Nodup := by
  have harrows : ∀ r, (o.arrows r).Nodup := by
    intro r
    refine (h r).map fun a b hab => ?_
    exact congrArg Edge.target hab
  -- arrows of different relationships are different
  have hdistinct : ∀ {r r' e e'}, r ≠ r' → e ∈ o.arrows r → e' ∈ o.arrows r' → e ≠ e' := by
    rintro r r' e _ hne he he' rfl
    exact hne ((mem_arrows.mp he).1.symm.trans (mem_arrows.mp he').1)
  rw [edges_eq]
  refine List.Nodup.filter _ ?_
  rw [List.nodup_append, List.nodup_append]
  refine ⟨⟨harrows _, harrows _, fun e he e' => hdistinct (by decide) he⟩, harrows _,
    fun e he e' he' => ?_⟩
  rcases List.mem_append.mp he with he | he
  · exact hdistinct (by decide) he he'
  · exact hdistinct (by decide) he he'

end ObjectRelations

namespace View

/-- The ids of the objects of a view. -/
def keys (v : View) : List String :=
  v.objects.map (·.id)

variable {trees : List Tree} {v : View} {found : List Finding} {id : String} {o : ObjectRelations}

lemma keys_eq
    (hv : v.objects = (orderedTexts (found.map (·.id))).map (ObjectRelations.of found)) :
    v.keys = orderedTexts (found.map (·.id)) := by
  rw [keys, hv, List.map_map]
  exact List.map_id _

/-- The arrows of a view are the entries of the lists of its objects, apart from the objects
themselves. -/
lemma mem_edges {e : Edge} : e ∈ v.edges
    ↔ ∃ o ∈ v.objects, e.source = o.id ∧ e.target ∈ o.related e.relationship ∧ e.target ≠ o.id := by
  simp only [edges, List.mem_flatMap, ObjectRelations.mem_edges]

lemma nodup_edges (hkeys : v.keys.Pairwise (· < ·))
    (hrelated : ∀ o ∈ v.objects, ∀ r, (o.related r).Nodup) : v.edges.Nodup := by
  rw [edges, List.nodup_flatMap]
  refine ⟨fun o ho => ObjectRelations.nodup_edges (hrelated o ho), ?_⟩
  -- the arrows of different objects start at different ids
  refine (List.pairwise_map.mp hkeys).imp fun hlt e he he' => ?_
  have hsource := (ObjectRelations.mem_edges.mp he).1
  rw [(ObjectRelations.mem_edges.mp he').1] at hsource
  exact String.lt_irrefl _ (hsource ▸ hlt)

/-- The objects that depend on an id or are associated with it have an arrow to it. -/
lemma mem_dependentsOf {source : String} : source ∈ v.dependentsOf id
    ↔ ∃ e ∈ v.edges, e.source = source ∧ e.target = id
      ∧ (e.relationship = .dependency ∨ e.relationship = .association) := by
  simp only [dependentsOf, List.mem_map, List.mem_filter, Bool.and_eq_true, Bool.or_eq_true,
    decide_eq_true_eq, List.contains_iff_mem, mem_edges]
  constructor
  · rintro ⟨o, ⟨ho, hne, hid | hid⟩, rfl⟩
    · exact ⟨⟨o.id, id, .dependency⟩, ⟨o, ho, rfl, hid, hne.symm⟩, rfl, rfl, .inl rfl⟩
    · exact ⟨⟨o.id, id, .association⟩, ⟨o, ho, rfl, hid, hne.symm⟩, rfl, rfl, .inr rfl⟩
  · rintro ⟨⟨_, _, r⟩, ⟨o, ho, rfl, hid, hne⟩, rfl, rfl, rfl | rfl⟩
    · exact ⟨o, ⟨ho, hne.symm, .inl hid⟩, rfl⟩
    · exact ⟨o, ⟨ho, hne.symm, .inr hid⟩, rfl⟩

/-! ## The whole -/

/-- What the view of trees is: its objects, what they list and when they are flagged, and its
arrows. -/
structure ClosedOver (v : View) (trees : List Tree) : Prop where
  keys_ordered : v.keys.Pairwise (· < ·)
  mem_keys : ∀ id, id ∈ v.keys
    ↔ ∃ t ∈ trees, ∃ n, t.Reachable n ∧ n.kind ≠ .root ∧ n.id = id
  listed_once : ∀ o ∈ v.objects, ∀ r, (o.related r).Nodup
  listed_known : ∀ o ∈ v.objects, ∀ r, ∀ id ∈ o.related r, id ∈ v.keys
  /-- What an object refers to is listed where it is known. -/
  resolved : ∀ o ∈ v.objects, ∀ id, id ∈ o.dependencies ∨ id ∈ o.associations
    ↔ id ∈ v.keys ∧ ∃ t ∈ trees, ∃ n, t.Reachable n ∧ n.id = o.id ∧ RefersTo n id
  /-- An object is flagged where it refers to something that is not known. -/
  flagged : ∀ o ∈ v.objects, o.hasReferencesError = true
    ↔ ∃ t ∈ trees, ∃ n, t.Reachable n ∧ n.id = o.id ∧ ∃ id, RefersTo n id ∧ id ∉ v.keys
  edge_ends : ∀ e ∈ v.edges, e.source ∈ v.keys ∧ e.target ∈ v.keys ∧ e.source ≠ e.target
  edges_once : v.edges.Nodup
  /-- An arrow for every entry that is not the object itself. -/
  mem_edges : ∀ e, e ∈ v.edges
    ↔ ∃ o ∈ v.objects, e.source = o.id ∧ e.target ∈ o.related e.relationship ∧ e.target ≠ o.id
  dependents : ∀ id source, source ∈ v.dependentsOf id
    ↔ ∃ e ∈ v.edges, e.source = source ∧ e.target = id
      ∧ (e.relationship = .dependency ∨ e.relationship = .association)

/-- **The view of trees is closed, and flags what is broken.** -/
theorem view_closed (h : ofTrees trees = .ok v) : v.ClosedOver trees := by
  obtain ⟨found, hfound, hv⟩ := ofTrees_ok h
  have hmem : ∀ id, id ∈ v.keys ↔ id ∈ found.map (·.id) := by
    intro id
    rw [keys_eq hv, mem_orderedTexts]
  have hof : ∀ o ∈ v.objects, o = ObjectRelations.of found o.id := by
    intro o ho
    rw [hv] at ho
    obtain ⟨id, -, rfl⟩ := List.mem_map.mp ho
    rfl
  have hordered : v.keys.Pairwise (· < ·) := by
    rw [keys_eq hv]
    exact pairwise_orderedTexts _
  have honce : ∀ o ∈ v.objects, ∀ r, (o.related r).Nodup := by
    intro o ho r
    rw [hof o ho]
    exact ObjectRelations.nodup_related
  have hknown : ∀ o ∈ v.objects, ∀ r, ∀ id ∈ o.related r, id ∈ v.keys := by
    intro o ho r id hid
    rw [hof o ho] at hid
    exact (hmem id).mpr (ObjectRelations.mem_of_related hid)
  refine
    { keys_ordered := hordered
      mem_keys := fun id => (hmem id).trans (Finding.mem_ids_iff hfound)
      listed_once := honce
      listed_known := hknown
      resolved := fun o ho id => ?resolved
      flagged := fun o ho => ?flagged
      edge_ends := fun e he => ?edge_ends
      edges_once := nodup_edges hordered honce
      mem_edges := fun e => mem_edges
      dependents := fun id source => mem_dependentsOf }
  case resolved =>
    rw [hof o ho, ObjectRelations.mem_dependencies_or_associations, hmem,
      Finding.exists_refersTo_iff hfound]
    rfl
  case flagged =>
    rw [hof o ho, ObjectRelations.hasReferencesError_iff]
    simp only [Finding.exists_refersTo_iff hfound, hmem]
    constructor
    · rintro ⟨id, ⟨t, ht, n, hn, hsame, hrefers⟩, hid⟩
      exact ⟨t, ht, n, hn, hsame, id, hrefers, hid⟩
    · rintro ⟨t, ht, n, hn, hsame, id, hrefers, hid⟩
      exact ⟨id, ⟨t, ht, n, hn, hsame, hrefers⟩, hid⟩
  case edge_ends =>
    obtain ⟨o, ho, hsource, htarget, hne⟩ := mem_edges.mp he
    rw [hsource]
    exact ⟨List.mem_map_of_mem ho, hknown o ho _ _ htarget, hne.symm⟩

/-- A shop and what it sells, one of which leads to itself and to something that is not there.  The
command that belongs to the shop stands outside of it. -/
def shopTree : Tree :=
  let typed (id : String) : Json :=
    .obj [("uuid", .str id), ("type", (TypeExpr.reference id id).toJson)]
  .ofNodes "__ROOT__"
    [["sell", "shop"].foldl Node.withChild (Node.make "__ROOT__" .root .null),
      Node.make "sell" .command
        (.obj [("aggregation", .obj [("referenceId", .str "shop")]),
          ("properties", .arr [typed "item"])]),
      ["item"].foldl Node.withChild (Node.make "shop" .aggregation .null),
      Node.make "item" .valueObject (.obj [("properties", .arr [typed "item", typed "gone"])])]

/-- A query that answers with what the shop sells. -/
def searchTree : Tree :=
  .ofNodes "__ROOT__"
    [["find"].foldl Node.withChild (Node.make "__ROOT__" .root .null),
      Node.make "find" .query (.obj [("result", (TypeExpr.reference "item" "item").toJson)])]

theorem view_closed_shopTree :
    ∃ v, ofTrees [shopTree, searchTree] = .ok v ∧ v.ClosedOver [shopTree, searchTree]
      ∧ v.keys = ["find", "item", "sell", "shop"] ∧ v.referenceErrors = ["item"]
      ∧ v.edges = [⟨"find", "item", .dependency⟩, ⟨"sell", "item", .association⟩,
        ⟨"shop", "sell", .aggregation⟩, ⟨"shop", "item", .aggregation⟩]
      ∧ v.dependentsOf "item" = ["find", "sell"] := by
  have hview : (ofTrees [shopTree, searchTree]).map (fun v =>
      (v.keys, v.referenceErrors, v.edges, v.dependentsOf "item"))
      = .ok (["find", "item", "sell", "shop"], ["item"],
        [⟨"find", "item", .dependency⟩, ⟨"sell", "item", .association⟩,
          ⟨"shop", "sell", .aggregation⟩, ⟨"shop", "item", .aggregation⟩],
        ["find", "sell"]) := by decide +kernel
  obtain ⟨v, hv, hparts⟩ := map_ok_iff.mp hview
  simp only [Prod.mk.injEq] at hparts
  exact ⟨v, hv, view_closed hv, hparts⟩

end View

end DomainDesign
