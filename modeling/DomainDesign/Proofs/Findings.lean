import DomainDesign.Proofs.Walks
import DomainDesign.Relations

/-!
# What the relations of a document are made of

Every visited node says something about itself and about what belongs to what.

**Findings.**  `Finding.mem_ofTrees` says that everything that is found was said by a visited node
of one of the trees, and that everything such a node says is found.  `Finding.survey_ofTrees` is why
nothing is found at all if one of the trees cannot be surveyed.

**Objects.**  `View.object?_eq` says what a view has under the id of a finding.  So if a visited
node links two others, the one object lists the other: `View.lists_of_link`.
-/

namespace DomainDesign

namespace Finding

variable {t : Tree} {trees : List Tree} {n : Node} {f : Finding} {found : List Finding}

lemma ofTrees_cons_iff {rest : List Tree} :
    ofTrees (t :: rest) = .ok found ↔ ∃ said others, t.survey (ofNode t) = .ok said
      ∧ ofTrees rest = .ok others ∧ found = said.filterMap (fun f => f) ++ others := by
  simp only [ofTrees, ofTree, bind_ok_iff]
  constructor
  · rintro ⟨here, ⟨said, hsaid, hhere⟩, others, hothers, hfound⟩
    cases hhere
    cases hfound
    exact ⟨said, others, hsaid, hothers, rfl⟩
  · rintro ⟨said, others, hsaid, hothers, rfl⟩
    exact ⟨_, ⟨said, hsaid, rfl⟩, others, hothers, rfl⟩

lemma survey_ofTrees (h : ofTrees trees = .ok found) (ht : t ∈ trees) :
    ∃ said, t.survey (ofNode t) = .ok said := by
  induction trees generalizing found with
  | nil => simp at ht
  | cons u rest ih =>
      obtain ⟨said, others, hsaid, hothers, -⟩ := ofTrees_cons_iff.mp h
      rcases List.mem_cons.mp ht with rfl | ht
      · exact ⟨said, hsaid⟩
      · exact ih hothers ht

/-- A survey of a tree has what the visited nodes say. -/
lemma mem_survey {said : List (Option Finding)} (h : t.survey (ofNode t) = .ok said) :
    some f ∈ said ↔ ∃ n ∈ t.visitOrder, ofNode t n = .ok (some f) := by
  have hread := Tree.readAll_eq_ok_iff.mp h
  constructor
  · intro hf
    obtain ⟨n, hn, -, hnode⟩ := exists_of_mem_right hread hf
    exact ⟨n, hn, hnode⟩
  · rintro ⟨n, hn, hnode⟩
    obtain ⟨said', hmem, -, hsaid⟩ := exists_of_mem_right hread.flip hn
    rw [hnode] at hsaid
    cases hsaid
    exact hmem

/-- **What is found is what visited nodes say.** -/
lemma mem_ofTrees (h : ofTrees trees = .ok found) :
    f ∈ found ↔ ∃ t ∈ trees, ∃ n ∈ t.visitOrder, ofNode t n = .ok (some f) := by
  induction trees generalizing found with
  | nil =>
      cases h
      simp
  | cons t rest ih =>
      obtain ⟨said, others, hsaid, hothers, rfl⟩ := ofTrees_cons_iff.mp h
      simp only [List.mem_append, List.mem_filterMap, exists_eq_right, List.mem_cons,
        exists_eq_or_imp, mem_survey hsaid, ih hothers]

/-- A root says nothing, and every other node says something about itself. -/
lemma ofNode_ok {said : Option Finding} (h : ofNode t n = .ok said) :
    n.kind = .root ∧ said = none ∨ n.kind ≠ .root ∧ ∃ f, said = some f ∧ f.id = n.id := by
  rw [ofNode] at h
  cases hkind : n.kind with
  | root =>
      rw [hkind] at h
      cases h
      exact Or.inl ⟨rfl, rfl⟩
  | aggregation | enumeration | mapperObject | other =>
      rw [hkind] at h
      cases h
      exact Or.inr ⟨by simp, _, rfl, rfl⟩
  | _ =>
      rw [hkind] at h
      obtain ⟨_, -, hsaid⟩ := bind_ok_iff.mp h
      cases hsaid
      exact Or.inr ⟨by simp, _, rfl, rfl⟩

/-- Every visited node that is no root is found. -/
lemma exists_of_visited (h : ofTrees trees = .ok found) (ht : t ∈ trees) (hn : n ∈ t.visitOrder)
    (hkind : n.kind ≠ .root) : ∃ f ∈ found, f.id = n.id ∧ ofNode t n = .ok (some f) := by
  obtain ⟨said, hsaid⟩ := survey_ofTrees h ht
  obtain ⟨said₁, hmem, -, hnode⟩ :=
    exists_of_mem_right (Tree.readAll_eq_ok_iff.mp hsaid).flip hn
  rcases ofNode_ok hnode with ⟨hroot, -⟩ | ⟨-, f, rfl, hid⟩
  · exact absurd hroot hkind
  · exact ⟨f, (mem_ofTrees h).mpr ⟨t, ht, n, hn, hnode⟩, hid, hnode⟩

/-- The ids of what is found are those of the visited nodes that are not roots. -/
lemma id_mem_ofTrees (h : ofTrees trees = .ok found) (ht : t ∈ trees) (hn : n ∈ t.visitOrder)
    (hkind : n.kind ≠ .root) : n.id ∈ found.map (·.id) := by
  obtain ⟨f, hf, hid, -⟩ := exists_of_visited h ht hn hkind
  exact List.mem_map.mpr ⟨f, hf, hid⟩

end Finding

namespace View

variable {trees : List Tree} {v : View} {found : List Finding}

lemma ofTrees_ok (h : ofTrees trees = .ok v) : ∃ found, Finding.ofTrees trees = .ok found
    ∧ v.objects = (orderedTexts (found.map (·.id))).map (ObjectRelations.of found) := by
  obtain ⟨found, hfound, hv⟩ := bind_ok_iff.mp h
  cases hv
  exact ⟨found, hfound, rfl⟩

/-- An object lists another one among what belongs to it. -/
def Lists (v : View) (owner id : String) : Prop :=
  ∃ o, v.object? owner = some o ∧ id ∈ o.aggregations

lemma object?_eq (hv : v.objects = (orderedTexts (found.map (·.id))).map (ObjectRelations.of found))
    {id : String} (hid : id ∈ found.map (·.id)) :
    v.object? id = some (ObjectRelations.of found id) := by
  rw [object?, hv, List.find?_map]
  have hfind : (orderedTexts (found.map (·.id))).find? (fun k => k = id) = some id :=
    @find?_key _ _ (fun k => k) _ _ id (mem_orderedTexts.mpr hid) fun k _ hk => hk
  exact congrArg (Option.map _) hfind

/-- **A link between two visited nodes is listed**, whichever visited node says it. -/
lemma lists_of_link {t : Tree} {n owner member : Node} {f : Finding} (hv : ofTrees trees = .ok v)
    (ht : t ∈ trees) (hn : n ∈ t.visitOrder) (hsaid : Finding.ofNode t n = .ok (some f))
    (hlink : (owner.id, member.id) ∈ f.links)
    (howner : owner ∈ t.visitOrder ∧ owner.kind ≠ .root)
    (hmember : member ∈ t.visitOrder ∧ member.kind ≠ .root) : v.Lists owner.id member.id := by
  obtain ⟨found, hfound, hobjects⟩ := ofTrees_ok hv
  have hf : f ∈ found := (Finding.mem_ofTrees hfound).mpr ⟨t, ht, n, hn, hsaid⟩
  have hknown := Finding.id_mem_ofTrees hfound ht hmember.1 hmember.2
  refine ⟨_, object?_eq hobjects (Finding.id_mem_ofTrees hfound ht howner.1 howner.2), ?_⟩
  simp only [ObjectRelations.of, List.mem_filter, mem_unique, List.mem_map, List.mem_flatMap,
    List.any_eq_true, decide_eq_true_eq] at hknown ⊢
  exact ⟨⟨(owner.id, member.id), ⟨⟨f, hf, hlink⟩, rfl⟩, rfl⟩, hknown⟩

end View

end DomainDesign
