import DomainDesign.Proofs.Building
import DomainDesign.Proofs.RecordCodec
import DomainDesign.Tree.Snapshot

/-!
# Snapshots are read back

A snapshot does not write the kind of a node: reading takes the kind from the properties, where it
stands a second time.  So a tree is read back from its snapshot only if the two agree at every node,
which is `Node.Named`.  A node may be made with any kind, and `.other "entity"` is written like
`.entity`; the nodes considered here are made with the kind that a name stands for.

**Nodes.**  `Named.toNode_ofNode` reads a node back from its raw form.

**Trees.**  Whatever is made, loaded, extended or given another root has only named nodes
(`Obtained.named`), and such a tree is read back: `ofJson_nodes`.
-/

namespace DomainDesign

open Json

/-! ## Texts in order -/

lemma insertText_last {text : String} {texts : List String} (h : ∀ t ∈ texts, t < text) :
    insertText text texts = texts ++ [text] := by
  induction texts with
  | nil => rfl
  | cons t rest ih =>
      have ht : t < text := h t List.mem_cons_self
      have hne : text ≠ t := fun heq => String.lt_irrefl _ (heq ▸ ht)
      have hrest := ih fun s hs => h s (List.mem_cons_of_mem _ hs)
      simp [insertText, String.lt_asymm ht, hne, hrest]

lemma orderedTexts_of_pairwise {texts : List String} (h : texts.Pairwise (· < ·)) :
    orderedTexts texts = texts := by
  suffices hgen : ∀ after before : List String, (before ++ after).Pairwise (· < ·) →
      after.foldl (fun set t => insertText t set) before = before ++ after from
    hgen texts [] h
  intro after
  induction after with
  | nil => simp
  | cons t rest ih =>
      intro before hpairwise
      have hbefore : ∀ s ∈ before, s < t := fun s hs =>
        (List.pairwise_append.mp hpairwise).2.2 s hs t List.mem_cons_self
      rw [List.foldl_cons, insertText_last hbefore, ih _ (by simpa using hpairwise)]
      simp

/-! ## Nodes -/

lemma Kind.name_ofName (name : String) : (ofName name).name = name := by
  have hnames : ∀ e ∈ names, e.2.name = e.1 := by decide
  cases h : names.lookup name with
  | none => simp [ofName, h, Kind.name]
  | some kind =>
      rw [ofName, h]
      exact hnames _ (Dict.mem_of_lookup h)

namespace Node

/-- The kind of a node is the one that its properties name. -/
def Named (n : Node) : Prop :=
  (RawNode.ofNode n).kind = n.kind

/-- A node is made with the kind that a name stands for. -/
def Made (n : Node) : Prop :=
  ∃ id kindName properties, n = .make id (.ofName kindName) properties

lemma Made.named {n : Node} (h : n.Made) : n.Named := by
  obtain ⟨id, kindName, properties, rfl⟩ := h
  simp [Named, RawNode.kind, RawNode.ofNode, make, str?, Kind.name_ofName]

/-- A node is read back from its raw form. -/
lemma Named.toNode_ofNode {n : Node} (h : n.Named) : (RawNode.ofNode n).toNode = .ok n := by
  have hids : (RawNode.ofNode n).childIds = .ok n.childIds := by
    simp [RawNode.childIds, RawNode.ofNode, Function.comp_def,
      orderedTexts_of_pairwise n.childOrder]
  rw [RawNode.toNode]
  split
  next ids hsome =>
    obtain rfl := Except.ok.inj (hids.symm.trans hsome)
    rw [h]
    rfl
  next e herror =>
    rw [hids] at herror
    cases herror

end Node

lemma RawNode.named_of_toNode {raw : RawNode} {n : Node} (h : raw.toNode = .ok n) : n.Named := by
  rw [toNode] at h
  split at h
  · cases h
    rfl
  · cases h

namespace RawNode

/-- A raw node is read by what stands under its keys. -/
lemma ofJson?_of_lookup {raw : RawNode} {fields : Fields}
    (hid : fields.lookup "id" = some (.str raw.id))
    (hparent : fields.lookup "parent" = raw.parent.map .str)
    (hchildren : fields.lookup "children" = some raw.children)
    (hproperties : fields.lookup "properties" = some (.obj raw.properties)) :
    ofJson? (.obj fields) = some raw := by
  have hread : optional fields "parent" str? = some raw.parent := by
    rw [Json.optional, hparent]
    cases raw.parent <;> rfl
  simp [ofJson?, record?, required, orDefault, hid, hread, hchildren, hproperties, str?, object?]

lemma ofJson?_toJson (raw : RawNode) : ofJson? raw.toJson = some raw := by
  refine ofJson?_of_lookup ?_ ?_ ?_ ?_ <;>
    cases raw.parent <;> simp [field, fieldSome, Dict.lookup_cons_ite]

lemma ofJson?_sorted_toJson {raw : RawNode} (hchildren : raw.children.sorted = raw.children)
    (hproperties : (obj raw.properties).sorted = obj raw.properties) :
    ofJson? raw.toJson.sorted = some raw := by
  have hstr : ∀ s, (str s).sorted = str s := fun _ => rfl
  rw [toJson, sorted]
  have hshown : ∀ key, (Dict.ofEntries (sortedFields _)).lookup key = raw.toJson.shown key :=
    fun _ => rfl
  refine ofJson?_of_lookup ?_ ?_ ?_ ?_ <;> rw [hshown] <;>
    simp [toJson, hstr, hchildren, hproperties]

lemma sorted_children_ofNode (n : Node) :
    (ofNode n).children.sorted = (ofNode n).children := by
  have hsorted : Dict.Sorted (n.childIds.map fun id => (id, (Json.ofNat 1).sorted)) :=
    List.pairwise_map.mpr n.childOrder
  rw [ofNode, sorted, sortedFields_eq, List.map_map]
  exact congrArg obj (Dict.ofEntries_of_sorted hsorted)

end RawNode

/-! ## Trees -/

namespace Tree

variable {t t' : Tree} {n : Node}

/-- The trees that there are: made from nodes or loaded, and then extended or given another root. -/
inductive Obtained : Tree → Prop
  | empty (rootId : String) : Obtained (.empty rootId)
  | ofNodes {nodes : List Node} (rootId : String) (made : ∀ n ∈ nodes, n.Made) :
      Obtained (.ofNodes rootId nodes)
  | ofJson {rootId : String} {j : Json} {t : Tree} (loaded : Tree.ofJson rootId j = .ok t) :
      Obtained t
  | withRootId {t : Tree} (obtained : Obtained t) (rootId : String) : Obtained (t.withRootId rootId)
  | addChild {t t' : Tree} {parentId : String} {n : Node} (obtained : Obtained t) (made : n.Made)
      (added : t.addChild parentId n = (.ok (), t')) : Obtained t'
  | addRootChild {t t' : Tree} {n : Node} (obtained : Obtained t) (made : n.Made)
      (added : t.addRootChild n = (.ok (), t')) : Obtained t'

lemma named_wire {parentId : String} (h : ∀ m ∈ t.nodeList, m.Named) (hn : n.Named) :
    ∀ m ∈ (t.wire parentId n).nodeList, m.Named := by
  intro m hm
  rw [mem_nodeList, get?_wire] at hm
  split at hm
  · cases hm
    exact hn
  · split at hm
    · obtain ⟨m₀, hm₀, rfl⟩ := Option.map_eq_some_iff.mp hm
      exact h m₀ (mem_nodeList.mpr hm₀)
    · exact h m (mem_nodeList.mpr hm)

lemma exists_raw_of_checkedNodes {raw : Dict RawNode} {nodes : Dict Node}
    (h : checkedNodes raw = .ok nodes) : ∀ e ∈ nodes, ∃ r ∈ raw, r.2.toNode = .ok e.2 := by
  induction raw generalizing nodes with
  | nil =>
      cases h
      simp
  | cons r rest ih =>
      rw [checkedNodes] at h
      split at h
      · obtain ⟨node, hnode, h⟩ := bind_ok_iff.mp h
        obtain ⟨others, hothers, h⟩ := bind_ok_iff.mp h
        cases h
        intro e he
        rcases List.mem_cons.mp he with rfl | he
        · exact ⟨r, List.mem_cons_self, hnode⟩
        · obtain ⟨r', hr', hnode'⟩ := ih hothers e he
          exact ⟨r', List.mem_cons_of_mem _ hr', hnode'⟩
      · cases h

lemma exists_field_of_rawEntries? {fields : Fields} {raw : List (String × RawNode)}
    (h : rawEntries? fields = some raw) :
    ∀ r ∈ raw, ∃ f ∈ fields, RawNode.ofJson? f.2 = some r.2 := by
  induction fields generalizing raw with
  | nil =>
      cases h
      simp
  | cons f rest ih =>
      simp only [rawEntries?, Option.bind_eq_bind, Option.bind_eq_some_iff] at h
      obtain ⟨first, hfirst, others, hothers, hraw⟩ := h
      cases hraw
      intro r hr
      rcases List.mem_cons.mp hr with rfl | hr
      · exact ⟨f, List.mem_cons_self, hfirst⟩
      · obtain ⟨f', hf', hread⟩ := ih hothers r hr
        exact ⟨f', List.mem_cons_of_mem _ hf', hread⟩

/-- **Every node of a tree that has been read** stands for a raw node, which is under some key of
the value. -/
lemma exists_field_of_ofJson {rootId : String} {j : Json} (h : Tree.ofJson rootId j = .ok t)
    (hn : n ∈ t.nodeList) :
    ∃ fields, j = .obj fields
      ∧ ∃ f ∈ fields, ∃ raw, RawNode.ofJson? f.2 = some raw ∧ raw.toNode = .ok n := by
  rw [Tree.ofJson] at h
  split at h
  next raw hraw =>
    obtain ⟨fields, hfields, hentries⟩ := Option.bind_eq_some_iff.mp hraw
    obtain rfl : j = .obj fields := by
      cases j <;> cases hfields
      rfl
    rw [ofRaw] at h
    split at h
    next nodes hnodes =>
      cases h
      obtain ⟨e, he, rfl⟩ := List.mem_map.mp hn
      obtain ⟨r, hr, hnode⟩ := exists_raw_of_checkedNodes hnodes e he
      obtain ⟨f, hf, hread⟩ :=
        exists_field_of_rawEntries? hentries r (Dict.mem_of_mem_ofEntries hr)
      exact ⟨fields, rfl, f, hf, r.2, hread, hnode⟩
    next => cases h
  next => cases h

/-- **The kinds of the nodes agree with their properties**, however a tree has come about. -/
lemma Obtained.named (h : Obtained t) : ∀ n ∈ t.nodeList, n.Named := by
  induction h with
  | empty rootId =>
      intro n hn
      obtain rfl : n = .make rootId .root .null := by simpa [nodeList, Tree.empty] using hn
      exact Node.Made.named ⟨rootId, "__ROOT__", .null, rfl⟩
  | ofNodes rootId made =>
      intro n hn
      obtain ⟨e, he, rfl⟩ := List.mem_map.mp hn
      obtain ⟨m, hm, rfl⟩ := List.mem_map.mp (Dict.mem_of_mem_ofEntries he)
      exact (made m hm).named
  | ofJson loaded =>
      intro n hn
      obtain ⟨-, -, -, -, raw, -, hnode⟩ := exists_field_of_ofJson loaded hn
      exact RawNode.named_of_toNode hnode
  | withRootId _ _ ih => exact ih
  | addChild _ made added ih =>
      obtain ⟨-, rfl⟩ := addChild_eq_ok.mp added
      exact named_wire ih made.named
  | addRootChild _ made added ih =>
      obtain ⟨-, rfl⟩ := addChild_eq_ok.mp added
      exact named_wire ih made.named

lemma checkedNodes_ofNode {nodes : Dict Node} (hkeyed : ∀ e ∈ nodes, e.2.id = e.1)
    (hnamed : ∀ e ∈ nodes, e.2.Named) :
    checkedNodes (nodes.map fun e => (e.1, RawNode.ofNode e.2)) = .ok nodes := by
  induction nodes with
  | nil => rfl
  | cons e rest ih =>
      have hrest := ih (fun f hf => hkeyed f (List.mem_cons_of_mem _ hf))
        fun f hf => hnamed f (List.mem_cons_of_mem _ hf)
      have hid : e.1 = (RawNode.ofNode e.2).id := (hkeyed e List.mem_cons_self).symm
      rw [List.map_cons, checkedNodes, if_pos hid,
        (hnamed e List.mem_cons_self).toNode_ofNode, hrest]
      rfl

lemma rawEntries?_nodes {write : Node → Json} {nodes : Dict Node}
    (h : ∀ e ∈ nodes, RawNode.ofJson? (write e.2) = some (.ofNode e.2)) :
    rawEntries? (nodes.map fun e => (e.1, write e.2))
      = some (nodes.map fun e => (e.1, RawNode.ofNode e.2)) := by
  induction nodes with
  | nil => rfl
  | cons e rest ih =>
      have hrest := ih fun f hf => h f (List.mem_cons_of_mem _ hf)
      rw [List.map_cons, rawEntries?, h e List.mem_cons_self, hrest]
      rfl

/-- **A tree is read back from values that are read as its nodes.** -/
lemma ofJson_nodes {write : Node → Json} (hnamed : ∀ n ∈ t.nodeList, n.Named)
    (hwrite : ∀ n ∈ t.nodeList, RawNode.ofJson? (write n) = some (.ofNode n)) :
    Tree.ofJson t.rootId (.obj (t.nodes.map fun e => (e.1, write e.2))) = .ok t := by
  have hentries := rawEntries?_nodes fun e he => hwrite e.2 (List.mem_map_of_mem he)
  have hsorted : Dict.Sorted (t.nodes.map fun e => (e.1, RawNode.ofNode e.2)) :=
    Dict.sorted_of_keys_eq (by simp [Dict.keys]) t.sorted
  have hnodes : checkedNodes (Dict.ofEntries (t.nodes.map fun e => (e.1, RawNode.ofNode e.2)))
      = .ok t.nodes := by
    rw [Dict.ofEntries_of_sorted hsorted]
    exact checkedNodes_ofNode t.keyed fun e he => hnamed e.2 (List.mem_map_of_mem he)
  simp only [Tree.ofJson, object?, Option.bind_some, hentries, ofRaw]
  split
  next nodes hsome =>
    obtain rfl := Except.ok.inj (hnodes.symm.trans hsome)
    rfl
  next e herror =>
    rw [hnodes] at herror
    cases herror

lemma sorted_toJson (t : Tree) :
    t.toJson.sorted = .obj (t.nodes.map fun e => (e.1, (RawNode.ofNode e.2).toJson.sorted)) := by
  have hsorted : Dict.Sorted (t.nodes.map fun e => (e.1, (RawNode.ofNode e.2).toJson.sorted)) :=
    Dict.sorted_of_keys_eq (by simp [Dict.keys]) t.sorted
  rw [toJson, Json.sorted, sortedFields_eq, List.map_map]
  exact congrArg obj (Dict.ofEntries_of_sorted hsorted)

/-- **A tree is read back from its snapshot**, under its own root.  Where the properties of the
nodes are in key order, as those of every value that has been read are, the fields of the whole
snapshot may be put in key order too.  A snapshot that is read without a root has the default
one. -/
theorem snapshot_reloads (h : Obtained t) :
    Tree.ofJson t.rootId t.toJson = .ok t
      ∧ ((∀ n ∈ t.nodeList, (obj n.properties).sorted = obj n.properties) →
        Tree.ofJson t.rootId t.toJson.sorted = .ok t)
      ∧ (t.rootId = defaultRootId → Tree.ofJson defaultRootId t.toJson = .ok t) := by
  have hplain : Tree.ofJson t.rootId t.toJson = .ok t :=
    ofJson_nodes h.named fun n _ => RawNode.ofJson?_toJson _
  refine ⟨hplain, fun hbags => ?_, fun hroot => hroot ▸ hplain⟩
  rw [sorted_toJson]
  exact ofJson_nodes h.named fun n hn =>
    RawNode.ofJson?_sorted_toJson (RawNode.sorted_children_ofNode n) (hbags n hn)

/-- Children as a list and not at all, and a node that names no kind. -/
def sketchJson : Json :=
  .obj [("draft", .obj [("id", .str "draft"), ("children", .arr [.str "rule", .str "missing"])]),
    ("rule", .obj [("id", .str "rule"), ("parent", .str "draft"), ("children", .null),
      ("properties", .obj [("__node_name__", .str "rule"), ("name", .str "Unique")])])]

def loadedSketch : Tree :=
  (Tree.ofJson "draft" sketchJson).toOption.getD .empty

/-- A node of a kind without a compiler, whose properties name another kind. -/
def sketchNote : Node :=
  .make "note" (.ofName "memo") (.obj [("__node_name__", .str "entity")])

/-- The loaded tree with one more node, under another root. -/
def sketchTree : Tree :=
  (loadedSketch.wire "rule" sketchNote).withRootId defaultRootId

theorem snapshot_reloads_sketchTree :
    Obtained sketchTree ∧ sketchTree.size = 3
      ∧ Tree.ofJson sketchTree.rootId sketchTree.toJson = .ok sketchTree
      ∧ Tree.ofJson sketchTree.rootId sketchTree.toJson.sorted = .ok sketchTree
      ∧ Tree.ofJson defaultRootId sketchTree.toJson = .ok sketchTree := by
  have hloaded : Tree.ofJson "draft" sketchJson = .ok loadedSketch := by decide
  have hadded : loadedSketch.addChild "rule" sketchNote
      = (.ok (), loadedSketch.wire "rule" sketchNote) :=
    addChild_eq_ok.mpr ⟨⟨by decide, by decide⟩, rfl⟩
  have hobtained : Obtained sketchTree :=
    .withRootId (.addChild (.ofJson hloaded) ⟨_, _, _, rfl⟩ hadded) _
  obtain ⟨hplain, hordered, hdefault⟩ := snapshot_reloads hobtained
  exact ⟨hobtained, by decide, hplain, hordered (by decide), hdefault rfl⟩

end Tree

end DomainDesign
