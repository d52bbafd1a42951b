import DomainDesign.Proofs.Attachment
import DomainDesign.Proofs.Findings
import DomainDesign.Proofs.Wiring

/-!
# Who owns what

Three parts of the program say what belongs to an aggregation.  The compiler goes by parents, and by
what has been visited before.  The relations of a document go by lists of children, and by what
commands and rules name.  The store goes by parents and visits nothing.  `ownership_agrees` says
that in a wired tree they say the same.

**Members.**  The compiler gives an aggregation the members that are visited after it and stand
under it.  By `Tree.Wired.filter_after` these are its children, so `members_of_parts` is about child
lists only.

**The other two.**  A child is listed by the aggregation, a command or rule by what it names:
`lists_child`, `lists_command`, `lists_rule`.  The store finds the aggregation of a child, and the
name that was compiled: `stored_child`.
-/

namespace DomainDesign.Compile

open Compiled

/-! ## Members -/

/-- The children of a node that are of a kind. -/
def childrenOf (t : Tree) (kind : Kind) (n : Node) : List Node :=
  (t.children n).filter fun m => m.kind = kind

/-- An entity is that of a node. -/
structure EntityOf (t : Tree) (c : Config) (n : Node) (compiled : Entity) : Prop where
  uuid : compiled.uuid = n.id
  content : ∃ m, Model.Entity.ofJson? (.obj n.properties) = some m ∧ entity t c n m = .ok compiled
    ∧ compiled.isAggregationRoot = some m.isAggregationRoot

/-- A value object is that of a node. -/
structure ValueObjectOf (t : Tree) (c : Config) (n : Node) (compiled : ValueObject) : Prop where
  uuid : compiled.uuid = n.id
  content : ∃ m, Model.ValueObject.ofJson? (.obj n.properties) = some m
    ∧ classBody t c n m.toClassBody = .ok compiled.toClassBody

/-- An enumeration is that of a node. -/
structure EnumerationOf (n : Node) (compiled : Enumeration) : Prop where
  uuid : compiled.uuid = n.id
  content : ∃ m, Model.Enumeration.ofJson? (.obj n.properties) = some m
    ∧ compiled = enumeration n m

/-- The first entity that is flagged stands apart, and the others stay in order. -/
inductive RootApart : (all : List Entity) → (root : Option Entity) → (others : List Entity) → Prop
  | flagged {before after : List Entity} {root : Entity} (flag : root.isAggregationRoot = some true)
      (first : ∀ e ∈ before, e.isAggregationRoot ≠ some true) :
      RootApart (before ++ root :: after) (some root) (before ++ after)
  | unflagged {all : List Entity} (none_flagged : ∀ e ∈ all, e.isAggregationRoot ≠ some true) :
      RootApart all none all

/-- The members of an aggregate are the children of a node, in the order of their ids. -/
structure MembersOf (t : Tree) (c : Config) (n : Node) (a : Aggregate) : Prop where
  inOrder : (t.children n).Pairwise fun m m' => m.id < m'.id
  entities : ∃ all, List.Forall₂ (EntityOf t c) (childrenOf t .entity n) all
    ∧ RootApart all a.root a.entities
  valueObjects : List.Forall₂ (ValueObjectOf t c) (childrenOf t .valueObject n) a.valueObjects
  enums : List.Forall₂ EnumerationOf (childrenOf t .enumeration n) a.enums

/-- The uuids of the members of an aggregate. -/
def memberUuids (a : Aggregate) : List String :=
  (a.root.toList ++ a.entities).map (·.uuid) ++ a.valueObjects.map (·.uuid) ++ a.enums.map (·.uuid)

variable {t : Tree} {c : Config} {a b n : Node} {part : DomainPart} {parts : List DomainPart}

/-- What the compiler takes for the owner of a node is its parent, for an aggregation below the
root. -/
lemma owner?_eq_iff (ha : t.get? a.id = some a) (hkind : a.kind = .aggregation)
    (hroot : a.id ≠ t.rootId) : owner? t b = some a.id ↔ b.parentId = some a.id := by
  rw [owner?, Tree.parent?]
  constructor
  · intro h
    obtain ⟨p, hp, howner⟩ := Option.bind_eq_some_iff.mp h
    split at hp
    next id hparent =>
      split at hp
      · cases hp
      · split at howner
        · rw [hparent, ← Tree.id_of_get? hp]
          exact howner
        · cases howner
    · cases hp
  · intro h
    rw [h]
    simp [hroot, ha, hkind]

lemma entityOf_of_read {m : Model.Entity} {compiled : Entity} (hcheck : n.checkIdentity = .ok ())
    (hread : Model.Entity.ofJson? (.obj n.properties) = some m)
    (hcompiled : entity t c n m = .ok compiled) : EntityOf t c n compiled := by
  have hparts := hcompiled
  simp only [entity, bind_ok_iff] at hparts
  obtain ⟨body, hbody, heq⟩ := hparts
  cases heq
  refine ⟨?_, m, hread, hcompiled, rfl⟩
  change body.uuid = n.id
  rw [naming_of_classBody hbody]
  exact nodeNaming_uuid hcheck (Model.Entity.naming_of_ofJson? hread)

lemma valueObjectOf_of_read {m : Model.ValueObject} {body : ClassBody}
    (hcheck : n.checkIdentity = .ok ())
    (hread : Model.ValueObject.ofJson? (.obj n.properties) = some m)
    (hbody : classBody t c n m.toClassBody = .ok body) : ValueObjectOf t c n ⟨body⟩ := by
  refine ⟨?_, m, hread, hbody⟩
  change body.uuid = n.id
  rw [naming_of_classBody hbody]
  exact nodeNaming_uuid hcheck (Model.ValueObject.naming_of_ofJson? hread)

/-- A node of a kind stands under the aggregation with an id. -/
def standsIn (t : Tree) (kind : Kind) (id : String) (n : Node) : Bool :=
  n.kind = kind ∧ owner? t n = some id

/-- **What a visited node adds to an aggregation**: a member of its kind, if it stands there. -/
lemma members_of_reads (h : Reads t c n part) (id : String) :
    Option.Rel (EntityOf t c) (Option.guard (standsIn t .entity id) n) (part.entityIn? id)
      ∧ Option.Rel (ValueObjectOf t c) (Option.guard (standsIn t .valueObject id) n)
        (part.valueObjectIn? id)
      ∧ Option.Rel EnumerationOf (Option.guard (standsIn t .enumeration id) n)
        (part.enumIn? id) := by
  obtain ⟨hcheck, hpart⟩ := h
  by_cases howner : owner? t n = some id
  · cases hpart with
    | entity hkind hread hcompiled =>
        simp [Option.guard, standsIn, hkind, howner, DomainPart.entityIn?,
          DomainPart.valueObjectIn?, DomainPart.enumIn?, entityOf_of_read hcheck hread hcompiled]
    | valueObject hkind hread hbody =>
        simp [Option.guard, standsIn, hkind, howner, DomainPart.entityIn?,
          DomainPart.valueObjectIn?, DomainPart.enumIn?, valueObjectOf_of_read hcheck hread hbody]
    | @enumeration m hkind hread =>
        have hof : EnumerationOf n (enumeration n m) :=
          ⟨nodeNaming_uuid hcheck (Model.Enumeration.naming_of_ofJson? hread), m, hread, rfl⟩
        simp [Option.guard, standsIn, hkind, howner, DomainPart.entityIn?,
          DomainPart.valueObjectIn?, DomainPart.enumIn?, hof]
    | skipped hkind =>
        simp only [List.mem_cons, List.not_mem_nil, or_false, not_or] at hkind
        simp [Option.guard, standsIn, hkind, DomainPart.entityIn?, DomainPart.valueObjectIn?,
          DomainPart.enumIn?]
    | _ hkind =>
        simp [Option.guard, standsIn, hkind, DomainPart.entityIn?, DomainPart.valueObjectIn?,
          DomainPart.enumIn?]
  · cases hpart <;>
      simp [Option.guard, standsIn, howner, DomainPart.entityIn?, DomainPart.valueObjectIn?,
        DomainPart.enumIn?]

/-- Where an aggregation is visited, its slot has the members that come after it. -/
lemma mem_sections (front back : List DomainPart) (id : String) (naming : Naming) :
    (id, Slot.withMembers id back { naming })
      ∈ sections (front ++ .aggregation id naming :: back) := by
  induction front with
  | nil => exact List.mem_cons_self
  | cons part rest ih =>
      rw [List.cons_append, sections_cons]
      exact List.mem_append_right _ ih

lemma rootApart (all : List Entity) :
    RootApart all (all.find? fun e => e.isAggregationRoot = some true)
      (all.eraseP fun e => e.isAggregationRoot = some true) := by
  induction all with
  | nil => exact .unflagged (by simp)
  | cons e rest ih =>
      by_cases hflag : e.isAggregationRoot = some true
      · rw [List.find?_cons_of_pos (by simpa using hflag),
          List.eraseP_cons_of_pos (by simpa using hflag)]
        exact @RootApart.flagged [] rest e hflag (by simp)
      · rw [List.find?_cons_of_neg (by simpa using hflag),
          List.eraseP_cons_of_neg (by simpa using hflag)]
        generalize rest.find? _ = root, rest.eraseP _ = others at ih
        cases ih with
        | @flagged before after root flag first =>
            have hfirst : ∀ d ∈ e :: before, d.isAggregationRoot ≠ some true := by
              simpa [hflag] using first
            exact @RootApart.flagged (e :: before) after root flag hfirst
        | unflagged hnone => exact .unflagged (by simpa [hflag] using hnone)

lemma RootApart.mem_of_mem {all others : List Entity} {root : Option Entity} {e : Entity}
    (h : RootApart all root others) (he : e ∈ root.toList ++ others) : e ∈ all := by
  cases h with
  | flagged =>
      simp only [Option.toList_some, List.singleton_append, List.mem_cons, List.mem_append] at he ⊢
      tauto
  | unflagged => exact he

/-- The slot of an aggregation has its children. -/
lemma slot_of_parts (hwired : t.Wired) (h : List.Forall₂ (Reads t c) t.visitOrder parts)
    (ha : a ∈ aggregationNodes t) (hroot : a.id ≠ t.rootId) :
    ∃ slot, (a.id, slot) ∈ sections parts
      ∧ List.Forall₂ (EntityOf t c) (childrenOf t .entity a) slot.entities
      ∧ List.Forall₂ (ValueObjectOf t c) (childrenOf t .valueObject a) slot.valueObjects
      ∧ List.Forall₂ EnumerationOf (childrenOf t .enumeration a) slot.enums := by
  obtain ⟨hvisited, hkind⟩ := List.mem_filter.mp ha
  have hkind : a.kind = .aggregation := of_decide_eq_true hkind
  obtain ⟨before, after, hvisit, hafter⟩ := hwired.filter_after hvisited
  rw [hvisit] at h
  obtain ⟨front, part, back, rfl, ⟨-, hpart⟩, hback⟩ := forall₂_cut h
  -- whatever stands under `a` is a child of it, and comes later
  have hchildren : ∀ kind,
      childrenOf t kind a = after.filterMap (Option.guard (standsIn t kind a.id)) := by
    intro kind
    rw [childrenOf, ← hafter, List.filter_filter, List.filterMap_eq_filter]
    refine List.filter_congr fun b _ => ?_
    simp [standsIn, owner?_eq_iff (Tree.get?_of_mem_visitOrder a hvisited) hkind hroot]
  have hmembers := fun n part (hn : Reads t c n part) => members_of_reads hn a.id
  cases hpart with
  | aggregation _ hread =>
      refine ⟨_, mem_sections front back a.id _, ?_, ?_, ?_⟩
      · rw [hchildren]
        exact List.rel_filterMap (fun n part hn => (hmembers n part hn).1) hback
      · rw [hchildren]
        exact List.rel_filterMap (fun n part hn => (hmembers n part hn).2.1) hback
      · rw [hchildren]
        exact List.rel_filterMap (fun n part hn => (hmembers n part hn).2.2) hback
  | skipped hother => simp [hkind] at hother
  | _ hother => simp [hkind] at hother

/-- **The members of an aggregate are the children of its node.** -/
lemma members_of_parts (hwired : t.Wired) (h : List.Forall₂ (Reads t c) t.visitOrder parts) :
    List.Forall₂ (fun n a => n.id ≠ t.rootId → MembersOf t c n a) (aggregationNodes t)
      (domainCollector.settle {} parts).report.result.aggregates := by
  rw [aggregates_of_settle (nodup_sections h) (nodup_commandEntries h), List.forall₂_map_right_iff]
  refine forall₂_imp_of_mem (aggregationParts h) fun n hn e he => ?_
  rintro ⟨hid, -⟩ hroot
  obtain ⟨slot, hslot, hentities, hvalueObjects, henums⟩ := slot_of_parts hwired h hn hroot
  obtain rfl : e = (n.id, slot) := List.inj_on_of_nodup_map (nodup_sections h) he hslot hid
  exact ⟨t.pairwise_children n, ⟨_, hentities, rootApart _⟩, hvalueObjects, henums⟩

lemma MembersOf.exists_child {a : Aggregate} {id : String} (h : MembersOf t c n a)
    (hid : id ∈ memberUuids a) : ∃ b ∈ t.children n, b.id = id ∧ StoredObject.isKind b.kind := by
  have hkind : ∀ {kind b}, b ∈ childrenOf t kind n → b ∈ t.children n ∧ b.kind = kind :=
    fun hb => ⟨(List.mem_filter.mp hb).1, of_decide_eq_true (List.mem_filter.mp hb).2⟩
  simp only [memberUuids, List.mem_append, List.mem_map] at hid
  rcases hid with (⟨e, he, rfl⟩ | ⟨v, hv, rfl⟩) | ⟨e, he, rfl⟩
  · obtain ⟨all, hall, hapart⟩ := h.entities
    obtain ⟨b, hb, hof⟩ := exists_of_mem_right hall (hapart.mem_of_mem (List.mem_append.mpr he))
    exact ⟨b, (hkind hb).1, hof.uuid.symm, by rw [(hkind hb).2]; rfl⟩
  · obtain ⟨b, hb, hof⟩ := exists_of_mem_right h.valueObjects hv
    exact ⟨b, (hkind hb).1, hof.uuid.symm, by rw [(hkind hb).2]; rfl⟩
  · obtain ⟨b, hb, hof⟩ := exists_of_mem_right h.enums he
    exact ⟨b, (hkind hb).1, hof.uuid.symm, by rw [(hkind hb).2]; rfl⟩

/-! ## What is listed -/

section Listed

variable {trees : List Tree} {v : View}

lemma lists_child (hv : View.ofTrees trees = .ok v) (ht : t ∈ trees) (ha : a ∈ aggregationNodes t)
    (hb : b ∈ t.children a) (hkind : b.kind ≠ .root) : v.Lists a.id b.id := by
  obtain ⟨hvisited, hakind⟩ := List.mem_filter.mp ha
  have hakind : a.kind = .aggregation := of_decide_eq_true hakind
  have hsaid : Finding.ofNode t a
      = .ok (some { Finding.bare a with links := (t.children a).map fun m => (a.id, m.id) }) := by
    rw [Finding.ofNode, hakind]
  exact View.lists_of_link hv ht hvisited hsaid (List.mem_map_of_mem hb)
    ⟨hvisited, by simp [hakind]⟩ ⟨Tree.mem_visitOrder_of_child hvisited hb, hkind⟩

lemma lists_command (hv : View.ofTrees trees = .ok v) (ht : t ∈ trees)
    (ha : a ∈ aggregationNodes t) (hn : n ∈ commandNodes t a.id) : v.Lists a.id n.id := by
  simp only [aggregationNodes, commandNodes, List.mem_filter, decide_eq_true_eq] at ha hn
  obtain ⟨hn, hkind, hnamed⟩ := hn
  obtain ⟨m, hread, htarget⟩ := Option.bind_eq_some_iff.mp hnamed
  have hsaid : Finding.ofNode t n = .ok (some { Finding.bare n with
      associations := m.associations, links := Finding.linkTo n m.aggregation }) := by
    rw [Finding.ofNode, hkind]
    simp only [Node.read_eq_ok.mpr hread]
    rfl
  refine View.lists_of_link hv ht hn hsaid ?_ ⟨ha.1, by simp [ha.2]⟩ ⟨hn, by simp [hkind]⟩
  simp [Finding.linkTo, htarget]

lemma lists_rule (hv : View.ofTrees trees = .ok v) (ht : t ∈ trees)
    (hb : b ∈ commandNodes t a.id) (hn : n ∈ ruleNodes t b.id) : v.Lists b.id n.id := by
  simp only [commandNodes, ruleNodes, List.mem_filter, decide_eq_true_eq] at hb hn
  obtain ⟨hn, hkind, hnamed⟩ := hn
  obtain ⟨m, hread, htarget⟩ := Option.bind_eq_some_iff.mp hnamed
  have hsaid : Finding.ofNode t n
      = .ok (some { Finding.bare n with links := Finding.linkTo n m.aggregator }) := by
    rw [Finding.ofNode, hkind]
    simp only [Node.read_eq_ok.mpr hread]
    rfl
  refine View.lists_of_link hv ht hn hsaid ?_ ⟨hb.1, by simp [hb.2.1]⟩ ⟨hn, by simp [hkind]⟩
  simp [Finding.linkTo, htarget]

end Listed

/-! ## What is stored -/

/-- A child of an aggregation is stored with the aggregation as its parent. -/
lemma stored_child {others : List Tree} {store : Store} {m : Model.Aggregation} (hwired : t.Wired)
    (hstore : Store.ofTrees (t :: others) = .ok store) (ha : a ∈ aggregationNodes t)
    (hroot : a.id ≠ t.rootId) (hread : Model.Aggregation.ofJson? (.obj a.properties) = some m)
    (hb : b ∈ t.children a) (hkind : StoredObject.isKind b.kind) :
    ∃ e, store.get? b.id = some e ∧ e.parent = some m.toNaming := by
  simp only [aggregationNodes, List.mem_filter, decide_eq_true_eq] at ha
  have hparent : t.parent? b = some a := by
    rw [Tree.parent?, (hwired.of_visited ha.1 hb).2]
    exact (if_neg hroot).trans (Tree.get?_of_mem_visitOrder a ha.1)
  have hnaming : Store.parentNaming t b = .ok (some m.toNaming) := by
    rw [Store.parentNaming, hparent]
    simp only [ha.2, if_true, Node.read_eq_ok.mpr hread]
    rfl
  obtain ⟨e, hentry, hget⟩ :=
    Store.get?_of_first hstore (Tree.get?_of_mem_filterMap hb) hkind
  have hloaded := (Store.of_nodeEntry hentry).2.2
  rw [hnaming] at hloaded
  exact ⟨e, hget, (Except.ok.inj hloaded).symm⟩

/-! ## Agreement -/

/-- What an aggregate owns as it was compiled is what its node owns in a view and in a store. -/
structure Owns (t : Tree) (c : Config) (v : View) (store : Store) (n : Node) (a : Aggregate) :
    Prop extends AggregateOf t c n a, MembersOf t c n a where
  listed : ∀ id ∈ memberUuids a ++ a.commands.map (·.uuid), v.Lists n.id id
  rulesListed : ∀ k ∈ a.commands, ∀ s ∈ k.rules, v.Lists k.uuid s.uuid
  stored : ∀ id ∈ memberUuids a,
    ∃ e p, store.get? id = some e ∧ e.parent = some p ∧ p.name = a.name

/-- **Compiler, relations and store agree on who owns what.**  In a wired tree, and so in every tree
that is built, each aggregation below the root is compiled with its children as members.  Members,
commands and rules are listed where they were compiled to, and members are stored with an
aggregation of the compiled name. -/
theorem ownership_agrees {trees others : List Tree} {r : Report DomainModel} {v : View}
    {store : Store} (hwired : t.Wired) (hmodel : domainModel t c = .ok r)
    (hview : View.ofTrees trees = .ok v) (ht : t ∈ trees)
    (hstore : Store.ofTrees (t :: others) = .ok store) :
    (∀ u, Tree.Built u → u.Wired)
      ∧ (∀ n, n ∈ aggregationNodes t ↔ t.Reachable n ∧ n.kind = .aggregation)
      ∧ List.Forall₂ (fun n a => n.id ≠ t.rootId → Owns t c v store n a) (aggregationNodes t)
        r.result.aggregates := by
  obtain ⟨parts, hparts, rfl⟩ := parts_of_domainModel hmodel
  refine ⟨fun u => Tree.Built.wired, fun n => ?_, ?_⟩
  · simp [aggregationNodes, List.mem_filter, t.preorder_visitOrder.mem_iff n]
  have hboth := List.Forall₂.mp (fun _ _ => And.intro) (aggregates_of_parts hparts)
    (members_of_parts hwired hparts)
  refine forall₂_imp_of_mem hboth fun n hn a _ => ?_
  rintro ⟨hof, hmembers⟩ hroot
  have hmembers := hmembers hroot
  refine ⟨hof, hmembers, fun id hid => ?_, fun k hk s hs => ?_, fun id hid => ?_⟩
  · rcases List.mem_append.mp hid with hid | hid
    · obtain ⟨b, hb, rfl, hkind⟩ := hmembers.exists_child hid
      refine lists_child hview ht hn hb fun heq => ?_
      simp [heq, StoredObject.isKind] at hkind
    · obtain ⟨k, hk, rfl⟩ := List.mem_map.mp hid
      obtain ⟨b, hb, hkof⟩ := exists_of_mem_right hof.commands hk
      rw [hkof.uuid]
      exact lists_command hview ht hn hb
  · obtain ⟨b, hb, hkof⟩ := exists_of_mem_right hof.commands hk
    obtain ⟨d, hd, hsof⟩ := exists_of_mem_right hkof.rules hs
    rw [hkof.uuid, hsof.uuid]
    exact lists_rule hview ht hb hd
  · obtain ⟨b, hb, rfl, hkind⟩ := hmembers.exists_child hid
    obtain ⟨m, hread, hnaming⟩ := hof.content
    obtain ⟨e, hget, hparent⟩ := stored_child hwired hstore hn hroot hread hb hkind
    refine ⟨e, _, hget, hparent, ?_⟩
    rw [hnaming]
    rfl

/-- An aggregation with two entities of which the second is the root, a value object and an
enumeration.  Its command stands outside of it, and the rule of the command inside. -/
def staffTree : Tree :=
  let node (id : String) (parentId : String) (kind : Kind) (fields : List (String × Json)) : Node :=
    { Node.make id kind (.obj (("name", .str id) :: fields)) with parentId := some parentId }
  let under (name target : String) : String × Json := (name, .obj [("referenceId", .str target)])
  .ofNodes "__ROOT__"
    [["hire", "staff"].foldl Node.withChild (Node.make "__ROOT__" .root .null),
      node "hire" "__ROOT__" .command [under "aggregation" "staff"],
      ["address", "clerk", "grade", "limit", "person"].foldl Node.withChild
        (node "staff" "__ROOT__" .aggregation []),
      node "address" "staff" .valueObject [],
      node "clerk" "staff" .entity [],
      node "grade" "staff" .enumeration [],
      node "limit" "staff" .rule [under "aggregator" "hire"],
      node "person" "staff" .entity [("isAggregationRoot", .bool true)]]

theorem ownership_agrees_staffTree :
    ∃ r v store, domainModel staffTree {} = .ok r ∧ View.ofTrees [staffTree] = .ok v
      ∧ Store.ofTrees [staffTree] = .ok store
      ∧ List.Forall₂ (fun n a => n.id ≠ staffTree.rootId → Owns staffTree {} v store n a)
        (aggregationNodes staffTree) r.result.aggregates
      ∧ (aggregationNodes staffTree).map (·.id) = ["staff"]
      ∧ r.result.aggregates.map (fun a => (a.root.map (·.uuid), memberUuids a))
        = [(some "person", ["person", "clerk", "address", "grade"])] := by
  have hwired : staffTree.Wired := of_decide_eq_true (by decide +kernel)
  have hmodel : (domainModel staffTree {}).map (fun r =>
      r.result.aggregates.map fun a => (a.root.map (·.uuid), memberUuids a))
      = .ok [(some "person", ["person", "clerk", "address", "grade"])] := by decide +kernel
  obtain ⟨r, hr, hmembers⟩ := map_ok_iff.mp hmodel
  have hview : (View.ofTrees [staffTree]).map (fun _ => ()) = .ok () := by decide +kernel
  obtain ⟨v, hv, -⟩ := map_ok_iff.mp hview
  have hstore : (Store.ofTrees [staffTree]).map (fun _ => ()) = .ok () := by decide +kernel
  obtain ⟨store, hs, -⟩ := map_ok_iff.mp hstore
  have hagrees := ownership_agrees hwired hr hv (List.mem_singleton_self _) hs
  exact ⟨r, v, store, hr, hv, hs, hagrees.2.2, by decide +kernel, hmembers⟩

end DomainDesign.Compile
