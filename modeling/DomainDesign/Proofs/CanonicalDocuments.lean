import DomainDesign.Proofs.Attachment
import DomainDesign.Proofs.CompiledCodec
import DomainDesign.Proofs.JsonRange
import DomainDesign.Proofs.MapperSides
import DomainDesign.Proofs.Overloads

/-!
# Compiled documents are canonical

A document whose numbers are in range is compiled to one that is canonical: the metadata of every
part stands in key order, and all numbers are in range.

**Metadata** is put in key order when a naming is compiled (`canonical_naming`), so only the numbers
depend on the document.

**Numbers** come from two places: the codes of enumerations and the defaults of columns.  A text
that is read as a code gives a number in range (`codeInRange_enumCode`), and a whole number that is
read as a double is rounded to a finite one (`isFinite_float?`).

**Compilers.**  Each compiler collects parts in a state.  What one part adds to a canonical state is
canonical (`domain_keeps`, `query_keeps`, `data_keeps`), and so is the whole by
`Tree.collect_keeps`.
-/

namespace DomainDesign

open Json Compiled

/-! ## Numbers that are read -/

namespace Model

variable {fields : Fields} {j : Json}

lemma isFinite_float? {x : Binary64} (hj : j.InRange) (h : float? j = some x) :
    x.isFinite = true := by
  cases j with
  | num n =>
      rw [InRange] at hj
      cases n <;> cases h <;> exact hj.isFinite_toFloat
  | _ => cases h

lemma finite_ofAttributes? {k : StorageKind} {s : Storage} (hfields : (obj fields).InRange)
    (h : Storage.ofAttributes? fields k = some s) : s.Finite := by
  have hdefault : ∀ d x, Json.optional fields "defaultValue" float? = some d → d = some x →
      x.isFinite = true := by
    rintro _ x hd rfl
    obtain ⟨j, hj, hread⟩ := hfields.of_optional hd
    exact isFinite_float? hj hread
  cases k with
  | decimal =>
      simp only [Storage.ofAttributes?, Option.bind_eq_bind, Option.bind_eq_some_iff,
        Option.some.injEq] at h
      obtain ⟨d, hd, _, -, _, -, rfl⟩ := h
      exact fun x => hdefault d x hd
  | double | float =>
      simp only [Storage.ofAttributes?, Option.bind_eq_bind, Option.bind_eq_some_iff,
        Option.some.injEq] at h
      obtain ⟨d, hd, _, -, rfl⟩ := h
      exact fun x => hdefault d x hd
  | boolean | date | dateTime | timestamp =>
      obtain ⟨_, -, rfl⟩ := Option.map_eq_some_iff.mp h
      trivial
  | integer | long | string =>
      simp only [Storage.ofAttributes?, Option.bind_eq_bind, Option.bind_eq_some_iff,
        Option.some.injEq] at h
      obtain ⟨_, -, _, -, rfl⟩ := h
      trivial
  | text | longText | json =>
      cases h
      trivial
  | reference =>
      simp only [Storage.ofAttributes?, Option.bind_eq_bind, Option.bind_eq_some_iff,
        Option.some.injEq] at h
      obtain ⟨_, -, _, -, _, -, rfl⟩ := h
      trivial

lemma finite_ofJson? {held : Bool} {s : Storage} (hj : j.InRange)
    (h : Storage.ofJson? held j = some s) : s.Finite := by
  rw [Storage.ofJson?.eq_def] at h
  split at h
  next fields =>
    obtain ⟨k, -, hk⟩ := Option.bind_eq_some_iff.mp h
    exact finite_ofAttributes? hj hk
  next tag parts =>
    simp only [Option.bind_eq_bind, Option.bind_eq_some_iff] at h
    obtain ⟨k, -, fields, hfields, h⟩ := h
    have hparts : (arr parts).InRange := by
      rw [inRange_arr] at hj ⊢
      exact fun i hi => hj i (List.mem_cons_of_mem _ hi)
    exact finite_ofAttributes? (hparts.of_record? hfields) h
  next => cases h

/-- The defaults of a data object in range are finite. -/
lemma DataObject.finite_properties {d : DataObject} (hfields : (obj fields).InRange)
    (h : DataObject.ofJson? (.obj fields) = some d) : ∀ p ∈ d.properties, p.type.Finite := by
  simp only [ofJson?, object?, Option.bind_eq_bind, Option.bind_some, Option.bind_eq_some_iff] at h
  obtain ⟨_, -, _, -, properties, hproperties, _, -, h⟩ := h
  cases h
  rcases hfields.of_orDefault hproperties with rfl | ⟨j, hj, hlist⟩
  · simp
  intro p hp
  obtain ⟨i, hi, hread⟩ := hj.of_list? hlist p hp
  simp only [DataProperty.ofJson?, Option.bind_eq_bind, Option.bind_eq_some_iff] at hread
  obtain ⟨written, hwritten, _, -, _, -, type, htype, _, -, _, -, hread⟩ := hread
  cases hread
  obtain ⟨k, hk, hstorage⟩ := (hi.of_object? hwritten).of_required htype
  exact finite_ofJson? hk hstorage

/-- The codes of an enumeration in range are in range. -/
lemma Enumeration.inRange_codes {e : Enumeration} (hfields : (obj fields).InRange)
    (h : Enumeration.ofJson? (.obj fields) = some e) : ∀ m ∈ e.members, CodeInRange m.code := by
  simp only [ofJson?, object?, Option.bind_eq_bind, Option.bind_some, Option.bind_eq_some_iff] at h
  obtain ⟨_, -, _, -, members, hmembers, h⟩ := h
  cases h
  rcases hfields.of_orDefault hmembers with rfl | ⟨j, hj, hlist⟩
  · simp
  intro m hm
  obtain ⟨i, hi, hread⟩ := hj.of_list? hlist m hm
  simp only [EnumMember.ofJson?, Option.bind_eq_bind, Option.bind_eq_some_iff] at hread
  obtain ⟨written, hwritten, _, -, code, hcode, hread⟩ := hread
  cases hread
  rintro n rfl
  rcases (hi.of_object? hwritten).of_orDefault hcode with hdefault | ⟨k, hk, hnumber⟩
  · cases hdefault
  · cases k <;> cases hnumber
    exact hk

lemma EnumCode.inRange_numberOf? {negative : Bool} {numeral : List Char} {n : Json.Number}
    (h : numberOf? negative numeral = some n) : n.InRange := by
  unfold numberOf? at h
  extract_lets whole fraction value signed x at h
  split at h
  next hint =>
    cases h
    exact ⟨hint.2.1, hint.2.2.trans (by decide)⟩
  next =>
    split at h
    next hfinite => cases h; exact hfinite
    next => cases h

end Model

namespace Compile

variable {t : Tree} {c : Config} {n : Node}

lemma codeInRange_enumCode (base : Model.EnumBase) {code : Model.EnumCode} (h : CodeInRange code) :
    CodeInRange (enumCode base code) := by
  cases base with
  | text => rintro n ⟨⟩
  | number =>
      cases code with
      | number m => exact h
      | text s =>
          intro n hn
          have hread : Model.EnumCode.leadingNumber? (Text.trim s.toList) = some n := by
            simp only [enumCode, Model.EnumCode.number?] at hn
            cases hsome : Model.EnumCode.leadingNumber? (Text.trim s.toList) with
            | none => rw [hsome] at hn; cases hn
            | some m => rw [hsome] at hn; cases hn; rfl
          simp only [Model.EnumCode.leadingNumber?] at hread
          split at hread
          · exact Model.EnumCode.inRange_numberOf? hread
          · cases hread

/-! ## Parts -/

lemma canonical_naming (n : Model.Naming) : (naming n).Canonical := by
  intro d hd
  obtain ⟨entries, -, hd⟩ := Option.bind_eq_some_iff.mp hd
  simp only at hd
  split at hd
  · cases hd
  · cases hd
    exact Dict.sorted_ofEntries _

lemma canonical_nodeNaming (n : Node) (m : Model.Naming) : (nodeNaming n m).Canonical :=
  canonical_naming m

lemma canonical_properties (t : Tree) (c : Config) (ps : List Model.Property) :
    ∀ p ∈ properties t c ps, p.toNaming.Canonical := by
  intro p hp
  obtain ⟨m, -, rfl⟩ := List.mem_map.mp hp
  exact canonical_naming m.toNaming

lemma canonical_signature (t : Tree) (c : Config) (m : Model.Method) :
    (signature t c m).Canonical := by
  intro p hp
  obtain ⟨q, -, rfl⟩ := List.mem_map.mp hp
  exact canonical_naming q.toNaming

lemma canonical_methods {ms : List Model.Method} {compiled : List Method}
    (h : methods t c ms = .ok compiled) : ∀ m ∈ compiled, m.Canonical := by
  intro e he
  have hgroup := (groupsOf_methods h).group e he
  obtain ⟨first, -, hnaming, -⟩ := hgroup.first
  refine ⟨hnaming ▸ canonical_naming first.toNaming, fun s hs => ?_⟩
  rw [hgroup.signatures] at hs
  obtain ⟨m, -, rfl⟩ := List.mem_map.mp hs
  exact canonical_signature t c m

lemma canonical_classBody {b : Model.ClassBody} {compiled : ClassBody}
    (h : classBody t c n b = .ok compiled) : compiled.Canonical := by
  simp only [classBody, bind_ok_iff] at h
  obtain ⟨methods, hmethods, classMethods, hclassMethods, h⟩ := h
  cases h
  exact ⟨canonical_nodeNaming n b.toNaming, canonical_properties t c _, canonical_methods hmethods,
    canonical_properties t c _, canonical_methods hclassMethods⟩

lemma canonical_entity {e : Model.Entity} {compiled : Entity}
    (h : entity t c n e = .ok compiled) : compiled.Canonical := by
  simp only [entity, bind_ok_iff] at h
  obtain ⟨body, hbody, h⟩ := h
  cases h
  have hcanonical := canonical_classBody hbody
  refine ⟨{ hcanonical with properties := fun p hp => ?_ }, fun p hp => ?_⟩
  · exact hcanonical.properties p (List.mem_filter.mp hp).1
  · exact hcanonical.properties p (List.mem_of_find?_eq_some hp)

lemma canonical_enumeration (n : Node) {e : Model.Enumeration}
    (he : ∀ m ∈ e.members, CodeInRange m.code) : (enumeration n e).Canonical := by
  refine ⟨canonical_nodeNaming n e.toNaming, fun m hm => ?_⟩
  obtain ⟨source, hsource, rfl⟩ := List.mem_map.mp hm
  exact ⟨canonical_naming source.toNaming, codeInRange_enumCode e.base (he source hsource)⟩

lemma canonical_command (t : Tree) (c : Config) (n : Node) (m : Model.Command) :
    (command t c n m).Canonical where
  naming := canonical_nodeNaming n m.toNaming
  properties := canonical_properties t c _
  event := ⟨nofun, canonical_properties t c _⟩
  rules := by simp [command]

lemma canonical_query (t : Tree) (c : Config) (n : Node) (q : Model.Query) :
    (query t c n q).Canonical where
  naming := canonical_nodeNaming n q.toNaming
  properties := canonical_properties t c _
  rules := by simp [query]

/-! ## The domain model -/

/-- The part is canonical. -/
def DomainPart.Canonical : DomainPart → Prop
  | .aggregation _ naming => naming.Canonical
  | .entity _ _ compiled => compiled.Canonical
  | .valueObject _ _ compiled => compiled.toClassBody.Canonical
  | .enumeration _ _ compiled => compiled.Canonical
  | .command _ _ compiled => compiled.Canonical
  | .rule _ _ compiled => compiled.toNaming.Canonical
  | .skipped _ => True

lemma canonical_domainPart {part : DomainPart} (hn : (obj n.properties).InRange)
    (h : domainPart t c n = .ok part) : part.Canonical := by
  cases partOf_of_domainPart h with
  | aggregation _ _ => exact canonical_nodeNaming n _
  | entity _ _ hcompile => exact canonical_entity hcompile
  | valueObject _ _ hcompile => exact canonical_classBody hcompile
  | enumeration _ hread => exact canonical_enumeration n (Model.Enumeration.inRange_codes hn hread)
  | command _ _ => exact canonical_command t c n _
  | rule _ _ => exact canonical_nodeNaming n _
  | skipped _ => trivial

structure Slot.Canonical (s : Slot) : Prop where
  naming : s.naming.Canonical
  entities : ∀ e ∈ s.entities, e.Canonical
  valueObjects : ∀ v ∈ s.valueObjects, v.toClassBody.Canonical
  enums : ∀ e ∈ s.enums, e.Canonical

structure DomainState.Canonical (s : DomainState) : Prop where
  slots : ∀ slot ∈ s.aggregates.items, slot.Canonical
  commands : ∀ command ∈ s.commands.items, command.Canonical

lemma DomainState.Canonical.addMember {s : DomainState} (h : s.Canonical) (member : Member)
    (id : String) (owner : Option String) {add : Slot → Slot}
    (hadd : ∀ slot, slot.Canonical → (add slot).Canonical) :
    (s.addMember member id owner add).Canonical := by
  rw [DomainState.addMember]
  split
  next place _ => exact ⟨Register.forall_mem_modifyAt h.slots hadd place, h.commands⟩
  next => exact ⟨h.slots, h.commands⟩

lemma forall_mem_concat {α : Type} {P : α → Prop} {items : List α} {a : α}
    (h : ∀ b ∈ items, P b) (ha : P a) : ∀ b ∈ items ++ [a], P b :=
  List.forall_mem_append.mpr ⟨h, List.forall_mem_singleton.mpr ha⟩

/-- What a part adds to a state is canonical. -/
lemma canonical_enter {part : DomainPart} {s : DomainState} (hpart : part.Canonical)
    (hs : s.Canonical) : (part.enter s).Canonical := by
  cases part with
  | aggregation id naming =>
      have hslot : Slot.Canonical { naming } := ⟨hpart, by simp, by simp, by simp⟩
      exact ⟨forall_mem_concat hs.slots hslot, hs.commands⟩
  | entity id owner compiled =>
      have hwarned : (s.warn (if compiled.id.isNone then [.noIdentifier id] else [])).Canonical :=
        ⟨hs.slots, hs.commands⟩
      refine hwarned.addMember _ _ _ fun slot hslot => ?_
      exact { hslot with entities := forall_mem_concat hslot.entities hpart }
  | valueObject id owner compiled =>
      refine hs.addMember _ _ _ fun slot hslot => ?_
      exact { hslot with valueObjects := forall_mem_concat hslot.valueObjects hpart }
  | enumeration id owner compiled =>
      refine hs.addMember _ _ _ fun slot hslot => ?_
      exact { hslot with enums := forall_mem_concat hslot.enums hpart }
  | command id target compiled => exact ⟨hs.slots, forall_mem_concat hs.commands hpart⟩
  | rule id target compiled => exact ⟨hs.slots, hs.commands⟩
  | skipped warnings => exact ⟨hs.slots, hs.commands⟩

lemma canonical_attachCommand (target : String) (place : ℕ) {s : DomainState}
    (hs : s.Canonical) : (s.attachCommand target place).Canonical := by
  rw [DomainState.attachCommand]
  split
  next slot _ =>
    refine ⟨Register.forall_mem_modifyAt hs.slots (fun slot hslot => ?_) slot, hs.commands⟩
    exact { hslot with }
  next => exact ⟨hs.slots, hs.commands⟩

lemma canonical_attachRule (target : String) {rule : Rule} (hrule : rule.toNaming.Canonical)
    {s : DomainState} (hs : s.Canonical) : (s.attachRule target rule).Canonical := by
  rw [DomainState.attachRule]
  split
  next place _ =>
    refine ⟨hs.slots, Register.forall_mem_modifyAt hs.commands (fun c hc => ?_) place⟩
    exact { hc with rules := forall_mem_concat hc.rules hrule }
  next => exact ⟨hs.slots, hs.commands⟩

lemma domain_keeps {part : DomainPart} (hpart : part.Canonical) :
    domainCollector.Keeps DomainState.Canonical part := by
  intro s hs
  refine ⟨canonical_enter hpart hs, fun change hchange s' hs' => ?_⟩
  change change ∈ part.later s at hchange
  unfold DomainPart.later at hchange
  split at hchange
  next target compiled =>
    rw [List.mem_singleton.mp hchange]
    exact canonical_attachCommand target _ hs'
  next target compiled =>
    rw [List.mem_singleton.mp hchange]
    exact canonical_attachRule target hpart hs'
  next => simp at hchange

/-- Taking commands gives commands that were left, and leaves others. -/
lemma takeCommands_keeps {P : Command → Prop} (asked : List ℕ) {left : List (Option Command)}
    (h : ∀ c, some c ∈ left → P c) :
    (∀ c ∈ (takeCommands asked left).1, P c) ∧ ∀ c, some c ∈ (takeCommands asked left).2 → P c := by
  induction asked generalizing left with
  | nil => exact ⟨by simp [takeCommands], h⟩
  | cons place rest ih =>
      rw [takeCommands]
      split
      next command hcommand =>
        have hleft : ∀ c, some c ∈ left.set place none → P c := by
          intro c hc
          rcases List.mem_or_eq_of_mem_set hc with hc | hc
          · exact h c hc
          · cases hc
        obtain ⟨htaken, hrest⟩ := ih hleft
        exact ⟨List.forall_mem_cons.mpr ⟨h command (List.mem_of_getElem? hcommand), htaken⟩, hrest⟩
      next => exact ih h

lemma canonical_assemble {slots : List Slot} (hslots : ∀ slot ∈ slots, slot.Canonical)
    {left : List (Option Command)} (hleft : ∀ command, some command ∈ left → command.Canonical) :
    ∀ a ∈ assemble slots left, a.Canonical := by
  induction slots generalizing left with
  | nil => simp [assemble]
  | cons slot rest ih =>
      obtain ⟨hslot, hrest⟩ := List.forall_mem_cons.mp hslots
      obtain ⟨htaken, hothers⟩ := takeCommands_keeps slot.commands hleft
      rw [assemble]
      refine List.forall_mem_cons.mpr ⟨?_, ih hrest hothers⟩
      exact
        { naming := hslot.naming
          root := fun e he => hslot.entities e (List.mem_of_find?_eq_some he)
          entities := fun e he => hslot.entities e (List.mem_of_mem_eraseP he)
          valueObjects := hslot.valueObjects
          enums := hslot.enums
          commands := htaken }

lemma canonical_domainModel {r : Report DomainModel} (ht : t.InRange)
    (h : domainModel t c = .ok r) : ∀ a ∈ r.result.aggregates, a.Canonical := by
  obtain ⟨s, hs, rfl⟩ := map_ok_iff.mp h
  have hcanonical : s.Canonical := by
    refine Tree.collect_keeps hs ⟨by simp, by simp⟩ fun n hn part hpart => ?_
    have hrange := ht n (Tree.mem_nodeList.mpr (Tree.get?_of_mem_visitOrder n hn))
    exact domain_keeps (canonical_domainPart hrange hpart)
  refine canonical_assemble hcanonical.slots fun command hcommand => ?_
  simp only [List.mem_map, Option.some.injEq, exists_eq_right] at hcommand
  exact hcanonical.commands command hcommand

/-! ## The query model -/

structure QueryState.Canonical (s : QueryState) : Prop where
  queries : ∀ q ∈ s.queries.items, q.Canonical
  dtos : ∀ d ∈ s.dtos, d.toClassBody.Canonical

lemma canonical_attachQueryRule (target : String) {rule : Rule}
    (hrule : rule.toNaming.Canonical) {s : QueryState} (hs : s.Canonical) :
    (s.attachRule target rule).Canonical := by
  rw [QueryState.attachRule]
  split
  next place _ =>
    refine ⟨Register.forall_mem_modifyAt hs.queries (fun q hq => ?_) place, hs.dtos⟩
    exact { hq with rules := forall_mem_concat hq.rules hrule }
  next => exact ⟨hs.queries, hs.dtos⟩

lemma query_keeps {part : QueryPart} (h : queryPart t c n = .ok part) :
    queryCollector.Keeps QueryState.Canonical part := by
  rw [queryPart] at h
  split at h
  next =>
    obtain ⟨q, -, heq⟩ := bind_ok_iff.mp h
    cases heq
    intro s hs
    exact ⟨⟨forall_mem_concat hs.queries (canonical_query t c n q), hs.dtos⟩,
      List.forall_mem_nil _⟩
  next =>
    simp only [bind_ok_iff] at h
    obtain ⟨d, -, body, hbody, heq⟩ := h
    cases heq
    intro s hs
    exact ⟨⟨hs.queries, forall_mem_concat hs.dtos (canonical_classBody hbody)⟩,
      List.forall_mem_nil _⟩
  next =>
    obtain ⟨r, -, heq⟩ := bind_ok_iff.mp h
    cases heq
    intro s hs
    refine ⟨⟨hs.queries, hs.dtos⟩, fun change hchange s' hs' => ?_⟩
    generalize r.aggregator.bind Model.Reference.target? = target at hchange
    cases target with
    | none => cases hchange
    | some target =>
        rw [List.mem_singleton.mp hchange]
        exact canonical_attachQueryRule target (canonical_nodeNaming n _) hs'
  next =>
    obtain ⟨warnings, -, rfl⟩ := map_ok_iff.mp h
    intro s hs
    exact ⟨⟨hs.queries, hs.dtos⟩, List.forall_mem_nil _⟩

lemma canonical_queryModel {r : Report QueryModel} (h : queryModel t c = .ok r) :
    (∀ q ∈ r.result.queries, q.Canonical) ∧ ∀ d ∈ r.result.dtos, d.toClassBody.Canonical := by
  obtain ⟨s, hs, rfl⟩ := map_ok_iff.mp h
  have hcanonical : s.Canonical :=
    Tree.collect_keeps hs ⟨by simp, by simp⟩ fun n _ part hpart => query_keeps hpart
  exact ⟨hcanonical.queries, hcanonical.dtos⟩

/-! ## The data model -/

/-- The naming is canonical, and the defaults of the columns are finite. -/
structure Table.Canonical (t : Table) : Prop where
  naming : t.naming.Canonical
  columns : ∀ p ∈ t.object.properties, p.type.Finite

lemma finite_withoutEmptyDefault {s : Storage} (h : s.Finite) : s.withoutEmptyDefault.Finite := by
  cases s <;> exact h

lemma canonical_column? {tables : Register Table} {p : Model.DataProperty} {q : DataProperty}
    (hp : p.type.Finite) (h : column? tables p = some q) : q.Canonical := by
  obtain ⟨storage, hstorage, rfl⟩ := Option.map_eq_some_iff.mp h
  refine ⟨canonical_naming p.toNaming, ?_⟩
  rw [columnStorage?] at hstorage
  split at hstorage
  · obtain ⟨found, -, rfl⟩ := Option.map_eq_some_iff.mp hstorage
    exact Storage.finite_ofKind _
  · cases hstorage
    exact finite_withoutEmptyDefault hp

lemma canonical_dataObject (tables : Register Table) {t : Table} (ht : t.Canonical) :
    (dataObject tables t).Canonical where
  naming := ht.naming
  properties := by
    intro q hq
    obtain ⟨p, hp, hcolumn⟩ := List.mem_filterMap.mp hq
    exact canonical_column? (ht.columns p hp) hcolumn
  indexes := by
    refine List.forall_mem_append.mpr ⟨fun i hi => ?_, fun i hi => ?_⟩
    · obtain ⟨source, -, rfl⟩ := List.mem_map.mp hi
      exact canonical_naming source.toNaming
    · simp only [primaryIndex] at hi
      split at hi
      · simp at hi
      · rw [List.mem_singleton.mp hi]
        simp [Naming.Canonical]

structure DataState.Canonical (s : DataState) : Prop where
  tables : ∀ t ∈ s.tables.items, t.Canonical
  compiled : ∀ d ∈ s.compiled, d.Canonical

lemma canonical_finish (place : ℕ) {s : DataState} (hs : s.Canonical) :
    (s.finish place).Canonical := by
  rw [DataState.finish]
  split
  next table htable =>
    have hcanonical : table.Canonical := hs.tables table (List.mem_of_getElem? htable)
    exact ⟨hs.tables, forall_mem_concat hs.compiled (canonical_dataObject s.tables hcanonical)⟩
  next => exact hs

lemma data_keeps {part : DataPart} (hn : (obj n.properties).InRange)
    (h : dataPart t c n = .ok part) : dataCollector.Keeps DataState.Canonical part := by
  rw [dataPart] at h
  split at h
  next =>
    simp only [bind_ok_iff, Node.read_eq_ok] at h
    obtain ⟨d, hread, heq⟩ := h
    cases heq
    intro s hs
    refine ⟨⟨forall_mem_concat hs.tables ⟨canonical_nodeNaming n _, ?_⟩, hs.compiled⟩, ?_⟩
    · exact Model.DataObject.finite_properties hn hread
    · intro change hchange s' hs'
      rw [List.mem_singleton.mp hchange]
      exact canonical_finish _ hs'
  next =>
    obtain ⟨warnings, -, rfl⟩ := map_ok_iff.mp h
    intro s hs
    exact ⟨⟨hs.tables, hs.compiled⟩, List.forall_mem_nil _⟩

lemma canonical_dataModel {r : Report DataModel} (ht : t.InRange) (h : dataModel t c = .ok r) :
    ∀ d ∈ r.result.dataObjects, d.Canonical := by
  obtain ⟨s, hs, rfl⟩ := map_ok_iff.mp h
  have hcanonical : s.Canonical := by
    refine Tree.collect_keeps hs ⟨by simp, by simp⟩ fun n hn part hpart => ?_
    exact data_keeps (ht n (Tree.mem_nodeList.mpr (Tree.get?_of_mem_visitOrder n hn))) hpart
  exact hcanonical.compiled

/-! ## The object mapper -/

lemma canonical_objectMapper {store : Store} {r : Report ObjectMapper}
    (h : objectMapper store t c = .ok r) : ∀ m ∈ r.result.mappers, m.toNaming.Canonical := by
  intro m hm
  obtain ⟨n, written, -, -, -, -, hmapper⟩ := exists_mapper_node h hm
  rw [mapper] at hmapper
  split at hmapper
  · cases hmapper
  · cases hmapper
  · cases hmapper
    exact canonical_nodeNaming n _

end Compile

/-- **A document whose numbers are in range is compiled to a canonical one.** -/
theorem Document.canonical_compile {d : Document} {c : Config} {b : BusinessDomain} (hd : d.InRange)
    (h : d.compile c = .ok b) : b.Canonical := by
  simp only [compile, bind_ok_iff] at h
  obtain ⟨domain, hdomain, query, hquery, data, hdata, mapped, hmapped, heq⟩ := h
  cases heq
  have hqueries := Compile.canonical_queryModel hquery
  refine ⟨Compile.canonical_domainModel (hd d.domain (by simp [trees])) hdomain, hqueries.1,
    hqueries.2, Compile.canonical_dataModel (hd d.dataObject (by simp [trees])) hdata, ?_⟩
  rintro om rfl
  rw [compileMapper] at hmapped
  split at hmapped
  · simp only [bind_ok_iff] at hmapped
    obtain ⟨store, -, report, hreport, heq⟩ := hmapped
    cases heq
    exact Compile.canonical_objectMapper hreport
  · cases hmapped

end DomainDesign
