import DomainDesign.Document
import DomainDesign.Json.Parser
import DomainDesign.Proofs.NumberRange
import DomainDesign.Proofs.Snapshots

/-!
# Values whose numbers are in range

A JSON value holds only numbers in range, and this file says where such values come from and what
is read from them.

**Text.**  `inRange_parse?`: the value of a text is in range.  Only a number literal brings a number
in, so it is enough to follow what is in range through the scanner, which makes the tokens, and
through the machine that puts them together.

**Documents.**  `Document.InRange` asks it of the properties of all nodes.
`Document.inRange_ofText`: a document that has been read from text is in range.
-/

namespace DomainDesign

namespace Json

variable {α : Type} {read : Json → Option α} {fields : Fields} {j : Json} {key : String}

mutual

/-- Every number in a value is in range. -/
def InRange : Json → Prop
  | .num n => n.InRange
  | .arr items => ItemsInRange items
  | .obj fields => FieldsInRange fields
  | _ => True

/-- Every number in the items is in range. -/
def ItemsInRange : List Json → Prop
  | [] => True
  | j :: rest => j.InRange ∧ ItemsInRange rest

/-- Every number in the fields is in range. -/
def FieldsInRange : List (String × Json) → Prop
  | [] => True
  | (_, j) :: rest => j.InRange ∧ FieldsInRange rest

end

mutual

def decideInRange : (j : Json) → Decidable j.InRange
  | .num n => inferInstanceAs (Decidable n.InRange)
  | .arr items => decideItemsInRange items
  | .obj fields => decideFieldsInRange fields
  | .null | .bool _ | .str _ => isTrue trivial

def decideItemsInRange : (items : List Json) → Decidable (ItemsInRange items)
  | [] => isTrue trivial
  | j :: rest => @instDecidableAnd _ _ (decideInRange j) (decideItemsInRange rest)

def decideFieldsInRange : (fields : List (String × Json)) → Decidable (FieldsInRange fields)
  | [] => isTrue trivial
  | (_, j) :: rest => @instDecidableAnd _ _ (decideInRange j) (decideFieldsInRange rest)

end

instance : DecidablePred InRange :=
  decideInRange

lemma inRange_arr {items : List Json} : (arr items).InRange ↔ ∀ j ∈ items, j.InRange := by
  rw [InRange]
  induction items with
  | nil => simp [ItemsInRange]
  | cons j rest ih => rw [ItemsInRange, ih, List.forall_mem_cons]

lemma inRange_obj : (obj fields).InRange ↔ ∀ f ∈ fields, f.2.InRange := by
  rw [InRange]
  induction fields with
  | nil => simp [FieldsInRange]
  | cons f rest ih => rw [FieldsInRange, ih, List.forall_mem_cons]

/-! ## Reading -/

lemma InRange.of_lookup (h : (obj fields).InRange) (hj : fields.lookup key = some j) :
    j.InRange :=
  inRange_obj.mp h _ (Dict.mem_of_lookup hj)

lemma InRange.of_record? {names : List String} (h : j.InRange)
    (hfields : record? names j = some fields) : (obj fields).InRange := by
  cases j with
  | obj written => cases hfields; exact h
  | arr items =>
      rw [record?] at hfields
      split at hfields
      · cases hfields
        exact inRange_obj.mpr fun f hf => inRange_arr.mp h _ (List.of_mem_zip hf).2
      · cases hfields
  | _ => cases hfields

lemma InRange.of_object? (h : j.InRange) (hfields : object? j = some fields) :
    (obj fields).InRange := by
  cases j <;> cases hfields
  exact h

lemma InRange.of_required {a : α} (h : (obj fields).InRange)
    (ha : required fields key read = some a) : ∃ j : Json, j.InRange ∧ read j = some a := by
  obtain ⟨j, hj, hread⟩ := Option.bind_eq_some_iff.mp ha
  exact ⟨j, h.of_lookup hj, hread⟩

lemma InRange.of_orDefault {a default : α} (h : (obj fields).InRange)
    (ha : orDefault fields key default read = some a) :
    a = default ∨ ∃ j : Json, j.InRange ∧ read j = some a := by
  rw [orDefault] at ha
  split at ha
  next => exact .inl (Option.some.inj ha).symm
  next j hj => exact .inr ⟨j, h.of_lookup hj, ha⟩

lemma InRange.of_optional {a : α} (h : (obj fields).InRange)
    (ha : Json.optional fields key read = some (some a)) :
    ∃ j : Json, j.InRange ∧ read j = some a := by
  rw [Json.optional] at ha
  split at ha
  next => cases ha
  next => cases ha
  next j _ hj =>
    obtain ⟨b, hb, hab⟩ := Option.map_eq_some_iff.mp ha
    cases hab
    exact ⟨j, h.of_lookup hj, hb⟩

lemma InRange.of_list? {items : List α} (h : j.InRange) (hitems : list? read j = some items) :
    ∀ a ∈ items, ∃ i : Json, i.InRange ∧ read i = some a := by
  cases j with
  | arr written =>
      rw [inRange_arr] at h
      rw [list?] at hitems
      induction written generalizing items with
      | nil => cases hitems; simp
      | cons first rest ih =>
          simp only [List.mapM_cons, Option.bind_eq_bind, Option.bind_eq_some_iff] at hitems
          obtain ⟨a, hfirst, others, hothers, hcons⟩ := hitems
          cases hcons
          obtain ⟨hj, hrest⟩ := List.forall_mem_cons.mp h
          exact List.forall_mem_cons.mpr ⟨⟨first, hj, hfirst⟩, ih hrest hothers⟩
  | _ => cases hitems

/-! ## Writing -/

section

variable {write : α → Json}

@[simp] lemma inRange_null : null.InRange :=
  trivial

@[simp] lemma inRange_bool (b : Bool) : (bool b).InRange :=
  trivial

@[simp] lemma inRange_str (s : String) : (str s).InRange :=
  trivial

@[simp] lemma inRange_ofFloat (x : Binary64) : (ofFloat x).InRange := by
  rw [ofFloat]
  split
  next h => exact h
  next => exact inRange_null

@[simp] lemma inRange_ofInt64 (i : Int64) : (ofInt64 i).InRange :=
  ⟨i.le_toInt, i.toInt_lt.trans (by decide)⟩

@[simp] lemma inRange_ofWord32 (n : UInt32) : (ofWord32 n).InRange := by
  have hn := n.toNat_lt
  show -2 ^ 63 ≤ (n.toNat : ℤ) ∧ (n.toNat : ℤ) < 2 ^ 64
  omega

@[simp] lemma inRange_ofList {items : List α} :
    (ofList write items).InRange ↔ ∀ a ∈ items, (write a).InRange := by
  rw [ofList, inRange_arr, List.forall_mem_map]

@[simp] lemma inRange_ofTexts (texts : List String) : (ofTexts texts).InRange :=
  inRange_ofList.mpr fun s _ => inRange_str s

@[simp] lemma inRange_append {fields' : Fields} :
    (obj (fields ++ fields')).InRange ↔ (obj fields).InRange ∧ (obj fields').InRange := by
  simp only [inRange_obj, List.forall_mem_append]

@[simp] lemma inRange_nil : (obj []).InRange :=
  trivial

@[simp] lemma inRange_field : (obj (field key j)).InRange ↔ j.InRange := by
  simp [inRange_obj, field]

@[simp] lemma inRange_fieldSome {a : Option α} :
    (obj (fieldSome key write a)).InRange ↔ ∀ x, a = some x → (write x).InRange := by
  cases a <;> simp [inRange_obj, fieldSome]

@[simp] lemma inRange_fieldList {items : List α} :
    (obj (fieldList key write items)).InRange ↔ ∀ a ∈ items, (write a).InRange := by
  cases items <;> simp [inRange_obj, inRange_arr, fieldList]

end

/-! ## Text -/

/-- The value of a token is in range, if it has one. -/
def Token.Ranged : Token → Prop
  | .leaf l => ∀ j, l.value? = some j → j.InRange
  | _ => True

lemma ranged_wordToken? {cs : List Char} {token : Token} (h : wordToken? cs = some token) :
    token.Ranged := by
  rw [wordToken?] at h
  split at h
  · cases h; rintro j ⟨⟩; simp [InRange]
  split at h
  · cases h; rintro j ⟨⟩; simp [InRange]
  split at h
  · cases h; rintro j ⟨⟩; simp [InRange]
  · obtain ⟨l, -, rfl⟩ := Option.map_eq_some_iff.mp h
    intro j hj
    obtain ⟨n, hn, rfl⟩ := Option.map_eq_some_iff.mp hj
    rw [InRange]
    exact Number.inRange_ofLiteral? hn

lemma ranged_startToken {c : Char} {tokens : List Token} {next : Scan}
    (h : startToken c = some (tokens, next)) : ∀ t ∈ tokens, t.Ranged := by
  rw [startToken] at h
  split_ifs at h <;> cases h <;> simp [Token.Ranged]

/-- What the scanner makes of one character. -/
lemma ranged_step {state next : Scan} {c : Char} {tokens : List Token}
    (h : step state c = some (tokens, next)) : ∀ t ∈ tokens, t.Ranged := by
  cases state with
  | between => exact ranged_startToken h
  | word reversed =>
      rw [step] at h
      split at h
      · cases h; simp
      · simp only [Option.bind_eq_bind, Option.bind_eq_some_iff] at h
        obtain ⟨token, htoken, ⟨started, _⟩, hstarted, h⟩ := h
        cases h
        exact List.forall_mem_cons.mpr ⟨ranged_wordToken? htoken, ranged_startToken hstarted⟩
  | text draft =>
      rw [step] at h
      split_ifs at h <;> cases h <;> simp [Token.Ranged]
  | escape draft =>
      rw [step] at h
      split at h
      · cases h; simp
      · obtain ⟨e, -, h⟩ := Option.map_eq_some_iff.mp h
        cases h
        simp
  | unit draft missing value =>
      obtain ⟨digit, -, h⟩ := Option.map_eq_some_iff.mp h
      split_ifs at h <;> cases h <;> simp

/-- What the scanner makes of a text. -/
lemma ranged_scanFrom {state : Scan} {cs : List Char} {tokens : List Token}
    (h : scanFrom state cs = some tokens) : ∀ t ∈ tokens, t.Ranged := by
  induction cs generalizing state tokens with
  | nil =>
      cases state with
      | between => cases h; simp
      | word reversed =>
          obtain ⟨token, htoken, rfl⟩ := Option.map_eq_some_iff.mp h
          simpa using ranged_wordToken? htoken
      | _ => cases h
  | cons c rest ih =>
      simp only [scanFrom, Option.bind_eq_bind, Option.bind_eq_some_iff] at h
      obtain ⟨⟨first, next⟩, hfirst, later, hlater, h⟩ := h
      cases h
      exact List.forall_mem_append.mpr ⟨ranged_step hfirst, ih hlater⟩

end Json

namespace Outline

open Json

/-- The value of an outline is in range, at any depth at which it has one. -/
def Ranged (o : Outline) : Prop :=
  ∀ depth j, o.toJson? depth = some j → j.InRange

lemma ranged_leaf {l : Leaf} (h : ∀ j, l.value? = some j → j.InRange) : (leaf l).Ranged := by
  intro depth j hj
  rw [toJson?] at hj
  exact h j hj

lemma inRange_itemsToJson? {depth : ℕ} {items : List Outline} {js : List Json}
    (h : ∀ o ∈ items, o.Ranged) (hjs : itemsToJson? depth items = some js) :
    ∀ j ∈ js, j.InRange := by
  induction items generalizing js with
  | nil => cases hjs; simp
  | cons o rest ih =>
      simp only [itemsToJson?, Option.bind_eq_bind, Option.bind_eq_some_iff] at hjs
      obtain ⟨j, hj, others, hothers, hcons⟩ := hjs
      cases hcons
      obtain ⟨ho, hrest⟩ := List.forall_mem_cons.mp h
      exact List.forall_mem_cons.mpr ⟨ho depth j hj, ih hrest hothers⟩

lemma inRange_fieldsToJson? {depth : ℕ} {fields : List (Option String × Outline)} {fs : Fields}
    (h : ∀ f ∈ fields, f.2.Ranged) (hfs : fieldsToJson? depth fields = some fs) :
    ∀ f ∈ fs, f.2.InRange := by
  induction fields generalizing fs with
  | nil => cases hfs; simp
  | cons f rest ih =>
      obtain ⟨key, o⟩ := f
      cases key with
      | none => cases hfs
      | some key =>
          simp only [fieldsToJson?, Option.bind_eq_bind, Option.bind_eq_some_iff] at hfs
          obtain ⟨j, hj, others, hothers, hcons⟩ := hfs
          cases hcons
          obtain ⟨ho, hrest⟩ := List.forall_mem_cons.mp h
          exact List.forall_mem_cons.mpr ⟨ho depth j hj, ih hrest hothers⟩

lemma ranged_list (positional : Bool) {items : List Outline} (h : ∀ o ∈ items, o.Ranged) :
    (list positional items).Ranged := by
  intro depth j hj
  cases depth with
  | zero => cases hj
  | succ depth =>
      obtain ⟨js, hjs, rfl⟩ := Option.map_eq_some_iff.mp hj
      exact inRange_arr.mpr (inRange_itemsToJson? h hjs)

lemma ranged_table {fields : List (Option String × Outline)} (h : ∀ f ∈ fields, f.2.Ranged) :
    (table fields).Ranged := by
  intro depth j hj
  cases depth with
  | zero => cases hj
  | succ depth =>
      obtain ⟨fs, hfs, rfl⟩ := Option.map_eq_some_iff.mp hj
      exact inRange_obj.mpr fun f hf => inRange_fieldsToJson? h hfs f (Dict.mem_of_mem_ofEntries hf)

end Outline

namespace Json

/-- The parts of an open list or table are in range. -/
def Open.Ranged : Open → Prop
  | .list reversed => ∀ o ∈ reversed, o.Ranged
  | .table reversed | .field reversed _ => ∀ f ∈ reversed, f.2.Ranged

namespace Assembly

/-- Everything that the machine holds is in range. -/
structure Ranged (a : Assembly) : Prop where
  stack : ∀ p ∈ a.stack, p.Ranged
  result : ∀ o, a.result = some o → o.Ranged

variable {a a' : Assembly} {stack : List Open} {t : Token}

lemma ranged_place {o : Outline} (ho : o.Ranged) (hstack : ∀ p ∈ stack, p.Ranged)
    (h : place o stack = some a) : a.Ranged := by
  cases stack with
  | nil =>
      cases h
      exact ⟨by simp, by rintro _ ⟨⟩; exact ho⟩
  | cons top rest =>
      obtain ⟨htop, hrest⟩ := List.forall_mem_cons.mp hstack
      cases top with
      | list reversed =>
          cases h
          exact ⟨List.forall_mem_cons.mpr ⟨List.forall_mem_cons.mpr ⟨ho, htop⟩, hrest⟩, by simp⟩
      | field reversed key =>
          cases h
          exact ⟨List.forall_mem_cons.mpr ⟨List.forall_mem_cons.mpr ⟨ho, htop⟩, hrest⟩, by simp⟩
      | table reversed => cases h

lemma ranged_startValue (ht : t.Ranged) (hstack : ∀ p ∈ stack, p.Ranged)
    (h : startValue stack t = some a) : a.Ranged := by
  cases t with
  | listOpen =>
      cases h
      exact ⟨List.forall_mem_cons.mpr ⟨by simp [Open.Ranged], hstack⟩, by simp⟩
  | tableOpen =>
      cases h
      exact ⟨List.forall_mem_cons.mpr ⟨by simp [Open.Ranged], hstack⟩, by simp⟩
  | text value =>
      refine ranged_place (Outline.ranged_leaf fun j hj => ?_) hstack h
      obtain ⟨s, -, rfl⟩ := Option.map_eq_some_iff.mp hj
      simp [InRange]
  | leaf l => exact ranged_place (Outline.ranged_leaf ht) hstack h
  | _ => cases h

lemma ranged_close (hstack : ∀ p ∈ stack, p.Ranged) (h : close t stack = some a) : a.Ranged := by
  unfold close at h
  split at h
  next reversed rest =>
    obtain ⟨htop, hrest⟩ := List.forall_mem_cons.mp hstack
    have hitems := Outline.ranged_list true fun o ho => htop o (List.mem_reverse.mp ho)
    exact ranged_place hitems hrest h
  next reversed rest =>
    obtain ⟨htop, hrest⟩ := List.forall_mem_cons.mp hstack
    exact ranged_place (Outline.ranged_table fun f hf => htop f (List.mem_reverse.mp hf)) hrest h
  next => cases h

lemma ranged_startField (hstack : ∀ p ∈ stack, p.Ranged) (h : startField t stack = some a) :
    a.Ranged := by
  unfold startField at h
  split at h
  next reversed rest =>
    cases h
    obtain ⟨htop, hrest⟩ := List.forall_mem_cons.mp hstack
    exact ⟨List.forall_mem_cons.mpr ⟨htop, hrest⟩, by simp⟩
  next => cases h

/-- What one token does. -/
lemma ranged_step (ha : a.Ranged) (ht : t.Ranged) (h : a.step t = some a') : a'.Ranged := by
  unfold step at h
  split at h
  · exact ranged_startValue ht ha.stack h
  · rcases Option.or_eq_some_iff.mp h with h | ⟨-, h⟩
    · exact ranged_close ha.stack h
    · exact ranged_startValue ht ha.stack h
  · exact ranged_startField ha.stack h
  · rcases Option.or_eq_some_iff.mp h with h | ⟨-, h⟩
    · exact ranged_close ha.stack h
    · exact ranged_startField ha.stack h
  · split at h
    · cases h; exact ⟨ha.stack, ha.result⟩
    · cases h
  · split at h
    · cases h; exact ⟨ha.stack, ha.result⟩
    · cases h; exact ⟨ha.stack, ha.result⟩
    · exact ranged_close ha.stack h
  · cases h

lemma ranged_foldlM {tokens : List Token} (ha : a.Ranged) (htokens : ∀ t ∈ tokens, t.Ranged)
    (h : tokens.foldlM step a = some a') : a'.Ranged := by
  induction tokens generalizing a with
  | nil => cases h; exact ha
  | cons t rest ih =>
      obtain ⟨ht, hrest⟩ := List.forall_mem_cons.mp htokens
      simp only [List.foldlM_cons, Option.bind_eq_bind, Option.bind_eq_some_iff] at h
      obtain ⟨next, hnext, h⟩ := h
      exact ih (ranged_step ha ht hnext) hrest h

end Assembly

/-- **The value of a text is in range.** -/
theorem inRange_parse? {text : String} {j : Json} (h : parse? text = some j) : j.InRange := by
  simp only [parse?, outline?, Option.bind_eq_bind, Option.bind_eq_some_iff] at h
  obtain ⟨o, ⟨tokens, htokens, final, hfinal, hresult⟩, hj⟩ := h
  have hranged : final.Ranged :=
    Assembly.ranged_foldlM ⟨by simp, by simp⟩ (ranged_scanFrom htokens) hfinal
  exact hranged.result o hresult maxDepth j hj

end Json

/-! ## Documents -/

/-- The numbers in the properties of all nodes are in range. -/
def Tree.InRange (t : Tree) : Prop :=
  ∀ n ∈ t.nodeList, (Json.obj n.properties).InRange

instance (t : Tree) : Decidable t.InRange :=
  inferInstanceAs (Decidable (∀ n ∈ t.nodeList, _))

namespace Document

/-- The numbers in the properties of all nodes are in range. -/
def InRange (d : Document) : Prop :=
  ∀ t ∈ d.trees, t.InRange

instance (d : Document) : Decidable d.InRange :=
  inferInstanceAs (Decidable (∀ t ∈ d.trees, _))

open Json

lemma inRange_empty (rootId : String) : (Tree.empty rootId).InRange := by
  intro n hn
  obtain rfl : n = .make rootId .root .null := by simpa [Tree.nodeList, Tree.empty] using hn
  refine inRange_obj.mpr ?_
  simp [Node.make, Dict.insert, Json.InRange]

lemma inRange_tree {rootId : String} {j : Json} {t : Tree} (hj : j.InRange)
    (h : Tree.ofJson rootId j = .ok t) : t.InRange := by
  intro n hn
  obtain ⟨fields, rfl, f, hf, raw, hraw, hnode⟩ := Tree.exists_field_of_ofJson h hn
  have hproperties : (obj raw.properties).InRange := by
    simp only [RawNode.ofJson?, Option.bind_eq_bind, Option.bind_eq_some_iff] at hraw
    obtain ⟨written, hwritten, _, _, _, _, _, _, properties, hread, hraw⟩ := hraw
    cases hraw
    have hrange := (inRange_obj.mp hj f hf).of_record? hwritten
    rcases hrange.of_orDefault hread with rfl | ⟨j, hj, hobject⟩
    · simp
    · exact hj.of_object? hobject
  rw [RawNode.toNode] at hnode
  split at hnode
  · cases hnode; exact hproperties
  · cases hnode

lemma inRange_subtree {rootId key : String} {fields : Fields} {t : Tree}
    (hfields : (obj fields).InRange) (h : subtree rootId fields key = .ok t) : t.InRange := by
  rw [subtree] at h
  split at h
  next => cases h; exact inRange_empty rootId
  next => cases h; exact inRange_empty rootId
  next j hj => exact inRange_tree (hfields.of_lookup hj) h

/-- **A document that has been read from text is in range.** -/
lemma inRange_ofText {rootId text : String} {d : Document} (h : ofText rootId text = .ok d) :
    d.InRange := by
  rw [ofText] at h
  split at h
  next j hj =>
    rw [ofJson] at h
    split at h
    next => cases h
    next fields vision hparts =>
      have hfields : (obj fields).InRange := by
        simp only [parts?, Option.bind_eq_bind, Option.bind_eq_some_iff] at hparts
        obtain ⟨written, hwritten, _, _, hparts⟩ := hparts
        cases hparts
        exact (inRange_parse? hj).of_record? hwritten
      simp only [bind_ok_iff] at h
      obtain ⟨domain, hdomain, query, hquery, data, hdata, mapper, hmapper, h⟩ := h
      cases h
      simp only [InRange, trees, List.forall_mem_cons, List.not_mem_nil, false_implies,
        implies_true, and_true]
      exact ⟨inRange_subtree hfields hdomain, inRange_subtree hfields hquery,
        inRange_subtree hfields hdata, inRange_subtree hfields hmapper⟩
  next => cases h

end Document

end DomainDesign
