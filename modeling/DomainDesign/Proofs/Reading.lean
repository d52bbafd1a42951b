import DomainDesign.Compile.Rendering
import DomainDesign.Model.Data
import DomainDesign.Model.Enumeration
import DomainDesign.Model.Mapper
import DomainDesign.Proofs.Outcomes

/-!
# Reading the properties of a node

A node is read by reading its properties as one of the parts of a document.  All parts have naming
fields, and `nodeNaming_uuid` is what they are for: a node that has passed the check of its identity
is compiled under its own id, whether it declares a uuid or not.
-/

namespace DomainDesign

lemma Node.read_eq_ok {α : Type} {ofJson? : Json → Option α} {n : Node} {a : α} :
    n.read ofJson? = .ok a ↔ ofJson? (.obj n.properties) = some a := by
  rw [read]
  cases ofJson? (.obj n.properties) with
  | none => simp
  | some b => simp

namespace Model

variable {fields : Json.Fields}

/-- The uuid that a part is read with is the text under that name. -/
lemma Naming.uuid_of_ofFields? {m : Naming} (h : Naming.ofFields? fields = some m) :
    m.uuid = ((fields.lookup "uuid").bind Json.str?).getD "" := by
  simp only [Naming.ofFields?, Option.bind_eq_bind, Option.bind_eq_some_iff] at h
  obtain ⟨uuid, huuid, name, -, title, -, description, -, metadata, -, hm⟩ := h
  cases hm
  rw [Json.orDefault] at huuid
  cases hlook : fields.lookup "uuid" with
  | none => rw [hlook] at huuid; simpa [eq_comm] using huuid
  | some j => rw [hlook] at huuid; simp [huuid]

lemma Aggregation.naming_of_ofJson? {m : Aggregation} (h : ofJson? (.obj fields) = some m) :
    Naming.ofFields? fields = some m.toNaming := by
  simp only [ofJson?, Json.object?, Option.bind_some, Option.map_eq_some_iff] at h
  obtain ⟨naming, hnaming, rfl⟩ := h
  exact hnaming

lemma Rule.naming_of_ofJson? {m : Rule} (h : ofJson? (.obj fields) = some m) :
    Naming.ofFields? fields = some m.toNaming := by
  simp only [ofJson?, Json.object?, Option.bind_eq_bind, Option.bind_some,
    Option.bind_eq_some_iff] at h
  obtain ⟨naming, hnaming, _, -, hm⟩ := h
  cases hm
  exact hnaming

lemma Command.naming_of_ofJson? {m : Command} (h : ofJson? (.obj fields) = some m) :
    Naming.ofFields? fields = some m.toNaming := by
  simp only [ofJson?, Json.object?, Option.bind_eq_bind, Option.bind_some,
    Option.bind_eq_some_iff] at h
  obtain ⟨naming, hnaming, _, -, _, -, _, -, _, -, _, -, _, -, _, -, hm⟩ := h
  cases hm
  exact hnaming

lemma Query.naming_of_ofJson? {m : Query} (h : ofJson? (.obj fields) = some m) :
    Naming.ofFields? fields = some m.toNaming := by
  simp only [ofJson?, Json.object?, Option.bind_eq_bind, Option.bind_some,
    Option.bind_eq_some_iff] at h
  obtain ⟨naming, hnaming, _, -, _, -, _, -, _, -, hm⟩ := h
  cases hm
  exact hnaming

lemma ClassBody.naming_of_ofFields? {held : Bool} {m : ClassBody}
    (h : ofFields? held fields = some m) : Naming.ofFields? fields = some m.toNaming := by
  simp only [ofFields?, Option.bind_eq_bind, Option.bind_eq_some_iff] at h
  obtain ⟨naming, hnaming, _, -, _, -, _, -, _, -, _, -, _, -, _, -, hm⟩ := h
  cases hm
  exact hnaming

lemma Entity.naming_of_ofJson? {m : Entity} (h : ofJson? (.obj fields) = some m) :
    Naming.ofFields? fields = some m.toNaming := by
  simp only [ofJson?, Json.object?, Option.bind_eq_bind, Option.bind_some,
    Option.bind_eq_some_iff] at h
  obtain ⟨body, hbody, _, -, _, -, hm⟩ := h
  cases hm
  exact ClassBody.naming_of_ofFields? hbody

lemma ValueObject.naming_of_ofJson? {m : ValueObject} (h : ofJson? (.obj fields) = some m) :
    Naming.ofFields? fields = some m.toNaming := by
  simp only [ofJson?, Json.object?, Option.bind_some, Option.map_eq_some_iff] at h
  obtain ⟨body, hbody, rfl⟩ := h
  exact ClassBody.naming_of_ofFields? hbody

lemma Dto.naming_of_ofJson? {m : Dto} (h : ofJson? (.obj fields) = some m) :
    Naming.ofFields? fields = some m.toNaming := by
  simp only [ofJson?, Json.object?, Option.bind_some, Option.map_eq_some_iff] at h
  obtain ⟨body, hbody, rfl⟩ := h
  exact ClassBody.naming_of_ofFields? hbody

lemma Enumeration.naming_of_ofJson? {m : Enumeration} (h : ofJson? (.obj fields) = some m) :
    Naming.ofFields? fields = some m.toNaming := by
  simp only [ofJson?, Json.object?, Option.bind_eq_bind, Option.bind_some,
    Option.bind_eq_some_iff] at h
  obtain ⟨naming, hnaming, _, -, _, -, hm⟩ := h
  cases hm
  exact hnaming

lemma DataObject.naming_of_ofJson? {m : DataObject} (h : ofJson? (.obj fields) = some m) :
    Naming.ofFields? fields = some m.toNaming := by
  simp only [ofJson?, Json.object?, Option.bind_eq_bind, Option.bind_some,
    Option.bind_eq_some_iff] at h
  obtain ⟨naming, hnaming, _, -, _, -, _, -, hm⟩ := h
  cases hm
  exact hnaming

lemma MapperObject.naming_of_ofJson? {m : MapperObject} (h : ofJson? (.obj fields) = some m) :
    Naming.ofFields? fields = some m.toNaming := by
  simp only [ofJson?, Json.object?, Option.bind_eq_bind, Option.bind_some,
    Option.bind_eq_some_iff] at h
  obtain ⟨naming, hnaming, _, -, _, -, _, -, hm⟩ := h
  cases hm
  exact hnaming

end Model

/-- **A node is compiled under its own id.** -/
lemma Compile.nodeNaming_uuid {n : Node} {m : Model.Naming} (hcheck : n.checkIdentity = .ok ())
    (hread : Model.Naming.ofFields? n.properties = some m) : (nodeNaming n m).uuid = n.id := by
  have hdeclared : m.uuid = (n.text? "uuid").getD "" := Model.Naming.uuid_of_ofFields? hread
  change (if m.uuid.isEmpty then n.id else m.uuid) = n.id
  by_cases hempty : m.uuid.isEmpty
  · rw [if_pos hempty]
  · have hsome : n.declaredUuid? = some m.uuid := by
      cases htext : n.text? "uuid" with
      | none => simp [hdeclared, htext] at hempty
      | some text =>
          rw [htext] at hdeclared
          simp_all [Node.declaredUuid?]
    rw [if_neg hempty]
    by_contra hne
    simp [Node.checkIdentity, hsome, hne] at hcheck

lemma Compile.naming_of_classBody {t : Tree} {c : Config} {n : Node} {b : Model.ClassBody}
    {body : Compiled.ClassBody} (h : classBody t c n b = .ok body) :
    body.toNaming = nodeNaming n b.toNaming := by
  simp only [classBody, bind_ok_iff] at h
  obtain ⟨methods, -, classMethods, -, hbody⟩ := h
  cases hbody
  rfl

lemma Compile.properties_of_classBody {t : Tree} {c : Config} {n : Node} {b : Model.ClassBody}
    {body : Compiled.ClassBody} (h : classBody t c n b = .ok body) :
    body.properties = b.properties.map (property t c) := by
  simp only [classBody, bind_ok_iff] at h
  obtain ⟨methods, -, classMethods, -, hbody⟩ := h
  cases hbody
  rfl

end DomainDesign
