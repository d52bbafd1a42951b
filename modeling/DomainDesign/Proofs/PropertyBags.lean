import DomainDesign.Proofs.ModelCodec
import DomainDesign.Proofs.Reading

/-!
# Parts as the properties of a node

A part of a document is put into a tree as the properties of a node.  `Survives` says that nothing
of the part is lost on the way: its properties can be made, and every node that is given them is
read as that part, whatever its id and its kind.

Three things could get in the way, and `parts_survive` says for which parts they do not.  The kind
of the node is inserted among the properties, under a key that no part writes.  The parameters of a
type are a dictionary, which is read in key order: `Ordered` says that they stand in it.  A number
that is not finite has no place in JSON, so a default of a column has to be finite.
-/

namespace DomainDesign.Model

open Json

variable {α : Type} {ofJson? : Json → Option α} {toJson : α → Json} {a : α}

/-- The properties of a part can be made, and any node with them is read as the part. -/
def Survives (ofJson? : Json → Option α) (toJson : α → Json) (a : α) : Prop :=
  ∃ bag, toProperties (toJson a) = .ok bag
    ∧ ∀ id kind, (Node.make id kind (.obj bag)).read ofJson? = .ok a

lemma survives_of_shows {written : Fields} (hwrite : toJson a = .obj written)
    (h : ∀ fields, Shows fields (toJson a) → ofJson? (.obj fields) = some a) :
    Survives ofJson? toJson a := by
  have hsorted : (toJson a).sorted = .obj (Dict.ofEntries (sortedFields written)) := by
    rw [hwrite, sorted]
  refine ⟨_, by rw [toProperties, hsorted], fun id kind => ?_⟩
  exact Node.read_eq_ok.2 (h _ (shows_insert_kind hsorted _))

/-- **Every part survives as the properties of a node.** -/
theorem parts_survive :
    (∀ a, Survives Aggregation.ofJson? Aggregation.toJson a)
      ∧ (∀ e : Entity, e.toClassBody.Ordered → Survives Entity.ofJson? Entity.toJson e)
      ∧ (∀ v : ValueObject, v.toClassBody.Ordered →
          Survives ValueObject.ofJson? ValueObject.toJson v)
      ∧ (∀ d : Dto, d.toClassBody.Ordered → Survives Dto.ofJson? Dto.toJson d)
      ∧ (∀ e, Survives Enumeration.ofJson? Enumeration.toJson e)
      ∧ (∀ c : Command, c.Ordered → Survives Command.ofJson? Command.toJson c)
      ∧ (∀ r, Survives Rule.ofJson? Rule.toJson r)
      ∧ (∀ q : Query, q.Ordered → Survives Query.ofJson? Query.toJson q)
      ∧ (∀ d : DataObject, (∀ p ∈ d.properties, p.type.Finite) →
          Survives DataObject.ofJson? DataObject.toJson d)
      ∧ ∀ m, Survives MapperObject.ofJson? MapperObject.toJson m := by
  refine ⟨fun a => ?_, fun e he => ?_, fun v hv => ?_, fun d hd => ?_, fun e => ?_, fun c hc => ?_,
    fun r => ?_, fun q hq => ?_, fun d hd => ?_, fun m => ?_⟩
  · exact survives_of_shows rfl fun _ => Aggregation.ofJson?_of_shows
  · exact survives_of_shows rfl fun _ => Entity.ofJson?_of_shows he
  · exact survives_of_shows rfl fun _ => ValueObject.ofJson?_of_shows hv
  · exact survives_of_shows rfl fun _ => Dto.ofJson?_of_shows hd
  · exact survives_of_shows rfl fun _ => Enumeration.ofJson?_of_shows
  · exact survives_of_shows rfl fun _ => Command.ofJson?_of_shows hc
  · exact survives_of_shows rfl fun _ => Rule.ofJson?_of_shows
  · exact survives_of_shows rfl fun _ => Query.ofJson?_of_shows hq
  · exact survives_of_shows rfl fun _ => DataObject.ofJson?_of_shows hd
  · exact survives_of_shows rfl fun _ => MapperObject.ofJson?_of_shows

/-- The balances of a ledger by account, with one type left open. -/
def balances : Property :=
  { uuid := "balances", name := "balances", optional := some true,
    type := some (.container "Map" [("key", some (.reference "account" "Account")),
      ("value", some (.container "List" [("item", none)]))]) }

/-- A ledger, which can give out its balances. -/
def ledger : Entity :=
  { uuid := "ledger", name := "Ledger", idUuid := "balances", isAggregationRoot := true,
    metadata := some [⟨"owner", "books"⟩], properties := [balances],
    methods := [{ uuid := "report", name := "report", result := balances.type }] }

/-- The table of a ledger, with a fee of one tenth. -/
def ledgerTable : DataObject :=
  { uuid := "ledger-table", name := "ledger",
    properties := [
      { uuid := "fee", name := "fee", type := .decimal (some ⟨0x3fb999999999999a⟩) (some 10) none },
      { uuid := "owner", name := "owner",
        type := .reference (some "person") none (some .manyToOne) }] }

theorem parts_survive_ledger :
    (ledger.toClassBody.Ordered ∧ Survives Entity.ofJson? Entity.toJson ledger)
      ∧ (∀ p ∈ ledgerTable.properties, p.type.Finite)
        ∧ Survives DataObject.ofJson? DataObject.toJson ledgerTable := by
  have htype : TypeExpr.Ordered? balances.type := by
    rintro t ⟨⟩
    refine ⟨by decide, trivial, ⟨by decide, trivial⟩, trivial⟩
  have hledger : ledger.toClassBody.Ordered :=
    { properties := by simp [ledger, htype]
      methods := by
        simp only [ledger, List.mem_singleton, forall_eq]
        exact ⟨by simp, htype⟩
      classProperties := by simp [ledger]
      classMethods := by simp [ledger] }
  have htable : ∀ p ∈ ledgerTable.properties, p.type.Finite := by
    simp only [ledgerTable, List.forall_mem_cons, Storage.Finite, Option.some.injEq]
    refine ⟨?_, trivial, by simp⟩
    rintro x rfl
    decide
  exact ⟨⟨hledger, parts_survive.2.1 ledger hledger⟩,
    htable, parts_survive.2.2.2.2.2.2.2.2.1 ledgerTable htable⟩

end DomainDesign.Model
