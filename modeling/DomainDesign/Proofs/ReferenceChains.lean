import DomainDesign.Proofs.Columns

/-!
# Columns that refer to references

A column that refers to another one gets the type of that one.  Where that one is a reference too,
the type of a column stands at the end of a chain of references, which may go through any number of
data objects, or lead nowhere: to a column that is not there, or around in a circle.

The compiler follows one reference.  So a column at the beginning of a longer chain is left with a
type that says *reference*, and not to what: `reference_left_over`.  `references_narrowed_once` says
how far narrowing goes.  `StandsFor t n p q` is what it ought to find: the column `q` at the end of
the `n` references that start at `p`.
-/

namespace DomainDesign.Compile

open Compiled

/-! ## Chains of references -/

/-- A column stands for the one at the end of `n` references, which is no reference itself. -/
inductive StandsFor (t : Tree) : (n : ℕ) → (p last : Model.DataProperty) → Prop
  | itself {p : Model.DataProperty} (noReference : p.type.kind ≠ .reference) : StandsFor t 0 p p
  | follow {n : ℕ} {p next last : Model.DataProperty} (leads : targetColumn? t p = some next)
      (further : StandsFor t n next last) : StandsFor t (n + 1) p last

variable {t : Tree} {c : Config} {p next last : Model.DataProperty} {n : ℕ}

/-- Only a reference leads anywhere. -/
lemma kind_of_targetColumn? (h : targetColumn? t p = some next) : p.type.kind = .reference := by
  rw [targetColumn?] at h
  split at h
  next htype => rw [htype, Storage.kind]
  · cases h

lemma kind_clearedDefault (s : Storage) : (clearedDefault s).kind = s.kind := by
  rw [← withoutEmptyDefault_eq]
  cases s <;> rfl

namespace StandsFor

lemma eq_zero_iff (h : StandsFor t n p last) : n = 0 ↔ p.type.kind ≠ .reference := by
  cases h with
  | itself noReference => simp [noReference]
  | follow leads further => simp [kind_of_targetColumn? leads]

/-- What a reference stands for is what the next column stands for. -/
lemma of_leads (h : StandsFor t n p last) (hleads : targetColumn? t p = some next) :
    ∃ m, n = m + 1 ∧ StandsFor t m next last := by
  cases h with
  | itself noReference => exact absurd (kind_of_targetColumn? hleads) noReference
  | @follow m _ _ _ leads further =>
      rw [hleads] at leads
      cases leads
      exact ⟨m, rfl, further⟩

lemma eq_of_zero (h : StandsFor t 0 p last) : last = p := by
  cases h
  rfl

/-- At the end of a chain there is no reference. -/
lemma kind_last_ne (h : StandsFor t n p last) : last.type.kind ≠ .reference := by
  induction h with
  | itself noReference => exact noReference
  | follow _ _ ih => exact ih

end StandsFor

/-! ## How far narrowing goes -/

/-- How the type of a compiled column comes from the declared one: one reference is followed, and
what is left of a longer chain is a reference to nothing. -/
structure NarrowedOf (t : Tree) (p : Model.DataProperty) (q : DataProperty) : Prop where
  chain : ∀ {n last}, StandsFor t n p last →
    q.storage.kind = if n ≤ 1 then last.type.kind else .reference
  nowhere : (∀ n last, ¬ StandsFor t n p last) → q.storage.kind = .reference
  bare : q.storage.kind = .reference → q.storage = .reference none none none

variable {q : DataProperty}

lemma narrowedOf_of_columnOf (h : ColumnOf t p q) : NarrowedOf t p q := by
  by_cases hkind : p.type.kind = .reference
  · obtain ⟨next, hleads, hstorage, hnarrow⟩ := h.narrowed hkind
    refine ⟨fun {n last} hlast => ?_, fun hnowhere => ?_, fun href => ?_⟩
    · obtain ⟨m, rfl, hfurther⟩ := hlast.of_leads hleads
      rw [hnarrow]
      by_cases hm : m = 0
      · subst hm
        rw [hfurther.eq_of_zero]
        rfl
      · rw [if_neg (by omega)]
        exact not_not.mp (mt hfurther.eq_zero_iff.mpr hm)
    · by_contra hother
      rw [hnarrow] at hother
      exact hnowhere 1 next (.follow hleads (.itself hother))
    · rw [hstorage, ← hnarrow, href]
      rfl
  · have hsame : q.storage.kind = p.type.kind := by
      rw [h.storage hkind, kind_clearedDefault]
    refine ⟨fun {n last} hlast => ?_, fun hnowhere => ?_, fun href => ?_⟩
    · obtain rfl : n = 0 := hlast.eq_zero_iff.mpr hkind
      rw [hlast.eq_of_zero, hsame]
      rfl
    · exact absurd (.itself hkind) (hnowhere 0 p)
    · rw [hsame] at href
      exact absurd href hkind

/-- A compiled column has a type of its own exactly if there is no more than one reference to
follow. -/
lemma NarrowedOf.kind_ne_iff (h : NarrowedOf t p q) :
    q.storage.kind ≠ .reference ↔ ∃ n ≤ 1, ∃ last, StandsFor t n p last := by
  constructor
  · intro hkind
    by_contra hfar
    push Not at hfar
    refine hkind (h.nowhere fun n last hlast => hkind ?_)
    rw [h.chain hlast, if_neg fun hn => hfar n hn last hlast]
  · rintro ⟨n, hn, last, hlast⟩
    rw [h.chain hlast, if_pos hn]
    exact hlast.kind_last_ne

/-- The columns of a compiled data object have the types that one reference leads to. -/
def TableNarrowed (t : Tree) (n : Node) (o : DataObject) : Prop :=
  ∃ d, Model.DataObject.ofJson? (.obj n.properties) = some d
    ∧ List.Forall₂ (NarrowedOf t) (d.properties.filter (isKept t)) o.properties

/-- No column of a data model is a reference. -/
def AllNarrowed (m : DataModel) : Prop :=
  ∀ o ∈ m.dataObjects, ∀ q ∈ o.properties, q.storage.kind ≠ .reference

instance (m : DataModel) : Decidable (AllNarrowed m) :=
  inferInstanceAs (Decidable (∀ o ∈ m.dataObjects, ∀ q ∈ o.properties, _))

/-- Every column that is kept stands for one that is at most one reference away. -/
def ChainsShort (t : Tree) : Prop :=
  ∀ n ∈ dataNodes t, ∀ d, Model.DataObject.ofJson? (.obj n.properties) = some d →
    ∀ p ∈ d.properties, isKept t p → ∃ k ≤ 1, ∃ last, StandsFor t k p last

lemma tables_narrowed {r : Report DataModel} (h : dataModel t c = .ok r) :
    List.Forall₂ (TableNarrowed t) (dataNodes t) r.result.dataObjects := by
  refine (tables_of_dataModel h).imp fun n o htable => ?_
  obtain ⟨d, hread, -, -, hcolumns, -⟩ := htable.content
  exact ⟨d, hread, hcolumns.imp fun p q => narrowedOf_of_columnOf⟩

lemma allNarrowed_iff {m : DataModel}
    (h : List.Forall₂ (TableNarrowed t) (dataNodes t) m.dataObjects) :
    AllNarrowed m ↔ ChainsShort t := by
  constructor
  · intro hall n hn d hread p hp hkept
    obtain ⟨o, ho, d', hread', hcolumns⟩ := exists_of_mem_right h.flip hn
    rw [hread] at hread'
    cases hread'
    obtain ⟨q, hq, hof⟩ := exists_of_mem_right hcolumns.flip (List.mem_filter.mpr ⟨hp, hkept⟩)
    exact hof.kind_ne_iff.mp (hall o ho q hq)
  · intro hshort o ho q hq
    obtain ⟨n, hn, d, hread, hcolumns⟩ := exists_of_mem_right h ho
    obtain ⟨p, hp, hof⟩ := exists_of_mem_right hcolumns hq
    obtain ⟨hp, hkept⟩ := List.mem_filter.mp hp
    exact hof.kind_ne_iff.mpr (hshort n hn d hread p hp hkept)

/-- **References are narrowed once.**  The type of a column is that of the column it stands for, if
that is itself or one reference away; at the beginning of a longer chain, or of one that leads
nowhere, it is a reference to nothing.  So no reference is left over exactly if all chains are
short. -/
theorem references_narrowed_once {r : Report DataModel} (h : dataModel t c = .ok r) :
    List.Forall₂ (TableNarrowed t) (dataNodes t) r.result.dataObjects
      ∧ (AllNarrowed r.result ↔ ChainsShort t) :=
  ⟨tables_narrowed h, allNarrowed_iff (tables_narrowed h)⟩

/-! ## A chain of two references -/

/-- What an invoice says about who pays. -/
def payer : Model.DataProperty :=
  { uuid := "i1", name := "payer", type := .toColumn "order" "o1" none }

/-- An invoice is paid by who bought the order, and an order is bought by a user. -/
def invoiceTables : Tree :=
  let table (id name : String) (column : Model.DataProperty) : Node :=
    Node.make id .dataObject
      (Model.DataObject.toJson { uuid := id, name, properties := [column] })
  .ofNodes "__ROOT__"
    [["invoice", "order", "user"].foldl Node.withChild (Node.make "__ROOT__" .root .null),
      table "invoice" "Invoice" payer,
      table "order" "Order" { uuid := "o1", name := "buyer", type := .toColumn "user" "u1" none },
      table "user" "User" { uuid := "u1", name := "login", type := .long none none }]

theorem references_narrowed_once_invoiceTables :
    ∃ r, dataModel invoiceTables {} = .ok r
      ∧ List.Forall₂ (TableNarrowed invoiceTables) (dataNodes invoiceTables) r.result.dataObjects
      ∧ ¬ ChainsShort invoiceTables := by
  have hkept : (dataModel invoiceTables {}).map (fun r => decide (AllNarrowed r.result))
      = .ok false := by decide +kernel
  obtain ⟨r, hr, hnot⟩ := map_ok_iff.mp hkept
  obtain ⟨htables, hiff⟩ := references_narrowed_once hr
  exact ⟨r, hr, htables, mt hiff.mpr (of_decide_eq_false hnot)⟩

/-- **A reference may be left over.**  The payer of an invoice stands for the login of a user, which
is a number, but is compiled to a reference. -/
theorem reference_left_over :
    (∃ r, dataModel invoiceTables {} = .ok r ∧ ¬ AllNarrowed r.result
        ∧ r.result.dataObjects.map (fun o => o.properties.map fun q => (q.name, q.storage))
          = [[("payer", .reference none none none)], [("buyer", .long none none)],
              [("login", .long none none)]])
      ∧ ∃ login, StandsFor invoiceTables 2 payer login ∧ login.type = .long none none := by
  constructor
  · have hkept : (dataModel invoiceTables {}).map (fun r => (decide (AllNarrowed r.result),
        r.result.dataObjects.map fun o => o.properties.map fun q => (q.name, q.storage)))
        = .ok (false, [[("payer", .reference none none none)], [("buyer", .long none none)],
            [("login", .long none none)]]) := by decide +kernel
    obtain ⟨r, hr, heq⟩ := map_ok_iff.mp hkept
    obtain ⟨hnot, hcolumns⟩ := Prod.mk.inj heq
    exact ⟨r, hr, of_decide_eq_false hnot, hcolumns⟩
  · refine ⟨{ uuid := "u1", name := "login", type := .long none none }, ?_, rfl⟩
    exact .follow (by with_unfolding_all rfl)
      (.follow (by with_unfolding_all rfl) (.itself (by decide)))

end DomainDesign.Compile
