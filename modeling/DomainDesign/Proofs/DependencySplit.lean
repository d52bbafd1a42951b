import DomainDesign.Model.Dependencies
import DomainDesign.Proofs.FirstOccurrences
import Mathlib.Data.List.Nodup

/-!
# What objects hold, and what they only use

The ids that a class refers to are collected in steps: those of a type, of the parameters of a
method, of a method, of all methods, of the class.  Each step drops repetitions, and in the end the
ids of the methods are added one by one to those of the properties, unless they are there already.

`dependencies_split` says what comes out, without the steps.  `idsIn` lists the ids of types with
all repetitions, and the associations and the dependencies are the first occurrences in such lists.

**Collecting.**  `unique_methodDependencies` and its like say that the repetitions dropped on the
way make no difference to those dropped at the end.

**Adding.**  `splits_of` says what adding the ids one by one leads to, for any object.
-/

namespace DomainDesign.Model

/-! ## The types of an object -/

/-- The ids that types refer to, type by type. -/
def idsIn (types : List (Option TypeExpr)) : List String :=
  types.flatMap TypeExpr.dependencies?

/-- The types of the parameters of a method, and of its result. -/
def Method.types (m : Method) : List (Option TypeExpr) :=
  m.parameters.map (·.type) ++ [m.result]

/-- The types of the properties of a class: those of its objects, then its own. -/
def ClassBody.propertyTypes (b : ClassBody) : List (Option TypeExpr) :=
  (b.properties ++ b.classProperties).map (·.type)

/-- The types of the methods of a class: those of its objects, then its own. -/
def ClassBody.methodTypes (b : ClassBody) : List (Option TypeExpr) :=
  (b.methods ++ b.classMethods).flatMap Method.types

/-- The ids of an object are split between those of the types that it holds and those that are in
the types that it uses only. -/
structure Dependencies.Splits (d : Dependencies) (held used : List (Option TypeExpr)) : Prop where
  associations : FirstOccurrences (idsIn held) d.associations
  dependencies : FirstOccurrences ((idsIn used).filter (· ∉ d.associations)) d.dependencies
  disjoint : d.associations.Disjoint d.dependencies
  nodup_all : d.all.Nodup
  mem_all : ∀ id, id ∈ d.all ↔ ∃ type ∈ held ++ used, id ∈ TypeExpr.dependencies? type

/-! ## Collecting -/

lemma idsIn_append (types types' : List (Option TypeExpr)) :
    idsIn (types ++ types') = idsIn types ++ idsIn types' :=
  List.flatMap_append

lemma propertyDependencies_eq (ps : List Property) :
    propertyDependencies ps = unique (idsIn (ps.map (·.type))) := by
  rw [propertyDependencies, idsIn, List.flatMap_map]

lemma parameterDependencies_eq (ps : List Parameter) :
    parameterDependencies ps = unique (idsIn (ps.map (·.type))) := by
  rw [parameterDependencies, idsIn, List.flatMap_map]

lemma unique_methodDependencies (ms : List Method) :
    unique (methodDependencies ms) = unique (idsIn (ms.flatMap Method.types)) := by
  rw [methodDependencies, unique_unique, idsIn, List.flatMap_assoc]
  refine unique_flatMap_congr fun m _ => ?_
  -- within one method the ids of the parameters have been made unique already
  show unique (_ ++ _) = unique (idsIn m.types)
  rw [Method.types, idsIn_append, parameterDependencies_eq]
  refine unique_append_congr (unique_unique _) ?_
  simp [idsIn]

/-! ## Adding -/

variable {held used : List (Option TypeExpr)}

/-- **What an object is split into**, where `others` has the ids of the types that it uses, with
whatever repetitions. -/
lemma Dependencies.splits_of {others : List String} (h : unique others = unique (idsIn used)) :
    (Dependencies.of (unique (idsIn held)) others).Splits held used := by
  rw [of_eq, h, filter_unique]
  have hheld := firstOccurrences_unique (idsIn held)
  have hused := firstOccurrences_unique ((idsIn used).filter (· ∉ unique (idsIn held)))
  have hdisjoint : (unique (idsIn held)).Disjoint
      (unique ((idsIn used).filter (· ∉ unique (idsIn held)))) := by
    intro id hid hother
    have hnew := (List.mem_filter.mp ((hused.mem_iff id).mp hother)).2
    simp [hid] at hnew
  refine ⟨hheld, hused, hdisjoint, hheld.nodup.append hused.nodup hdisjoint, fun id => ?_⟩
  have hmem : ∀ types : List (Option TypeExpr),
      id ∈ idsIn types ↔ ∃ type ∈ types, id ∈ TypeExpr.dependencies? type :=
    fun types => List.mem_flatMap
  rw [← hmem, idsIn_append, all, List.mem_append, List.mem_append, hheld.mem_iff, hused.mem_iff]
  by_cases hid : id ∈ idsIn held <;> simp [hid, mem_unique]

/-- **The ids that an object refers to are split exactly.**  The associations are the ids of the
properties, and the dependencies are the ids of the methods, or of the result of a query, that are
no associations; each id is listed once, where it first comes up.  So no id is in both lists, and
together they have the ids of all types of the object. -/
theorem dependencies_split :
    (∀ b : ClassBody, b.dependencies.Splits b.propertyTypes b.methodTypes)
      ∧ ∀ q : Query, q.dependencies.Splits (q.properties.map (·.type)) [q.result] := by
  constructor
  · intro b
    have hheld :
        unique (propertyDependencies b.properties ++ propertyDependencies b.classProperties)
          = unique (idsIn b.propertyTypes) := by
      rw [ClassBody.propertyTypes, List.map_append, idsIn_append, propertyDependencies_eq,
        propertyDependencies_eq]
      exact unique_append_congr (unique_unique _) (unique_unique _)
    have hused : unique (methodDependencies b.methods ++ methodDependencies b.classMethods)
        = unique (idsIn b.methodTypes) := by
      rw [ClassBody.methodTypes, List.flatMap_append, idsIn_append]
      exact unique_append_congr (unique_methodDependencies _) (unique_methodDependencies _)
    rw [ClassBody.dependencies, hheld]
    exact Dependencies.splits_of hused
  · intro q
    rw [Query.dependencies, propertyDependencies_eq]
    refine Dependencies.splits_of ?_
    simp [idsIn]

/-- A method that uses what its class holds, and more. -/
example : ClassBody.dependencies
    { uuid := "order", name := "Order"
      properties := [.of "p1" "lines" (.list (.reference "line" "Line"))]
      methods :=
        [{ uuid := "m1", name := "merge"
           parameters := [.of "a1" "others" (.map (.reference "key" "") (.reference "line" ""))]
           result := some (.reference "key" "Key") }] }
      = { associations := ["line"], dependencies := ["key"] } := by
  decide +kernel

end DomainDesign.Model
