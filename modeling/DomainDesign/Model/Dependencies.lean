import DomainDesign.Model.Behaviour

/-!
# What a part refers to

An object is associated with what its properties refer to, and depends on what only its methods, or
its result, refer to.
-/

namespace DomainDesign.Model

/-- The ids that properties refer to, each once, in order. -/
def propertyDependencies (ps : List Property) : List String :=
  unique (ps.flatMap fun p => TypeExpr.dependencies? p.type)

/-- The ids that parameters refer to, each once, in order. -/
def parameterDependencies (ps : List Parameter) : List String :=
  unique (ps.flatMap fun p => TypeExpr.dependencies? p.type)

/-- The ids that the parameters and results of methods refer to, each once, in order. -/
def methodDependencies (ms : List Method) : List String :=
  unique (ms.flatMap fun m =>
    parameterDependencies m.parameters ++ TypeExpr.dependencies? m.result)

/-- The ids that an object refers to, told apart by how. -/
structure Dependencies where
  dependencies : List String := []
  associations : List String := []
deriving DecidableEq, Inhabited, Repr

/-- All ids that an object refers to. -/
def Dependencies.all (d : Dependencies) : List String :=
  d.associations ++ d.dependencies

/-- Adds an id as a dependency, unless it is an association or a dependency already. -/
def Dependencies.add (d : Dependencies) (id : String) : Dependencies :=
  if d.associations.contains id || d.dependencies.contains id then d
  else { d with dependencies := d.dependencies ++ [id] }

/-- The associations, and the other ids added one after the other. -/
def Dependencies.of (associations others : List String) : Dependencies :=
  others.foldl add { associations }

/-- What is added is what is no association, each id once and in order. -/
theorem Dependencies.add_unique (associations before : List String) (id : String) :
    add { associations, dependencies := (unique before).filter (· ∉ associations) } id
      = { associations, dependencies := (unique (before ++ [id])).filter (· ∉ associations) } := by
  rw [unique_concat]
  by_cases hheld : id ∈ associations
  · by_cases hbefore : id ∈ before <;> simp [add, hheld, hbefore]
  · by_cases hbefore : id ∈ before <;> simp [add, hheld, hbefore, mem_unique]

theorem Dependencies.of_eq (associations others : List String) :
    of associations others
      = { associations, dependencies := (unique others).filter (· ∉ associations) } := by
  suffices hgen : ∀ rest before : List String,
      rest.foldl add { associations, dependencies := (unique before).filter (· ∉ associations) }
        = { associations, dependencies := (unique (before ++ rest)).filter (· ∉ associations) } from
    hgen others []
  intro rest
  induction rest with
  | nil => intro before; simp
  | cons id rest ih =>
      intro before
      rw [List.foldl_cons, add_unique, ih, List.append_assoc, List.singleton_append]

@[simp] theorem Dependencies.associations_of (associations others : List String) :
    (of associations others).associations = associations := by
  rw [of_eq]

/-- What a class refers to. -/
def ClassBody.dependencies (c : ClassBody) : Dependencies :=
  .of (unique (propertyDependencies c.properties ++ propertyDependencies c.classProperties))
    (methodDependencies c.methods ++ methodDependencies c.classMethods)

/-- What a command is associated with. -/
def Command.associations (c : Command) : List String :=
  unique (propertyDependencies c.properties ++ propertyDependencies c.eventProperties)

/-- What a query refers to. -/
def Query.dependencies (q : Query) : Dependencies :=
  .of (propertyDependencies q.properties) (TypeExpr.dependencies? q.result)

end DomainDesign.Model
