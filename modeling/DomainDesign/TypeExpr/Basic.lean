import DomainDesign.Dict

/-!
# Type expressions

The types of properties, parameters and results.  A type is a base type by name, a container with
named parameters, or a reference to another object by id with a name for display.  A `List` and any
other container has the parameter `item`, a `Map` has `key` and `value`; a parameter may be there
without a type, and the parameters stand in key order.

* `render` — the text of a type, `List<Order>` or `Map<String, Long>`.
* `dependencies` — the ids a type refers to.
* `agrees` — equality of types that looks past display names.
* `mapReferencesM` — a type with every reference replaced, the replacements being made in order.
-/

namespace DomainDesign

/-- A type expression. -/
inductive TypeExpr where
  | base (name : String)
  | container (name : String) (params : List (String × Option TypeExpr))
  | reference (target : String) (name : String)
deriving Inhabited

/-- The first occurrence of each text. -/
def unique : List String → List String
  | [] => []
  | a :: rest => a :: (unique rest).filter (· ≠ a)

theorem mem_unique {a : String} {texts : List String} : a ∈ unique texts ↔ a ∈ texts := by
  induction texts with
  | nil => simp [unique]
  | cons b rest ih =>
      by_cases hab : a = b
      · simp [unique, hab]
      · simp [unique, hab, ih]

theorem nodup_unique (texts : List String) : (unique texts).Nodup := by
  induction texts with
  | nil => exact .nil
  | cons a rest ih =>
      rw [unique, List.nodup_cons]
      exact ⟨by simp, List.Pairwise.filter _ ih⟩

/-- A text at the end counts if it has not occurred before. -/
theorem unique_concat (texts : List String) (a : String) :
    unique (texts ++ [a]) = if a ∈ texts then unique texts else unique texts ++ [a] := by
  induction texts with
  | nil => rfl
  | cons b rest ih =>
      rw [List.cons_append, unique, unique, ih]
      by_cases hab : a = b
      · subst hab
        by_cases hrest : a ∈ rest <;> simp [hrest]
      · by_cases hrest : a ∈ rest <;> simp [hab, hrest]

namespace TypeExpr

/-! ## Equality -/

mutual

/-- Whether two types are the same. -/
def same : TypeExpr → TypeExpr → Bool
  | .base a, .base b => a == b
  | .container a ps, .container b qs => a == b && sameParams ps qs
  | .reference a n, .reference b m => a == b && n == m
  | _, _ => false

/-- Whether two lists of parameters are the same. -/
def sameParams : List (String × Option TypeExpr) → List (String × Option TypeExpr) → Bool
  | [], [] => true
  | (k, none) :: ps, (l, none) :: qs => k == l && sameParams ps qs
  | (k, some s) :: ps, (l, some t) :: qs => k == l && same s t && sameParams ps qs
  | _, _ => false

end

mutual

theorem same_iff : (a b : TypeExpr) → (same a b = true ↔ a = b)
  | .base _, b => by cases b <;> simp [same]
  | .container _ ps, b => by cases b <;> simp [same, sameParams_iff ps]
  | .reference _ _, b => by cases b <;> simp [same]

theorem sameParams_iff : (ps qs : List (String × Option TypeExpr)) →
    (sameParams ps qs = true ↔ ps = qs)
  | [], qs => by cases qs <;> simp [sameParams]
  | (_, none) :: ps, qs => by
    rcases qs with _ | ⟨⟨_, _ | _⟩, qs⟩ <;> simp [sameParams, sameParams_iff ps]
  | (_, some s) :: ps, qs => by
    rcases qs with _ | ⟨⟨_, _ | _⟩, qs⟩ <;> simp [sameParams, sameParams_iff ps, same_iff s]

end

instance : DecidableEq TypeExpr :=
  fun a b => decidable_of_iff _ (same_iff a b)

/-! ## Making types -/

/-- A container with one parameter. -/
def ofItem (name : String) (item : TypeExpr) : TypeExpr :=
  .container name [("item", some item)]

/-- A list. -/
def list (item : TypeExpr) : TypeExpr :=
  ofItem "List" item

/-- A set. -/
def set (item : TypeExpr) : TypeExpr :=
  ofItem "Set" item

/-- A map. -/
def map (key value : TypeExpr) : TypeExpr :=
  .container "Map" [("key", some key), ("value", some value)]

/-! ## Parts of a type -/

/-- The name a type goes by. -/
def name : TypeExpr → String
  | .base n => n
  | .container n _ => n
  | .reference _ n => n

/-- Whether a type is a base type. -/
def isBase : TypeExpr → Bool
  | .base _ => true
  | _ => false

/-- The id a reference refers to. -/
def target? : TypeExpr → Option String
  | .reference id _ => some id
  | _ => none

/-! ## Text -/

mutual

/-- The text of a type.  A parameter without a type is written as `void`, and a reference as what
`resolve` makes of its id and display name. -/
def render (void : String) (resolve : String → String → String) : TypeExpr → String
  | .base n => n
  | .container n params =>
    let texts := renderParams void resolve params
    let text (key : String) := (texts.lookup key).getD void
    if n = "Map" then "Map<" ++ text "key" ++ ", " ++ text "value" ++ ">"
    else n ++ "<" ++ text "item" ++ ">"
  | .reference id n => resolve id n

/-- The texts of the parameters. -/
def renderParams (void : String) (resolve : String → String → String) :
    List (String × Option TypeExpr) → List (String × String)
  | [] => []
  | (k, none) :: rest => (k, void) :: renderParams void resolve rest
  | (k, some t) :: rest => (k, render void resolve t) :: renderParams void resolve rest

end

/-- The text of a type that may be missing. -/
def render? (void : String) (resolve : String → String → String) : Option TypeExpr → String
  | none => void
  | some t => t.render void resolve

/-- The text of a type by display names. -/
def display (t : TypeExpr) : String :=
  t.render "Void" fun _ name => name

/-! ## Dependencies -/

mutual

/-- The ids a type refers to, each once, in order. -/
def dependencies : TypeExpr → List String
  | .base _ => []
  | .container n params =>
    let found := paramDependencies params
    let of (key : String) := (found.lookup key).getD []
    if n = "Map" then unique (of "key" ++ of "value") else of "item"
  | .reference id _ => [id]

/-- The ids each parameter refers to. -/
def paramDependencies : List (String × Option TypeExpr) → List (String × List String)
  | [] => []
  | (k, none) :: rest => (k, []) :: paramDependencies rest
  | (k, some t) :: rest => (k, dependencies t) :: paramDependencies rest

end

/-- The ids that a type refers to, if there is one. -/
def dependencies? : Option TypeExpr → List String
  | none => []
  | some t => t.dependencies

/-! ## Equality past display names -/

mutual

/-- Whether two types agree in everything but the display names of references. -/
def agrees : TypeExpr → TypeExpr → Bool
  | .base a, .base b => a == b
  | .container a ps, .container b qs => a == b && paramsAgree ps qs
  | .reference a _, .reference b _ => a == b
  | _, _ => false

/-- Whether two lists of parameters have the same keys and agree under each. -/
def paramsAgree : List (String × Option TypeExpr) → List (String × Option TypeExpr) → Bool
  | [], [] => true
  | (k, none) :: ps, (l, none) :: qs => k == l && paramsAgree ps qs
  | (k, some s) :: ps, (l, some t) :: qs => k == l && agrees s t && paramsAgree ps qs
  | _, _ => false

end

/-- Whether two types agree, or neither is there. -/
def agrees? : Option TypeExpr → Option TypeExpr → Bool
  | some a, some b => agrees a b
  | none, none => true
  | _, _ => false

/-! ## Replacing references -/

variable {m : Type → Type} [Monad m]

mutual

/-- The type with every reference replaced by what `f` gives for its id and display name.  The
parameters of a container are put together anew. -/
def mapReferencesM (f : String → String → m TypeExpr) : TypeExpr → m TypeExpr
  | .base n => pure (.base n)
  | .container n params => do
    let mapped ← mapParamsM f params
    pure (.container n (Dict.ofEntries mapped))
  | .reference id n => f id n

/-- The parameters with every reference replaced, in key order. -/
def mapParamsM (f : String → String → m TypeExpr) :
    List (String × Option TypeExpr) → m (List (String × Option TypeExpr))
  | [] => pure []
  | (k, none) :: rest => do
    let mapped ← mapParamsM f rest
    pure ((k, none) :: mapped)
  | (k, some t) :: rest => do
    let t' ← mapReferencesM f t
    let mapped ← mapParamsM f rest
    pure ((k, some t') :: mapped)

end

/-- As `mapReferencesM`, for a type that may be missing. -/
def mapReferencesM? (f : String → String → m TypeExpr) : Option TypeExpr → m (Option TypeExpr)
  | none => pure none
  | some t => do
    let t' ← mapReferencesM f t
    pure (some t')

end TypeExpr

end DomainDesign
