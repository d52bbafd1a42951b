import DomainDesign.Config
import DomainDesign.Model.Class
import DomainDesign.Storage.Projection
import DomainDesign.Text.LowerCase
import DomainDesign.Text.Similarity

/-!
# Finding the column for a property

Properties are mapped to columns whose names are alike and whose types fit.  The columns are ranked
by the likeness of their names, best first and in their own order where the likeness is the same,
and the first one that fits is taken.

Ranking needs only that scores can be put in order, so it is stated for any `Ranking`.
`Ranking.ofLikeness` is the one that the settings choose for a measure of likeness, and
`Ranking.ofConfig` that for the measure in use.
-/

namespace DomainDesign

/-- A way to score names. -/
structure Ranking (σ : Type) where
  /-- The form in which names are compared. -/
  form : String → String
  /-- The score of a name for a query, both in their form. -/
  score : (query name : String) → σ
  /-- Whether a score is high enough. -/
  isEnough : σ → Bool
  /-- Whether a score comes before another one or beside it, the best coming first. -/
  atLeast : σ → σ → Bool

/-- The place of a score in the total order of floats: that of its word, the negative ones backwards
and before the others. -/
def scorePlace (score : Float) : Int :=
  let word := score.toBits.toNat
  if word < 2 ^ 63 then word else 2 ^ 63 - 1 - word

/-- The form in which the settings compare names. -/
def AutoMapConfig.form (c : AutoMapConfig) : String → String :=
  if c.caseInsensitive then Text.lowerCase else id

/-- The ranking by a measure of likeness that the settings choose.  Whether a score is enough is a
question of numbers; the order of the scores is the total one. -/
def Ranking.ofLikeness (likeness : (query name : String) → Float) (c : AutoMapConfig) :
    Ranking Float where
  form := c.form
  score := likeness
  isEnough := fun score => c.threshold.toFloat ≤ score
  atLeast := fun a b => scorePlace b ≤ scorePlace a

/-- The ranking that the settings choose. -/
def Ranking.ofConfig (c : AutoMapConfig) : Ranking Float :=
  .ofLikeness Text.likeness c

/-- A name that was found, by its place in the list of names, with its score. -/
structure NameMatch (σ : Type) where
  index : Nat
  score : σ

/-- Names to be found, each with its place in the list it comes from and in the form of a
ranking. -/
structure NameIndex where
  entries : List (Nat × String)

namespace NameIndex

variable {σ : Type}

/-- The index of names; an empty name cannot be found. -/
def ofNames (r : Ranking σ) (names : List String) : NameIndex :=
  ⟨(names.zipIdx.filter fun e => !e.1.isEmpty).map fun e => (e.2, r.form e.1)⟩

/-- How many names can be found. -/
def size (i : NameIndex) : Nat :=
  i.entries.length

/-- The names that are enough like a query, best first. -/
def search (r : Ranking σ) (i : NameIndex) (query : String) : List (NameMatch σ) :=
  let scored := i.entries.map fun e => (⟨e.1, r.score (r.form query) e.2⟩ : NameMatch σ)
  (scored.filter fun m => r.isEnough m.score).mergeSort fun a b => r.atLeast a.score b.score

end NameIndex

/-- The column for a property. -/
def bestColumn? {σ : Type} (r : Ranking σ) (i : NameIndex) (resolve : String → Option TypeExpr)
    (columns : List Model.DataProperty) (p : Model.Property) : Option Model.DataProperty :=
  if p.name.isEmpty then none
  else p.type.bind fun type =>
    ((i.search r p.name).filterMap fun m => columns[m.index]?).find? fun column =>
      isCompatible resolve type column.type

/-- Maps the uuids of properties to the uuids of the columns found for them. -/
def autoMap {σ : Type} (r : Ranking σ) (resolve : String → Option TypeExpr)
    (properties : List Model.Property) (columns : List Model.DataProperty) : Dict String :=
  let i := NameIndex.ofNames r (columns.map (·.name))
  Dict.ofEntries (properties.filterMap fun p =>
    (bestColumn? r i resolve columns p).map fun column => (p.uuid, column.uuid))

end DomainDesign
