import DomainDesign.Generate.Memo
import DomainDesign.IdSupply
import DomainDesign.Store

/-!
# Data transfer objects for a class

A data transfer object carries the properties of a class.  A property whose type refers to an entity
or a value object refers in the data transfer object to that of the entity or value object, which is
made when it is first needed; a reference to an enumeration becomes the base type of its codes.

The memo keeps what has been made.  A data transfer object is put there before its properties are,
so that a class may refer to itself or back to a class that refers to it.  Each class is entered
once, so `fuel` above the number of classes is enough; `Carrier.fuel` is.
-/

namespace DomainDesign

open Model

/-- The state of a generation: the source of ids, and what has been made. -/
structure Workshop (σ : Type := IdSupply) [IdSource σ] where
  ids : σ := IdSource.start
  memo : Memo Dto := {}

/-- A step of a generation that draws its ids from a source; its state is kept when it fails. -/
abbrev MakingFrom (σ : Type) [IdSource σ] := EStateM Error (Workshop σ)

/-- A step of a generation whose ids are counted. -/
abbrev Making := MakingFrom IdSupply

variable {σ : Type} [IdSource σ]

/-- Draws an id. -/
def Making.nextId : MakingFrom σ String :=
  modifyGet fun w => ((IdSource.next w.ids).1, { w with ids := (IdSource.next w.ids).2 })

namespace Carrier

/-- The type that refers to a data transfer object. -/
def reference (d : Dto) : TypeExpr :=
  .reference d.uuid d.name

/-- The data transfer object of a class, without properties yet. -/
def shell (uuid : String) (c : ClassBody) : Dto :=
  { uuid, name := c.name ++ "DTO",
    title := (Text.nonEmpty c.title).map (· ++ " data transfer object"),
    description := c.description }

/-- Fuel that is enough for the classes of a store and one more. -/
def fuel (store : Store) : Nat :=
  store.size + 1

/-- The type that carries a reference, where `make` gives the type that carries a class. -/
def carryReference (store : Store) (make : ClassBody → MakingFrom σ TypeExpr) (id : String) :
    MakingFrom σ TypeExpr :=
  match store.get? id with
  | none => throw (.unknownReference id)
  | some entry =>
    match entry.object with
    | .enumeration e => pure e.storageType
    | .valueObject v => make v.toClassBody
    | .entity e => make e.toClassBody
    | other => throw (.uncarriable id other.kind.name)

/-- The type that carries a type. -/
def carry (store : Store) (make : ClassBody → MakingFrom σ TypeExpr) (type : Option TypeExpr) :
    MakingFrom σ (Option TypeExpr) :=
  TypeExpr.mapReferencesM? (fun id _ => carryReference store make id) type

/-- Adds a property to the data transfer object that is made from the class with a uuid. -/
def addProperty (uuid : String) (p : Property) : MakingFrom σ Unit := do
  match (← get).memo.get? uuid with
  | none => throw (.lostDto uuid)
  | some _ =>
    modify fun w => { w with memo := w.memo.modify uuid fun d => ⟨d.toClassBody.withProperty p⟩ }

/-- Adds copies of the properties to the data transfer object that is made from the class with a
uuid. -/
def addProperties (store : Store) (make : ClassBody → MakingFrom σ TypeExpr) (uuid : String) :
    List Property → MakingFrom σ Unit
  | [] => pure ()
  | p :: rest => do
    let type ← carry store make p.type
    let id ← Making.nextId
    addProperty uuid { p with uuid := id, type }
    addProperties store make uuid rest

/-- The type that carries a class, whose data transfer object is made if there is none. -/
def make (store : Store) : (fuel : Nat) → ClassBody → MakingFrom σ TypeExpr
  | 0, c => do
    match (← get).memo.get? c.uuid with
    | some d => pure (reference d)
    | none => throw (.graphTooDeep c.uuid)
  | fuel + 1, c => do
    match (← get).memo.get? c.uuid with
    | some d => pure (reference d)
    | none =>
      let id ← Making.nextId
      let d := shell id c
      let (saved, memo) := (← get).memo.save c.uuid d
      modify fun w => { w with memo }
      discard (MonadExcept.ofExcept saved)
      addProperties store (make store fuel) c.uuid c.properties
      pure (reference d)

/-- The type that carries a class of, or beside, a store. -/
def ofClass (store : Store) (c : ClassBody) : MakingFrom σ TypeExpr :=
  make store (fuel store) c

/-- The type that carries a type over a store. -/
def ofType (store : Store) (type : TypeExpr) : MakingFrom σ TypeExpr :=
  TypeExpr.mapReferencesM (fun id _ => carryReference store (ofClass store) id) type

end Carrier

end DomainDesign
