import DomainDesign.Text.Hex

/-!
# Fresh ids

Everything that makes new objects draws their ids from a source, one after the other.  An `IdSource`
may have any state, and nothing is asked of the ids that it gives.

There are two.  An `IdSupply` counts: the ids are its label, a hyphen, and the numbers from one on,
so the order of drawing shows in them.  `RandomIds` gives the hexadecimal texts of 128 bits of which
six say that the others are random (`Uuid.ofBits`).
-/

namespace DomainDesign

/-- A source of ids, by its states: the one it starts in, and what drawing an id gives. -/
class IdSource (σ : Type) where
  start : σ
  next : σ → String × σ

/-- A supply of ids: their label, and how many have been drawn. -/
structure IdSupply where
  label : String := "id"
  issued : Nat := 0
deriving DecidableEq, Inhabited, Repr

namespace IdSupply

/-- The `n`-th id with a label. -/
def idAt (label : String) (n : Nat) : String :=
  label ++ "-" ++ toString n

/-- Draws an id. -/
def next (s : IdSupply) : String × IdSupply :=
  (idAt s.label (s.issued + 1), { s with issued := s.issued + 1 })

/-- Draws `n` ids, one after the other. -/
def take : (n : Nat) → IdSupply → List String × IdSupply
  | 0, s => ([], s)
  | n + 1, s =>
    let (id, s) := s.next
    let (ids, s) := take n s
    (id :: ids, s)

@[default_instance]
instance : IdSource IdSupply := ⟨{}, next⟩

end IdSupply

namespace Uuid

/-- The id of 128 random bits: the thirteenth digit is the version, the top bits of the seventeenth
the variant. -/
def ofBits (n : Nat) : String :=
  let variant := Text.hexDigit (8 + n / 16 ^ 15 % 4)
  String.ofList (Text.hexDigits 8 (n / 16 ^ 24) ++ '-' :: Text.hexDigits 4 (n / 16 ^ 20)
    ++ '-' :: '4' :: Text.hexDigits 3 (n / 16 ^ 16)
    ++ '-' :: variant :: Text.hexDigits 3 (n / 16 ^ 12) ++ '-' :: Text.hexDigits 12 n)

end Uuid

/-- Random ids, by the bits of those that are still to come. -/
structure RandomIds where
  bits : Nat → Nat := fun _ => 0

instance : IdSource RandomIds where
  start := {}
  next s := (Uuid.ofBits (s.bits 0), ⟨fun n => s.bits (n + 1)⟩)

end DomainDesign
