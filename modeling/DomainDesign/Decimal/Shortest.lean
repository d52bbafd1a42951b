import DomainDesign.Decimal.Binary64

/-!
# The shortest decimal that reads back

Between a double-precision number and its neighbours lies an interval of reals that all round to it.
`Binary64.shortest` gives the decimal with the fewest digits inside that interval; of two with
equally many digits the nearer one, and of two equally near the one with the even last digit.

For each digit count the grid of decimals with that many digits has one point at or below the value
and one above it.  If any point of the grid lies in the interval then one of these two does, so
testing the two, grid after grid, finds the shortest decimal.  Seventeen digits always suffice.
-/

namespace DomainDesign

/-- The number `coefficient · 10 ^ exponent`. -/
structure Decimal where
  coefficient : Nat
  exponent : Int
deriving DecidableEq, Repr

namespace Decimal

/-- The largest `e` with `10 ^ e ≤ num / den`, for positive `num` and `den`. -/
def floorLog10 (num den : Nat) : Int :=
  if den ≤ num then (Binary64.digitCount (num / den) : Int) - 1
  else -(Binary64.digitCount ((den - 1) / num) : Int)

/-- The comparison of `a · 10 ^ g` with `b · 2 ^ q`, by clearing negative powers. -/
def compareScaled (a : Nat) (g : Int) (b : Nat) (q : Int) : Ordering :=
  compare (a * 10 ^ g.toNat * 2 ^ (-q).toNat) (b * 2 ^ q.toNat * 10 ^ (-g).toNat)

/-- Drops trailing zeros of the coefficient, at most `fuel` of them. -/
def stripZeros : (fuel : Nat) → Decimal → Decimal
  | 0, d => d
  | fuel + 1, d =>
    if d.coefficient % 10 = 0 then stripZeros fuel ⟨d.coefficient / 10, d.exponent + 1⟩ else d

/-- The decimal without trailing zeros. -/
def trimmed (d : Decimal) : Decimal :=
  stripZeros (Binary64.digitCount d.coefficient - 1) d

/-- The power of ten that the leading digit counts. -/
def leadingExponent (d : Decimal) : Int :=
  d.exponent + Binary64.digitCount d.coefficient - 1

end Decimal

namespace Binary64

open Decimal in
/-- The better of the two neighbours of `m · 2 ^ q` on the grid of multiples of `10 ^ g` that round
to it, if one does.  The interval is measured in quarters of `2 ^ q`, because below a power of two
the spacing halves. -/
def onGrid? (m : Nat) (q g : Int) : Option Nat :=
  let value := 4 * m
  let low := if m = 2 ^ 52 ∧ -1074 < q then value - 1 else value - 2
  let high := value + 2
  let quarter := q - 2
  let closed := m % 2 = 0
  let inside (c : Nat) : Bool :=
    let fromLow := compareScaled c g low quarter
    let fromHigh := compareScaled c g high quarter
    (fromLow == .gt && fromHigh == .lt) || (closed && (fromLow == .eq || fromHigh == .eq))
  let below := (m * 2 ^ q.toNat * 10 ^ (-g).toNat) / (10 ^ g.toNat * 2 ^ (-q).toNat)
  match inside below, inside (below + 1) with
  | false, false => none
  | true, false => some below
  | false, true => some (below + 1)
  | true, true =>
    match compareScaled (2 * below + 1) g (2 * m) q with
    | .gt => some below
    | .lt => some (below + 1)
    | .eq => some (below + below % 2)

/-- The shortest decimal for the magnitude of a finite non-zero number. -/
def shortest (x : Binary64) : Decimal :=
  let m := x.significand
  let q := x.exponent
  let lead := Decimal.floorLog10 (m * 2 ^ q.toNat) (2 ^ (-q).toNat)
  let found := (List.range 17).findSome? fun (extra : Nat) =>
    (onGrid? m q (lead - extra)).map fun c => (⟨c, lead - extra⟩ : Decimal)
  (found.getD ⟨m, 0⟩).trimmed

end Binary64

end DomainDesign
