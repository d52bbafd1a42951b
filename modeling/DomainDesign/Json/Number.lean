import DomainDesign.Decimal.Layout
import DomainDesign.Json.Basic

/-!
# Number literals

A literal without fraction and exponent is a whole number while it fits sixty-four bits, signed or
unsigned; `-0` and every other literal is a double.

A double is read in two roundings.  The leading digits that fit an unsigned sixty-four-bit word are
rounded to a double, and that double is then multiplied or divided by the double nearest to the
power of ten.  Powers beyond `10 ^ 308` are divided off in steps; a product beyond the largest
double is no number.
-/

namespace DomainDesign

/-- The double nearest to the product of two finite doubles, taken as positive. -/
def Binary64.times (x y : Binary64) : Binary64 :=
  let q := x.exponent + y.exponent
  .ofMagnitude false
    (nearestMagnitude (x.significand * y.significand * 2 ^ q.toNat) (2 ^ (-q).toNat))

/-- The double nearest to the quotient of two finite doubles, taken as positive; the divisor is not
zero. -/
def Binary64.over (x y : Binary64) : Binary64 :=
  let q := x.exponent - y.exponent
  .ofMagnitude false
    (nearestMagnitude (x.significand * 2 ^ q.toNat) (y.significand * 2 ^ (-q).toNat))

namespace Json.Number

/-- The largest unsigned word. -/
def wordMax : Nat :=
  2 ^ 64 - 1

/-- The value of a digit character. -/
def digit (c : Char) : Nat :=
  c.toNat - '0'.toNat

/-- Appends digits while the number fits a word.  The second component counts the digits taken. -/
def takeDigits : (significand taken : Nat) → List Char → Nat × Nat
  | significand, taken, [] => (significand, taken)
  | significand, taken, c :: rest =>
    let longer := significand * 10 + digit c
    if longer ≤ wordMax then takeDigits longer (taken + 1) rest else (significand, taken)

/-- The natural number a list of digits writes. -/
def natOfDigits (ds : List Char) : Nat :=
  ds.foldl (fun n c => n * 10 + digit c) 0

/-- `x / 10 ^ down`, in steps of at most `10 ^ 308`; zero needs no further step. -/
def scaleDown : (steps : Nat) → Binary64 → (down : Nat) → Binary64
  | 0, x, _ => x
  | steps + 1, x, down =>
    if down ≤ 308 then x.over (.ofDecimal false (10 ^ down) 0)
    else if x.magnitude = 0 then x
    else scaleDown steps (x.over (.ofDecimal false (10 ^ 308) 0)) (down - 308)

/-- `x · 10 ^ up`, unless that is beyond the largest double. -/
def scaleUp? (x : Binary64) (up : Nat) : Option Binary64 :=
  if up ≤ 308 then
    let product := x.times (.ofDecimal false (10 ^ up) 0)
    if product.isFinite then some product else none
  else if x.magnitude = 0 then some x
  else none

/-- The double written by a significand and a power of ten. -/
def scaled? (negative : Bool) (significand : Nat) (exponent : Int) : Option Binary64 :=
  let x := Binary64.ofDecimal false significand 0
  let magnitude :=
    if 0 ≤ exponent then scaleUp? x exponent.toNat
    else some (scaleDown 5 x (min (-exponent).toNat 1400))
  magnitude.map fun y => if negative then y.negate else y

/-- The parts of a number literal. -/
structure Literal where
  negative : Bool
  whole : List Char
  fraction : List Char
  /-- The sign of the exponent, true for minus, and its digits. -/
  exponent : Option (Bool × List Char)

/-- The number a literal writes, if it is within range. -/
def ofLiteral? (l : Literal) : Option Number :=
  let plain := l.fraction.isEmpty && l.exponent.isNone
  let value := natOfDigits l.whole
  if plain && !l.negative && value ≤ wordMax then some (.int value)
  else if plain && l.negative && 0 < value && value ≤ 2 ^ 63 then some (.int (-value))
  else
    let (significand, taken) := takeDigits 0 0 l.whole
    let (significand, places) := takeDigits significand 0 l.fraction
    let written : Int :=
      match l.exponent with
      | none => 0
      | some (true, ds) => -(natOfDigits ds : Int)
      | some (false, ds) => natOfDigits ds
    (scaled? l.negative significand ((l.whole.length - taken : Nat) - (places : Int) + written)).map
      .float

/-- The parts of a literal: a sign, digits without a superfluous zero, then a fraction and an
exponent with at least one digit each, if they are there. -/
def literal? (cs : List Char) : Option Literal :=
  let (negative, cs) := match cs with
    | '-' :: rest => (true, rest)
    | rest => (false, rest)
  let whole := cs.takeWhile Char.isDigit
  let cs := cs.dropWhile Char.isDigit
  let (fraction?, cs) := match cs with
    | '.' :: rest => (some (rest.takeWhile Char.isDigit), rest.dropWhile Char.isDigit)
    | rest => (none, rest)
  let exponent? : Option (Option (Bool × List Char)) := match cs with
    | [] => some none
    | e :: rest =>
      if e == 'e' || e == 'E' then
        let (minus, ds) := match rest with
          | '-' :: ds => (true, ds)
          | '+' :: ds => (false, ds)
          | ds => (false, ds)
        if !ds.isEmpty && ds.all Char.isDigit then some (some (minus, ds)) else none
      else none
  if whole.isEmpty || (whole.length != 1 && whole.head? == some '0') || fraction? == some [] then
    none
  else exponent?.map fun exponent => ⟨negative, whole, fraction?.getD [], exponent⟩

/-- The text of a number. -/
def render : Number → String
  | .int i => if i < 0 then "-" ++ toString i.natAbs else toString i.natAbs
  | .float x => x.render .json

/-- The number as a double. -/
def toFloat : Number → Binary64
  | .int i => Binary64.ofInt i
  | .float x => x

end Json.Number

end DomainDesign
