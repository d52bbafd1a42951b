import DomainDesign.Power

/-!
# Double-precision numbers as words

A number with a fraction is held as its 64-bit word: the sign in bit 63, eleven bits of biased
exponent, fifty-two bits of fraction.  Holding the word rather than a machine float keeps equality
decidable, tells `0.0` from `-0.0`, and lets every reading and writing of a number be arithmetic on
`Nat`.

* `Binary64.ofDecimal` — the word nearest to `digits · 10 ^ exponent`, a tie going to the even
  significand.  It is the one place where a decimal text becomes a number.
* `significand` and `exponent` — a finite word as `significand · 2 ^ exponent`, which is what the
  decimal printer in `Decimal.Shortest` starts from.
-/

namespace DomainDesign

/-- A double-precision number, held as its word. -/
structure Binary64 where
  word : UInt64
deriving DecidableEq, Inhabited, Repr

namespace Binary64

/-! ## The fields of a word -/

/-- The sign bit. -/
def negative (x : Binary64) : Bool :=
  x.word.toNat / 2 ^ 63 % 2 == 1

/-- The biased exponent. -/
def field (x : Binary64) : Nat :=
  x.word.toNat / 2 ^ 52 % 2 ^ 11

/-- The trailing significand. -/
def fraction (x : Binary64) : Nat :=
  x.word.toNat % 2 ^ 52

/-- The word without its sign. -/
def magnitude (x : Binary64) : Nat :=
  x.word.toNat % 2 ^ 63

/-- Neither an infinity nor a NaN. -/
def isFinite (x : Binary64) : Bool :=
  x.field != 2047

/-- Not a number. -/
def isNaN (x : Binary64) : Bool :=
  x.field == 2047 && x.fraction != 0

/-- The integral significand, with the hidden bit of a normal number. -/
def significand (x : Binary64) : Nat :=
  if x.field = 0 then x.fraction else 2 ^ 52 + x.fraction

/-- The power of two that the significand counts. -/
def exponent (x : Binary64) : Int :=
  (max x.field 1 : Nat) - 1075

/-- The machine float with this word. -/
def toFloat (x : Binary64) : Float :=
  Float.ofBits x.word

/-! ## The nearest word to a rational number -/

/-- `num / den` rounded to a whole number, a half going to the even neighbour. -/
def roundHalfEven (num den : Nat) : Nat :=
  let quotient := num / den
  let rest := num % den
  if 2 * rest < den then quotient
  else if den < 2 * rest then quotient + 1
  else quotient + quotient % 2

/-- The largest `e` with `2 ^ e ≤ num / den`, for positive `num` and `den`. -/
def floorLog2 (num den : Nat) : Int :=
  let guess : Int := (num.log2 : Int) - den.log2
  let reached :=
    if 0 ≤ guess then den * 2 ^ guess.toNat ≤ num else den ≤ num * 2 ^ (-guess).toNat
  if reached then guess else guess - 1

/-- The magnitude word of an infinity, which every finite magnitude is below. -/
def infinityWord : Nat :=
  2047 * 2 ^ 52

/-- The magnitude word nearest to `num / den`.  The significand is added to the exponent field
rather than masked into it, so a significand that rounds up to the next power of two carries into
the exponent by itself. -/
def nearestMagnitude (num den : Nat) : Nat :=
  if num = 0 then 0
  else
    let shift : Int := max (floorLog2 num den - 52) (-1074)
    let rounded :=
      if 0 ≤ shift then roundHalfEven num (den * 2 ^ shift.toNat)
      else roundHalfEven (num * 2 ^ (-shift).toNat) den
    min ((shift + 1074).toNat * 2 ^ 52 + rounded) infinityWord

/-- The number with this sign and magnitude word. -/
def ofMagnitude (negative : Bool) (magnitude : Nat) : Binary64 :=
  ⟨UInt64.ofNat (if negative then magnitude + 2 ^ 63 else magnitude)⟩

/-- How many decimal digits a natural number has. -/
def digitCount (n : Nat) : Nat :=
  (Nat.toDigits 10 n).length

/-- The number nearest to `digits · 10 ^ exponent`.  A number with a leading digit beyond `10 ^ 310`
is infinite and one below `10 ^ -326` is zero; deciding these first keeps the powers of ten
small. -/
def ofDecimal (negative : Bool) (digits : Nat) (exponent : Int) : Binary64 :=
  let reach : Int := digitCount digits + exponent
  let magnitude :=
    if digits = 0 then 0
    else if 310 < reach then infinityWord
    else if reach < -326 then 0
    else if 0 ≤ exponent then nearestMagnitude (digits * 10 ^ exponent.toNat) 1
    else nearestMagnitude digits (10 ^ (-exponent).toNat)
  ofMagnitude negative magnitude

/-- The number nearest to an integer. -/
def ofInt (i : Int) : Binary64 :=
  ofDecimal (i < 0) i.natAbs 0

/-- Zero. -/
def zero : Binary64 :=
  ⟨0⟩

/-- Positive infinity. -/
def infinity : Binary64 :=
  ofMagnitude false infinityWord

/-- The canonical NaN. -/
def nan : Binary64 :=
  ofMagnitude false (infinityWord + 2 ^ 51)

/-- The number with its sign turned. -/
def negate (x : Binary64) : Binary64 :=
  ofMagnitude (!x.negative) x.magnitude

/-- Between zero and one, both included; `-0.0` counts as zero. -/
def inUnitInterval (x : Binary64) : Bool :=
  x.magnitude == 0 || (!x.negative && x.magnitude ≤ 1023 * 2 ^ 52)

end Binary64

end DomainDesign
