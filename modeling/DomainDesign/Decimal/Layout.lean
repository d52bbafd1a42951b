import DomainDesign.Decimal.Shortest

/-!
# Writing a number

The digits of a number are settled by `Binary64.shortest`; a `Layout` settles how they are set out:
where positional notation ends, and whether a whole number keeps a point.

* `Layout.json` — the layout of numbers in JSON text.  Positional while the leading digit counts
  between `10 ^ -5` and `10 ^ 15`, always with a digit after the point; otherwise one digit before
  the point and a signed exponent.
* `Layout.plain` — the layout of numbers in messages.  Always positional, whole numbers without a
  point.
-/

namespace DomainDesign

/-- How the digits of a number are set out. -/
structure Layout where
  /-- Whether a number whose leading digit counts `10 ^ e` is written without an exponent. -/
  positional : Int → Bool
  /-- Whether a whole number is written with `.0`. -/
  keepsPoint : Bool

namespace Layout

/-- Numbers in JSON text. -/
def json : Layout :=
  ⟨fun e => -5 ≤ e && e ≤ 15, true⟩

/-- Numbers in messages. -/
def plain : Layout :=
  ⟨fun _ => true, false⟩

/-- `n` zeros. -/
def zeros (n : Nat) : List Char :=
  List.replicate n '0'

/-- The digits with the point set where the leading digit counts `10 ^ e`. -/
def positionalText (keepsPoint : Bool) (digits : List Char) (e : Int) : List Char :=
  if e < 0 then '0' :: '.' :: zeros (-e - 1).toNat ++ digits
  else
    let whole := e.toNat + 1
    if whole < digits.length then digits.take whole ++ '.' :: digits.drop whole
    else digits ++ zeros (whole - digits.length) ++ (if keepsPoint then ['.', '0'] else [])

/-- The digits with the point after the first, and a signed exponent. -/
def scientificText (digits : List Char) (e : Int) : List Char :=
  let mantissa :=
    match digits with
    | first :: second :: rest => first :: '.' :: second :: rest
    | short => short
  mantissa ++ 'e' :: (if e < 0 then '-' else '+') :: Nat.toDigits 10 e.natAbs

/-- The text of a decimal without its sign. -/
def decimalText (layout : Layout) (d : Decimal) : List Char :=
  let digits := Nat.toDigits 10 d.coefficient
  let e := d.leadingExponent
  if layout.positional e then positionalText layout.keepsPoint digits e else scientificText digits e

end Layout

/-- The text of a number. -/
def Binary64.render (layout : Layout) (x : Binary64) : String :=
  if x.isNaN then "NaN"
  else
    let magnitude :=
      if !x.isFinite then ['i', 'n', 'f']
      else if x.significand = 0 then layout.decimalText ⟨0, 0⟩
      else layout.decimalText x.shortest
    String.ofList (if x.negative then '-' :: magnitude else magnitude)

end DomainDesign
