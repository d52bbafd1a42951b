import DomainDesign.Json.Number
import DomainDesign.Outline

/-!
# What a YAML scalar means

A scalar in quotes is a string.  A plain scalar is a string too where a string is wanted, and
otherwise what its text says: nothing, a truth value, a whole number, a number with a fraction, and
only then a string.

Whole numbers are decimal, or hexadecimal, octal or binary after `0x`, `0o` and `0b`.  Digits that
start with a superfluous zero are no number.  A whole number that does not fit sixty-four bits but
does fit one hundred and twenty-eight has no value at all.
-/

namespace DomainDesign.Yaml

/-- Whether the text of a plain scalar stands for nothing. -/
def isNull (text : String) : Bool :=
  text = "~" || text = "null" || text = "Null" || text = "NULL"

/-- The truth value that the text of a plain scalar names. -/
def flag? (text : String) : Option Bool :=
  if text = "true" ∨ text = "True" ∨ text = "TRUE" then some true
  else if text = "false" ∨ text = "False" ∨ text = "FALSE" then some false
  else none

/-! ## Whole numbers -/

/-- The value of a digit in a base of at most sixteen. -/
def digitIn? (base : Nat) (c : Char) : Option Nat :=
  let value :=
    if c.isDigit then c.toNat - '0'.toNat
    else if 'a' ≤ c ∧ c ≤ 'f' then c.toNat - 'a'.toNat + 10
    else if 'A' ≤ c ∧ c ≤ 'F' then c.toNat - 'A'.toNat + 10
    else base
  if value < base then some value else none

/-- The number that at least one digit in a base writes. -/
def natIn? (base : Nat) : List Char → Option Nat
  | [] => none
  | c :: rest =>
    (c :: rest).foldlM (fun n c => (digitIn? base c).map (n * base + ·)) 0

/-- Whether digits start with a superfluous zero. -/
def paddedDigits (cs : List Char) : Bool :=
  match cs with
  | '0' :: c :: rest => (c :: rest).all Char.isDigit
  | _ => false

/-- The magnitude of a whole number without its sign. -/
def magnitude? : List Char → Option Nat
  | '0' :: 'x' :: rest => natIn? 16 rest
  | '0' :: 'o' :: rest => natIn? 8 rest
  | '0' :: 'b' :: rest => natIn? 2 rest
  | cs => if paddedDigits cs then none else natIn? 10 cs

/-- The whole number that the text of a plain scalar writes, of whatever size. -/
def int? : List Char → Option Int
  | '-' :: rest => (magnitude? rest).map fun n => -(n : Int)
  | '+' :: rest => (magnitude? rest).map Int.ofNat
  | cs => (magnitude? cs).map Int.ofNat

/-- Whether a whole number fits `bits` bits, unsigned or signed. -/
def fits (bits : Nat) (i : Int) : Bool :=
  -2 ^ (bits - 1) ≤ i && i < 2 ^ bits

/-! ## Numbers with a fraction -/

/-- The double nearest to a decimal with a point and an exponent, each of them optional, and at
least one digit before the exponent. -/
def decimal? (cs : List Char) : Option Binary64 :=
  let (negative, cs) := match cs with
    | '-' :: rest => (true, rest)
    | '+' :: rest => (false, rest)
    | rest => (false, rest)
  let whole := cs.takeWhile Char.isDigit
  let cs := cs.dropWhile Char.isDigit
  let (fraction, cs) := match cs with
    | '.' :: rest => (rest.takeWhile Char.isDigit, rest.dropWhile Char.isDigit)
    | rest => ([], rest)
  let exponent? : Option Int := match cs with
    | [] => some 0
    | e :: rest =>
      if e = 'e' ∨ e = 'E' then
        match rest with
        | '-' :: ds => (natIn? 10 ds).map fun n => -(n : Int)
        | '+' :: ds => (natIn? 10 ds).map Int.ofNat
        | ds => (natIn? 10 ds).map Int.ofNat
      else none
  if whole.isEmpty && fraction.isEmpty then none
  else exponent?.map fun exponent =>
    .ofDecimal negative (Json.Number.natOfDigits (whole ++ fraction)) (exponent - fraction.length)

/-- The double that the text of a plain scalar writes. -/
def float? (text : String) : Option Binary64 :=
  let unsigned? := match text.toList with
    | '+' :: rest =>
      if rest.head? = some '+' ∨ rest.head? = some '-' then none else some (String.ofList rest)
    | _ => some text
  unsigned?.bind fun unsigned =>
    if unsigned = ".inf" ∨ unsigned = ".Inf" ∨ unsigned = ".INF" then some .infinity
    else if text = "-.inf" ∨ text = "-.Inf" ∨ text = "-.INF" then some Binary64.infinity.negate
    else if text = ".nan" ∨ text = ".NaN" ∨ text = ".NAN" then some .nan
    else (decimal? unsigned.toList).filter Binary64.isFinite

/-! ## Scalars -/

/-- Whether the text is digits with a superfluous zero, after a sign if there is one. -/
def isPadded (text : String) : Bool :=
  match text.toList with
  | '-' :: rest => paddedDigits rest
  | '+' :: rest => paddedDigits rest
  | cs => paddedDigits cs

/-- The value of a plain scalar. -/
def plainValue? (text : String) : Option Json :=
  if text.isEmpty || isNull text then some .null
  else match flag? text with
    | some b => some (.bool b)
    | none =>
      match (int? text.toList).filter (fits 128) with
      | some i => if fits 64 i then some (.num (.int i)) else none
      | none =>
        if isPadded text then some (.str text)
        else match float? text with
          | some x => some (Json.ofFloat x)
          | none => some (.str text)

/-- The readings of a plain scalar. -/
def plain (text : String) : Leaf :=
  { value? := plainValue? text
    text? := some text
    flag? := flag? text
    float? := float? text
    absent := text.isEmpty || isNull text
    blank := text.isEmpty }

/-- The readings of a scalar in quotes. -/
def quoted (text : String) : Leaf :=
  { value? := some (.str text), text? := some text }

end DomainDesign.Yaml
