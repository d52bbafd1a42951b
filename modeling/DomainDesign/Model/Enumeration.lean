import DomainDesign.Decimal.Layout
import DomainDesign.Json.Number
import DomainDesign.Model.Naming
import DomainDesign.Text.Blank
import DomainDesign.TypeExpr.Basic

/-!
# Enumerations

An enumeration has members with codes, and a base that says whether the codes are numbers or texts.
The code of a member may be written as either: `EnumCode.number?` reads the number at the start of a
text, however the text goes on, and `EnumCode.text` writes a number out.
-/

namespace DomainDesign.Model

open Json

/-- What the codes of an enumeration are. -/
inductive EnumBase where
  | number
  | text
deriving DecidableEq, Inhabited, Repr

/-- The names of the bases. -/
def EnumBase.names : List (String × EnumBase) :=
  [("number", .number), ("string", .text)]

/-- The value that writes a base. -/
def EnumBase.toJson (b : EnumBase) : Json :=
  .str (nameOf EnumBase.names b)

/-- The code of a member. -/
inductive EnumCode where
  | number (value : Json.Number)
  | text (value : String)
deriving DecidableEq, Inhabited

namespace EnumCode

/-! ## The number at the start of a text -/

/-- The digits at the start of a text, with at most one point among them. -/
def numeral : (pointSeen : Bool) → List Char → List Char
  | _, [] => []
  | pointSeen, c :: rest =>
    if c.isDigit then c :: numeral pointSeen rest
    else if c = '.' ∧ pointSeen = false then c :: numeral true rest
    else []

/-- A sign at the start of a text, true for minus, and what follows it. -/
def splitSign : List Char → Bool × List Char
  | '-' :: rest => (true, rest)
  | '+' :: rest => (false, rest)
  | cs => (false, cs)

/-- The number that a sign and a numeral write.  Without a fraction it is a whole number while it
fits sixty-four bits; otherwise it is the nearest double, if that is finite. -/
def numberOf? (negative : Bool) (numeral : List Char) : Option Json.Number :=
  let whole := numeral.takeWhile Char.isDigit
  let fraction := (numeral.dropWhile Char.isDigit).drop 1
  let value : Int := Number.natOfDigits whole
  let signed := if negative then -value else value
  if fraction.isEmpty ∧ -2 ^ 63 ≤ signed ∧ signed < 2 ^ 63 then some (.int signed)
  else
    let x := Binary64.ofDecimal negative (Number.natOfDigits (whole ++ fraction)) (-fraction.length)
    if x.isFinite then some (.float x) else none

/-- The number at the start of a text without blanks around it. -/
def leadingNumber? (cs : List Char) : Option Json.Number :=
  let (negative, rest) := splitSign cs
  let found := numeral false rest
  if found.any Char.isDigit then numberOf? negative found else none

/-- The code as a number. -/
def number? : EnumCode → Option Json.Number
  | .number n => some n
  | .text s => leadingNumber? (Text.trim s.toList)

/-- The code as a text. -/
def toText : EnumCode → String
  | .number n => n.render
  | .text s => s

end EnumCode

/-- A member of an enumeration. -/
structure EnumMember extends Naming where
  code : EnumCode := .text ""
deriving DecidableEq, Inhabited

/-- An enumeration. -/
structure Enumeration extends Naming where
  base : EnumBase := .text
  members : List EnumMember := []
deriving DecidableEq, Inhabited

/-- The base type that stands for an enumeration where its codes are stored or carried. -/
def Enumeration.storageType (e : Enumeration) : TypeExpr :=
  match e.base with
  | .number => .base "Integer"
  | .text => .base "String"

/-! ## In JSON -/

/-- The code written by a value. -/
def EnumCode.ofJson? : Json → Option EnumCode
  | .num n => some (.number n)
  | .str s => some (.text s)
  | _ => none

/-- The value that writes a code. -/
def EnumCode.toJson : EnumCode → Json
  | .number n => .num n
  | .text s => .str s

namespace EnumMember

/-- The member written by a value. -/
def ofJson? (j : Json) : Option EnumMember := do
  let fields ← object? j
  let naming ← Naming.ofFields? fields
  let code ← orDefault fields "code" (.text "") EnumCode.ofJson?
  some { toNaming := naming, code }

/-- The value that writes a member. -/
def toJson (m : EnumMember) : Json :=
  .obj (m.toNaming.fields ++ field "code" m.code.toJson)

end EnumMember

namespace Enumeration

/-- The enumeration written by a value. -/
def ofJson? (j : Json) : Option Enumeration := do
  let fields ← object? j
  let naming ← Naming.ofFields? fields
  let base ← orDefault fields "baseType" .text (choice? EnumBase.names)
  let members ← orDefault fields "members" [] (list? EnumMember.ofJson?)
  some { toNaming := naming, base, members }

/-- The value that writes an enumeration. -/
def toJson (e : Enumeration) : Json :=
  .obj (e.toNaming.fields ++ field "baseType" e.base.toJson
    ++ field "members" (ofList EnumMember.toJson e.members))

end Enumeration

end DomainDesign.Model
