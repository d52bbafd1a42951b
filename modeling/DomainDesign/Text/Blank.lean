/-!
# Blank characters

`isBlank` is the class of white space characters of Unicode, and `trim` cuts them off both ends of a
text.  Zero-width characters are not blank.
-/

namespace DomainDesign.Text

/-- Whether a character is white space. -/
def isBlank (c : Char) : Bool :=
  let n := c.toNat
  (0x9 ≤ n && n ≤ 0xD) || n == 0x20 || n == 0x85 || n == 0xA0 || n == 0x1680
    || (0x2000 ≤ n && n ≤ 0x200A) || n == 0x2028 || n == 0x2029 || n == 0x202F || n == 0x205F
    || n == 0x3000

/-- The characters without the blank ones at either end. -/
def trim (cs : List Char) : List Char :=
  ((cs.dropWhile isBlank).reverse.dropWhile isBlank).reverse

/-- A text that is not empty. -/
def nonEmpty (s : Option String) : Option String :=
  s.filter (!·.isEmpty)

end DomainDesign.Text
