import DomainDesign.Outline

/-!
# The tokens of JSON text

A scanner that reads one character at a time: `step` takes the scanner's state over a character and
gives the tokens that the character completes.  Numbers and words are collected whole and judged
when they end.  A string whose escapes leave a surrogate alone is a token without a text, for it is
refused only where somebody wants its text.
-/

namespace DomainDesign.Json

/-- A token of JSON text. -/
inductive Token where
  | listOpen
  | listClose
  | tableOpen
  | tableClose
  | comma
  | colon
  | text (value : Option String)
  | leaf (readings : Leaf)

/-- A string in the making: its characters so far in reverse, a leading surrogate that waits for its
partner, and whether every surrogate so far has found one. -/
structure TextDraft where
  reversed : List Char := []
  waiting : Option Nat := none
  sound : Bool := true

namespace TextDraft

/-- Adds a character. -/
def push (d : TextDraft) (c : Char) : TextDraft :=
  ⟨c :: d.reversed, none, d.sound && d.waiting.isNone⟩

/-- Adds a code unit written as an escape. -/
def pushUnit (d : TextDraft) (u : Nat) : TextDraft :=
  match d.waiting with
  | some high =>
    if 0xDC00 ≤ u && u < 0xE000 then
      let c := Char.ofNat (0x10000 + (high - 0xD800) * 0x400 + (u - 0xDC00))
      ⟨c :: d.reversed, none, d.sound⟩
    else ⟨d.reversed, none, false⟩
  | none =>
    if 0xD800 ≤ u && u < 0xDC00 then { d with waiting := some u }
    else if 0xDC00 ≤ u && u < 0xE000 then { d with sound := false }
    else d.push (Char.ofNat u)

/-- The finished string, if it has a text. -/
def text? (d : TextDraft) : Option String :=
  if d.sound && d.waiting.isNone then some (String.ofList d.reversed.reverse) else none

end TextDraft

/-- What the scanner is in the middle of. -/
inductive Scan where
  | between
  /-- A number or a word, in reverse. -/
  | word (reversed : List Char)
  | text (draft : TextDraft)
  | escape (draft : TextDraft)
  /-- The digits of a code unit: how many are still to come, and the value so far. -/
  | unit (draft : TextDraft) (missing value : Nat)

/-- White space between tokens. -/
def isSpace (c : Char) : Bool :=
  c == ' ' || c == '\t' || c == '\n' || c == '\r'

/-- Characters that a number or a word is made of. -/
def isWordChar (c : Char) : Bool :=
  c.isAlphanum || c == '-' || c == '+' || c == '.'

/-- The value of a hexadecimal digit. -/
def hexValue? (c : Char) : Option Nat :=
  if c.isDigit then some (c.toNat - '0'.toNat)
  else if 'a' ≤ c ∧ c ≤ 'f' then some (c.toNat - 'a'.toNat + 10)
  else if 'A' ≤ c ∧ c ≤ 'F' then some (c.toNat - 'A'.toNat + 10)
  else none

/-- The character that a one-letter escape writes. -/
def escaped? (c : Char) : Option Char :=
  if c = '"' ∨ c = '\\' ∨ c = '/' then some c
  else if c = 'b' then some (Char.ofNat 0x8)
  else if c = 'f' then some (Char.ofNat 0xC)
  else if c = 'n' then some '\n'
  else if c = 'r' then some '\r'
  else if c = 't' then some '\t'
  else none

/-- The leaf of a number literal.  A number beyond the range of doubles has no reading. -/
def numberLeaf (n? : Option Number) : Leaf :=
  { value? := n?.map .num, float? := n?.map Number.toFloat }

/-- The token that a number or a word makes. -/
def wordToken? (cs : List Char) : Option Token :=
  if cs = ['n', 'u', 'l', 'l'] then some (.leaf { value? := some .null, absent := true })
  else if cs = ['t', 'r', 'u', 'e'] then
    some (.leaf { value? := some (.bool true), flag? := some true })
  else if cs = ['f', 'a', 'l', 's', 'e'] then
    some (.leaf { value? := some (.bool false), flag? := some false })
  else (Number.literal? cs).map fun l => .leaf (numberLeaf (Number.ofLiteral? l))

/-- The scanner's step over a character that starts a token or stands between two. -/
def startToken (c : Char) : Option (List Token × Scan) :=
  if isSpace c then some ([], .between)
  else if c = '[' then some ([.listOpen], .between)
  else if c = ']' then some ([.listClose], .between)
  else if c.toNat = 0x7B then some ([.tableOpen], .between)
  else if c.toNat = 0x7D then some ([.tableClose], .between)
  else if c = ',' then some ([.comma], .between)
  else if c = ':' then some ([.colon], .between)
  else if c = '"' then some ([], .text {})
  else if isWordChar c then some ([], .word [c])
  else none

/-- The scanner's step over one character: the tokens it completes and the state after it. -/
def step : Scan → Char → Option (List Token × Scan)
  | .between, c => startToken c
  | .word reversed, c =>
    if isWordChar c then some ([], .word (c :: reversed))
    else do
      let token ← wordToken? reversed.reverse
      let (tokens, next) ← startToken c
      some (token :: tokens, next)
  | .text draft, c =>
    if c = '"' then some ([.text draft.text?], .between)
    else if c = '\\' then some ([], .escape draft)
    else if c.toNat < 0x20 then none
    else some ([], .text (draft.push c))
  | .escape draft, c =>
    if c = 'u' then some ([], .unit draft 4 0)
    else (escaped? c).map fun e => ([], .text (draft.push e))
  | .unit draft missing value, c =>
    (hexValue? c).map fun h =>
      let value := value * 16 + h
      if missing ≤ 1 then ([], .text (draft.pushUnit value))
      else ([], .unit draft (missing - 1) value)

/-- The tokens of a text, from a state of the scanner. -/
def scanFrom : Scan → List Char → Option (List Token)
  | .between, [] => some []
  | .word reversed, [] => (wordToken? reversed.reverse).map ([·])
  | _, [] => none
  | state, c :: rest => do
    let (tokens, next) ← step state c
    let later ← scanFrom next rest
    some (tokens ++ later)

/-- The tokens of a text. -/
def tokens? (text : String) : Option (List Token) :=
  scanFrom .between text.toList

end DomainDesign.Json
