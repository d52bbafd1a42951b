import DomainDesign.Json.Number
import DomainDesign.Text.Hex

/-!
# JSON text

`Json.render` writes a value without any blank space, the fields of an object in the order in which
the value lists them.  In a string only the quote, the backslash and the characters below U+0020 are
escaped.
-/

namespace DomainDesign.Json

/-- The characters that stand for one character of a string. -/
def escapeChar (c : Char) : List Char :=
  if c = '"' then ['\\', '"']
  else if c = '\\' then ['\\', '\\']
  else if c = '\n' then ['\\', 'n']
  else if c = '\r' then ['\\', 'r']
  else if c = '\t' then ['\\', 't']
  else if c.toNat = 0x8 then ['\\', 'b']
  else if c.toNat = 0xC then ['\\', 'f']
  else if c.toNat < 0x20 then
    ['\\', 'u', '0', '0'] ++ Text.hexDigits 2 c.toNat
  else [c]

/-- A string with its quotes. -/
def quoted (s : String) : String :=
  "\"" ++ String.ofList (s.toList.flatMap escapeChar) ++ "\""

mutual

/-- The text of a value. -/
def render : Json → String
  | .null => "null"
  | .bool true => "true"
  | .bool false => "false"
  | .num n => n.render
  | .str s => quoted s
  | .arr items => "[" ++ renderItems items ++ "]"
  | .obj fields => "\x7b" ++ renderFields fields ++ "\x7d"

/-- The texts of the items, with commas between them. -/
def renderItems : List Json → String
  | [] => ""
  | [j] => render j
  | j :: next :: rest => render j ++ "," ++ renderItems (next :: rest)

/-- The texts of the fields, with commas between them. -/
def renderFields : List (String × Json) → String
  | [] => ""
  | [(k, j)] => quoted k ++ ":" ++ render j
  | (k, j) :: next :: rest => quoted k ++ ":" ++ render j ++ "," ++ renderFields (next :: rest)

end

end DomainDesign.Json
