import DomainDesign.Yaml.Scalar

/-!
# Walking through YAML text

A cursor is a place in the text: what is left of it, and the line and column there.  The functions
of this module move a cursor over blanks and comments and over single scalars.

Line breaks are brought to one form first (`normalize`).  A break between two words of a scalar
folds to one space; of several breaks in a row all but the first are kept.
-/

namespace DomainDesign.Yaml

/-- A place in the text. -/
structure Cursor where
  rest : List Char
  line : Nat := 0
  column : Nat := 0

/-! ## Characters -/

/-- A character that may stand in a text. -/
def isPrintable (c : Char) : Bool :=
  let n := c.toNat
  n = 0x09 || n = 0x0A || n = 0x0D || (0x20 ≤ n && n ≤ 0x7E) || n = 0x85
    || (0xA0 ≤ n && n ≤ 0xFFFD) || 0x10000 ≤ n

/-- A line break of a normalized text. -/
def isBreak (c : Char) : Bool :=
  c = '\n' || c = '\u2028' || c = '\u2029'

/-- A space or a tab. -/
def isSpace (c : Char) : Bool :=
  c = ' ' || c = '\t'

/-- Whether what follows starts with a blank, a break or nothing at all. -/
def startsBlank : List Char → Bool
  | [] => true
  | c :: _ => isSpace c || isBreak c

/-- The text with one form for every break that is written as carriage return, line feed or next
line. -/
def normalize : List Char → List Char
  | [] => []
  | '\r' :: '\n' :: rest => '\n' :: normalize rest
  | c :: rest => (if c = '\r' ∨ c = '\u0085' then '\n' else c) :: normalize rest

/-- The start of a text, unless the text has a character that may not stand in it. -/
def start? (text : String) : Option Cursor :=
  if text.toList.all isPrintable then some ⟨normalize text.toList, 0, 0⟩ else none

namespace Cursor

/-- Moves over `n` characters of a line. -/
def advance (c : Cursor) (n : Nat) : Cursor :=
  { c with rest := c.rest.drop n, column := c.column + n }

/-- Whether a marker of the start or the end of a document stands here. -/
def atMarker (c : Cursor) : Bool :=
  c.column = 0 && match c.rest with
    | '-' :: '-' :: '-' :: rest => startsBlank rest
    | '.' :: '.' :: '.' :: rest => startsBlank rest
    | _ => false

/-- How many bytes there are from here to a place further right in the same line. -/
def bytesTo (start stop : Cursor) : Nat :=
  (start.rest.take (stop.column - start.column)).foldl (fun bytes c => bytes + c.utf8Size) 0

/-- Whether nothing more of the document is left. -/
def atEnd (c : Cursor) : Bool :=
  c.rest.isEmpty || c.atMarker

end Cursor

/-! ## Blanks and comments -/

/-- Moves over blanks, breaks and comments.  `flow` says whether this is inside brackets or braces,
and `tabs` whether tabs are blanks here: outside of brackets they are not where a key may start, as
at the start of a line.  A byte order mark is a blank at the start of a line, where it fills the
first column. -/
def skipBlanks (flow : Bool) : (tabs comment : Bool) → (line column : Nat) → List Char → Cursor
  | _, _, line, column, [] => ⟨[], line, column⟩
  | tabs, comment, line, column, c :: rest =>
    if isBreak c then skipBlanks flow flow false (line + 1) 0 rest
    else if comment || c = ' ' || (tabs && c = '\t') || (column = 0 && c = '\ufeff') then
      skipBlanks flow tabs comment line (column + 1) rest
    else if c = '#' then skipBlanks flow tabs true line (column + 1) rest
    else ⟨c :: rest, line, column⟩

/-- Moves to the next thing that is no blank and no comment. -/
def Cursor.skip (c : Cursor) (flow tabs : Bool) : Cursor :=
  skipBlanks flow tabs false c.line c.column c.rest

/-! ## Gaps inside scalars -/

/-- Blanks and breaks between two words of a scalar. -/
structure Gap where
  spaces : List Char := []
  breaks : List Char := []

/-- What a gap stands for. -/
def Gap.fold (g : Gap) : List Char :=
  match g.breaks with
  | [] => g.spaces
  | '\n' :: [] => [' ']
  | '\n' :: more => more
  | others => others

/-- Reads a gap.  Spaces after a break are dropped.  After a break, a tab left of the column `least`
is an error. -/
def gap? (least : Nat) : (g : Gap) → (line column : Nat) → List Char → Option (Gap × Cursor)
  | g, line, column, [] => some (g, ⟨[], line, column⟩)
  | g, line, column, c :: rest =>
    if isBreak c then
      gap? least { spaces := [], breaks := g.breaks ++ [c] } (line + 1) 0 rest
    else if isSpace c then
      if g.breaks.isEmpty then
        gap? least { g with spaces := g.spaces ++ [c] } line (column + 1) rest
      else if c = '\t' ∧ column < least then none
      else gap? least g line (column + 1) rest
    else some (g, ⟨c :: rest, line, column⟩)

/-! ## Plain scalars -/

/-- A character with a meaning inside brackets and braces. -/
def isFlowMark (c : Char) : Bool :=
  c = ',' || c = '[' || c = ']' || c = '\x7b' || c = '\x7d'

/-- Whether a plain scalar may start with what is left. -/
def startsPlain (flow : Bool) : List Char → Bool
  | [] => false
  | '-' :: rest => !startsBlank rest
  | '?' :: rest => !flow && !startsBlank rest
  | ':' :: rest => !flow && !startsBlank rest
  | c :: _ =>
    !(isSpace c || isBreak c || isFlowMark c
      || ['#', '&', '*', '!', '|', '>', '\'', '"', '%', '@', '\x60'].contains c)

/-- The characters of a plain scalar up to a blank or an indicator, and what is left. -/
def word? (flow : Bool) : List Char → Option (List Char × List Char)
  | [] => some ([], [])
  | c :: rest =>
    if isSpace c || isBreak c then some ([], c :: rest)
    else if flow && c = ':' && rest.head?.any (fun d => d = '?' || isFlowMark d) then none
    else if c = ':' && startsBlank rest then some ([], c :: rest)
    else if flow && isFlowMark c then some ([], c :: rest)
    else (word? flow rest).map fun (cs, left) => (c :: cs, left)

/-- The words of a plain scalar after what has been read of it, and whether the lines break after
the last one.  Outside of brackets a line belongs to the scalar while it starts at the column
`least` or later. -/
def words? (flow : Bool) (least : Nat) :
    (fuel : Nat) → (read : List Char) → Cursor → Option (List Char × Bool × Cursor)
  | 0, _, _ => none
  | fuel + 1, read, c => do
    let (g, next) ← gap? least {} c.line c.column c.rest
    let ends := next.atEnd || next.rest.head? = some '#'
      || (!flow && !g.breaks.isEmpty && next.column < least)
    if ends then some (read, !g.breaks.isEmpty, next)
    else
      let (cs, left) ← word? flow next.rest
      let beyond := { next with rest := left, column := next.column + cs.length }
      if cs.isEmpty then some (read, !g.breaks.isEmpty, next)
      else words? flow least fuel (read ++ g.fold ++ cs) beyond

/-- Reads a plain scalar, and whether the lines break after it. -/
def plainScalar? (flow : Bool) (least : Nat) (c : Cursor) : Option (Leaf × Bool × Cursor) := do
  let (cs, broken, next) ← words? flow least (c.rest.length + 1) [] c
  some (plain (String.ofList cs), broken, next)

/-! ## Scalars in quotes -/

/-- The characters that an escape of one letter stands for. -/
def shortEscapes : List (Char × Char) :=
  [('0', '\x00'), ('a', '\x07'), ('b', '\x08'), ('t', '\t'), ('\t', '\t'), ('n', '\n'),
    ('v', '\x0b'), ('f', '\x0c'), ('r', '\r'), ('e', '\x1b'), (' ', ' '), ('"', '"'),
    ('/', '/'), ('\\', '\\'), ('N', '\u0085'), ('_', '\u00a0'), ('L', '\u2028'), ('P', '\u2029')]

/-- The character that `count` hexadecimal digits name, and what is left. -/
def numberedChar? (count : Nat) (cs : List Char) : Option (Char × List Char) :=
  let digits := cs.take count
  if digits.length < count then none
  else (natIn? 16 digits).bind fun n =>
    if 0xD800 ≤ n ∧ n ≤ 0xDFFF ∨ 0x10FFFF < n then none
    else some (Char.ofNat n, cs.drop count)

/-- The character of an escape after its backslash, and what is left. -/
def escape? : List Char → Option (Char × List Char)
  | [] => none
  | 'x' :: rest => numberedChar? 2 rest
  | 'u' :: rest => numberedChar? 4 rest
  | 'U' :: rest => numberedChar? 8 rest
  | c :: rest => (shortEscapes.lookup c).map fun d => (d, rest)

/-- The text of a scalar in double quotes, after what has been read of it, up to the closing
quote. -/
def doubleQuoted? : (fuel : Nat) → (read : List Char) → Cursor → Option (List Char × Cursor)
  | 0, _, _ => none
  | fuel + 1, read, c =>
    if c.atMarker then none
    else match c.rest with
      | [] => none
      | '"' :: _ => some (read, c.advance 1)
      | '\\' :: rest =>
        if rest.head?.any isBreak then do
          let (g, next) ← gap? 0 {} c.line (c.column + 1) rest
          doubleQuoted? fuel (read ++ g.breaks.drop 1) next
        else do
          let (d, left) ← escape? rest
          doubleQuoted? fuel (read ++ [d])
            { c with rest := left, column := c.column + 1 + (rest.length - left.length) }
      | d :: _ =>
        if isSpace d || isBreak d then do
          let (g, next) ← gap? 0 {} c.line c.column c.rest
          doubleQuoted? fuel (read ++ g.fold) next
        else doubleQuoted? fuel (read ++ [d]) (c.advance 1)

/-- The text of a scalar in single quotes, after what has been read of it, up to the closing
quote. -/
def singleQuoted? : (fuel : Nat) → (read : List Char) → Cursor → Option (List Char × Cursor)
  | 0, _, _ => none
  | fuel + 1, read, c =>
    if c.atMarker then none
    else match c.rest with
      | [] => none
      | '\'' :: '\'' :: _ => singleQuoted? fuel (read ++ ['\'']) (c.advance 2)
      | '\'' :: _ => some (read, c.advance 1)
      | d :: _ =>
        if isSpace d || isBreak d then do
          let (g, next) ← gap? 0 {} c.line c.column c.rest
          singleQuoted? fuel (read ++ g.fold) next
        else singleQuoted? fuel (read ++ [d]) (c.advance 1)

/-- Reads a scalar in double or in single quotes, at its opening quote. -/
def quotedScalar? (double : Bool) (c : Cursor) : Option (Leaf × Cursor) := do
  let read := if double then doubleQuoted? else singleQuoted?
  let (cs, next) ← read (c.rest.length + 1) [] (c.advance 1)
  some (quoted (String.ofList cs), next)

end DomainDesign.Yaml
