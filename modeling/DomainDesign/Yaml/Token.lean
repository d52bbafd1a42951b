import DomainDesign.Yaml.Cursor

/-!
# The tokens of YAML text

A text is a row of scalars and signs.  Most signs are written; four are not.  Where the entries of a
block start further right than those of the block around it, the block is opened by `blockList` or
`blockTable`, and `blockEnd` closes it before the first thing that stands further left.  `key`
stands before the key of every entry of a table, which is marked in the text only by the colon after
it.

So a thing that may turn out to be a key is remembered until its colon comes (`KeyStart`).  A key
and its colon stand on one line and are at most `maxKeyBytes` long.  Outside of brackets a key
starts a line, or follows the sign of an entry; inside them it follows a bracket, a brace or a
comma.

Anchors, aliases, tags, directives and block scalars are not read.
-/

namespace DomainDesign.Yaml

/-- A scalar or a sign. -/
inductive Token where
  | scalar (leaf : Leaf)
  | listOpen
  | listClose
  | tableOpen
  | tableClose
  | comma
  /-- The sign of an entry of a block list. -/
  | dash
  /-- The start of a key. -/
  | key
  /-- The start of a value. -/
  | colon
  /-- The start of a block list. -/
  | blockList
  /-- The start of a block table. -/
  | blockTable
  /-- The end of a block. -/
  | blockEnd
  | documentStart
  | documentEnd

/-- The most bytes from the start of a key to its colon. -/
def maxKeyBytes : Nat := 1024

/-- The start of a thing that may be a key. -/
structure KeyStart where
  start : Cursor
  /-- How many tokens come before it. -/
  place : Nat
  /-- Whether it has to be a key, since it stands where the entries of a block table start. -/
  required : Bool

/-- Whether a thing is still a key when its colon stands at a place. -/
def KeyStart.reaches (k : KeyStart) (colon : Cursor) : Bool :=
  k.start.line = colon.line && k.start.bytesTo colon ≤ maxKeyBytes

/-- How far a text has been read. -/
structure Scan where
  cursor : Cursor
  /-- The tokens so far, the last one first. -/
  reversed : List Token := []
  /-- The columns of the open blocks, the innermost first. -/
  blocks : List Nat := []
  /-- What may be a key at the present level of brackets. -/
  pending : Option KeyStart := none
  /-- What may be a key at the levels around it, one for every open bracket or brace. -/
  outer : List (Option KeyStart) := []
  /-- Whether a key may start here. -/
  keys : Bool := true

namespace Scan

/-- Whether this is inside brackets or braces. -/
def flow (s : Scan) : Bool :=
  !s.outer.isEmpty

/-- The column from which on a line belongs to the innermost block. -/
def least (s : Scan) : Nat :=
  match s.blocks with
  | [] => 0
  | column :: _ => column + 1

/-! ## Tokens -/

/-- Adds a token. -/
def emit (s : Scan) (t : Token) : Scan :=
  { s with reversed := t :: s.reversed }

/-- Adds the token of a sign of `width` characters and moves over it.  `keys` says whether a key may
follow. -/
def sign (s : Scan) (t : Token) (width : Nat) (keys : Bool) : Scan :=
  { s.emit t with cursor := s.cursor.advance width, keys }

/-- Adds a token in front of those that come after the first `place` ones. -/
def emitAt (s : Scan) (place : Nat) (t : Token) : Scan :=
  let later := s.reversed.length - place
  { s with reversed := s.reversed.take later ++ t :: s.reversed.drop later }

/-! ## Blocks -/

/-- Opens a block in a column after the first `place` tokens, unless one is open there already. -/
def openBlock (s : Scan) (column place : Nat) (t : Token) : Scan :=
  if s.flow || !s.blocks.head?.all (· < column) then s
  else { s.emitAt place t with blocks := column :: s.blocks }

/-- Closes the open blocks whose column is one of those that `left` tells. -/
def closeBlocks (s : Scan) (left : Nat → Bool) : Scan :=
  if s.flow then s
  else
    { s with
      reversed := (s.blocks.takeWhile left).map (fun _ => .blockEnd) ++ s.reversed
      blocks := s.blocks.dropWhile left }

/-! ## Keys -/

/-- Gives up what may be a key.  What has to be one cannot be given up. -/
def dropKey? (s : Scan) : Option Scan :=
  if s.pending.any (·.required) then none else some { s with pending := none }

/-- Remembers that what starts here may be a key. -/
def noteKey? (s : Scan) : Option Scan :=
  if s.keys then
    s.dropKey?.map fun s =>
      { s with
        pending := some
          { start := s.cursor
            place := s.reversed.length
            required := !s.flow && s.blocks.head? = some s.cursor.column } }
  else some s

/-! ## Steps -/

/-- Moves over blanks and comments and closes the blocks that end there. -/
def skip (s : Scan) : Scan :=
  let next := s.cursor.skip s.flow (s.flow || !s.keys)
  let keys := s.keys || (!s.flow && s.cursor.line ≠ next.line)
  { s with cursor := next, keys }.closeBlocks fun column => next.column < column

/-- Reads a marker of the start or the end of a document. -/
def marker? (s : Scan) (t : Token) : Option Scan :=
  (s.closeBlocks fun _ => true).dropKey?.map fun s => s.sign t 3 false

/-- Reads an opening bracket or brace. -/
def bracketOpen? (s : Scan) (t : Token) : Option Scan :=
  s.noteKey?.map fun s => { s.sign t 1 true with pending := none, outer := s.pending :: s.outer }

/-- Reads a closing bracket or brace. -/
def bracketClose? (s : Scan) (t : Token) : Option Scan :=
  s.dropKey?.map fun s =>
    match s.outer with
    | [] => s.sign t 1 false
    | pending :: outer => { s.sign t 1 false with pending, outer }

/-- Reads a comma. -/
def comma? (s : Scan) : Option Scan :=
  s.dropKey?.map fun s => s.sign .comma 1 true

/-- Reads the sign of an entry of a list. -/
def dash? (s : Scan) : Option Scan :=
  if s.flow || s.keys then
    (s.openBlock s.cursor.column s.reversed.length .blockList).dropKey?.map fun s =>
      s.sign .dash 1 true
  else none

/-- Reads a question mark, the sign of a key. -/
def question? (s : Scan) : Option Scan :=
  if s.flow || s.keys then
    (s.openBlock s.cursor.column s.reversed.length .blockTable).dropKey?.map fun s =>
      s.sign .key 1 (!s.flow)
  else none

/-- Reads a colon that no key stands before on its line. -/
def bareColon? (s : Scan) : Option Scan :=
  if s.flow || s.keys then
    let s := s.openBlock s.cursor.column s.reversed.length .blockTable
    some (s.sign .colon 1 (!s.flow))
  else none

/-- Reads a colon. -/
def colon? (s : Scan) : Option Scan :=
  match s.pending with
  | none => s.bareColon?
  | some k =>
    if k.reaches s.cursor then
      let s := { s.emitAt k.place .key with pending := none }
      some ((s.openBlock k.start.column k.place .blockTable).sign .colon 1 false)
    else s.dropKey?.bind bareColon?

/-- Reads a scalar in quotes. -/
def quotedScalar? (s : Scan) (double : Bool) : Option Scan := do
  let s ← s.noteKey?
  let (leaf, next) ← Yaml.quotedScalar? double s.cursor
  some { s.emit (.scalar leaf) with cursor := next, keys := false }

/-- Reads a plain scalar. -/
def plainScalar? (s : Scan) : Option Scan := do
  let s ← s.noteKey?
  let (leaf, broken, next) ← Yaml.plainScalar? s.flow s.least s.cursor
  some { s.emit (.scalar leaf) with cursor := next, keys := broken }

/-- Reads the scalar or the sign that stands here. -/
def step? (s : Scan) : Option Scan :=
  match s.cursor.rest with
  | [] => none
  | c :: rest =>
    if s.cursor.atMarker then s.marker? (if c = '-' then .documentStart else .documentEnd)
    else if c = '[' then s.bracketOpen? .listOpen
    else if c = '\x7b' then s.bracketOpen? .tableOpen
    else if c = ']' then s.bracketClose? .listClose
    else if c = '\x7d' then s.bracketClose? .tableClose
    else if c = ',' then s.comma?
    else if c = '-' && startsBlank rest then s.dash?
    else if c = '?' && (s.flow || startsBlank rest) then s.question?
    else if c = ':' && (s.flow || startsBlank rest) then s.colon?
    else if c = '"' then s.quotedScalar? true
    else if c = '\'' then s.quotedScalar? false
    else if startsPlain s.flow s.cursor.rest then s.plainScalar?
    else none

/-- The tokens of what is left. -/
def tokens? : (fuel : Nat) → Scan → Option (List Token)
  | 0, _ => none
  | fuel + 1, s =>
    let s := s.skip
    if s.cursor.rest.isEmpty then
      (s.closeBlocks fun _ => true).dropKey?.map (·.reversed.reverse)
    else s.step?.bind (tokens? fuel)

end Scan

/-- The tokens of a text. -/
def tokens? (text : String) : Option (List Token) := do
  let cursor ← start? text
  Scan.tokens? (cursor.rest.length + 1) { cursor }

end DomainDesign.Yaml
