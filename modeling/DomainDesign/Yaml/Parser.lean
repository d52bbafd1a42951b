import DomainDesign.Yaml.Token

/-!
# Reading YAML text

The outline of a text that is one YAML document of lists and tables, in blocks or in brackets and
braces, with plain scalars and scalars in quotes at the leaves.

A value, a key or an item may be left out, and is then read as an empty plain scalar.  A list in
brackets may hold an entry of a table, which is a table of its own with that one entry.  A block
list may stand in the column of the key that it belongs to; it is *flush* then and no token closes
it.

Every function here takes fuel, of which `outline?` gives more than there are steps.
-/

namespace DomainDesign.Yaml

/-- A value that is not written at all. -/
def unwritten : Outline :=
  .leaf (plain "")

namespace Token

/-- Whether an item of a block list is over before it was written. -/
def endsItem : Token → Bool
  | .dash | .blockEnd => true
  | _ => false

/-- Whether a key or a value in a block table is over before it was written. -/
def endsEntry : Token → Bool
  | .key | .colon | .blockEnd => true
  | _ => false

/-- Whether a value inside brackets or braces is over before it was written. -/
def endsFlowValue : Token → Bool
  | .comma | .listClose | .tableClose => true
  | _ => false

/-- Whether a key inside brackets or braces is over before it was written. -/
def endsFlowKey : Token → Bool
  | .colon => true
  | t => t.endsFlowValue

end Token

mutual

/-- Reads a scalar, a list or a table.  `flush` says whether it may be a flush list. -/
def node? : (fuel : Nat) → (flush : Bool) → List Token → Option (Outline × List Token)
  | 0, _, _ => none
  | fuel + 1, flush, tokens =>
    match tokens with
    | .scalar leaf :: rest => some (.leaf leaf, rest)
    | .listOpen :: rest => flowItems? fuel [] rest
    | .tableOpen :: rest => flowEntries? fuel [] rest
    | .blockList :: rest => blockItems? fuel [] rest
    | .blockTable :: rest => blockEntries? fuel [] rest
    | .dash :: _ => if flush then flushItems? fuel [] tokens else none
    | _ => none

/-- Reads a node, unless the next token tells that it is not written. -/
def part? : (fuel : Nat) → (flush : Bool) → (ends : Token → Bool) → List Token →
    Option (Outline × List Token)
  | 0, _, _, _ => none
  | fuel + 1, flush, ends, tokens =>
    if tokens.head?.any ends then some (unwritten, tokens) else node? fuel flush tokens

/-- Reads a colon and the value after it, if there is a colon. -/
def value? : (fuel : Nat) → (flush : Bool) → (ends : Token → Bool) → List Token →
    Option (Outline × List Token)
  | 0, _, _, _ => none
  | fuel + 1, flush, ends, tokens =>
    match tokens with
    | .colon :: rest => part? fuel flush ends rest
    | _ => some (unwritten, tokens)

/-- Reads the further items of a block list. -/
def blockItems? : (fuel : Nat) → (reversed : List Outline) → List Token →
    Option (Outline × List Token)
  | 0, _, _ => none
  | fuel + 1, reversed, tokens =>
    match tokens with
    | .dash :: rest => do
      let (item, rest) ← part? fuel false Token.endsItem rest
      blockItems? fuel (item :: reversed) rest
    | .blockEnd :: rest => some (.list false reversed.reverse, rest)
    | _ => none

/-- Reads the further items of a flush list. -/
def flushItems? : (fuel : Nat) → (reversed : List Outline) → List Token →
    Option (Outline × List Token)
  | 0, _, _ => none
  | fuel + 1, reversed, tokens =>
    match tokens with
    | .dash :: rest => do
      let (item, rest) ← part? fuel false (fun t => t.endsItem || t.endsEntry) rest
      flushItems? fuel (item :: reversed) rest
    | _ => some (.list false reversed.reverse, tokens)

/-- Reads the further entries of a block table. -/
def blockEntries? : (fuel : Nat) → (reversed : List (Option String × Outline)) → List Token →
    Option (Outline × List Token)
  | 0, _, _ => none
  | fuel + 1, reversed, tokens =>
    match tokens with
    | .key :: rest => do
      let (key, rest) ← part? fuel true Token.endsEntry rest
      let (value, rest) ← value? fuel true Token.endsEntry rest
      blockEntries? fuel ((key.text?, value) :: reversed) rest
    | .blockEnd :: rest => some (.table reversed.reverse, rest)
    | _ => none

/-- Reads the items of a list in brackets, from the place of an item on. -/
def flowItems? : (fuel : Nat) → (reversed : List Outline) → List Token →
    Option (Outline × List Token)
  | 0, _, _ => none
  | fuel + 1, reversed, tokens =>
    match tokens with
    | .listClose :: rest => some (.list false reversed.reverse, rest)
    | _ => do
      let (item, rest) ←
        match tokens with
        | .key :: rest => flowPair? fuel rest
        | _ => node? fuel false tokens
      match rest with
      | .comma :: rest => flowItems? fuel (item :: reversed) rest
      | .listClose :: rest => some (.list false (item :: reversed).reverse, rest)
      | _ => none

/-- Reads an entry of a table in a list in brackets, from its key on.  A key that is not written
takes the sign in its place with it. -/
def flowPair? : (fuel : Nat) → List Token → Option (Outline × List Token)
  | 0, _ => none
  | fuel + 1, tokens => do
    let (key, rest) ←
      match tokens with
      | .colon :: rest => some (unwritten, rest)
      | .comma :: rest => some (unwritten, rest)
      | .listClose :: rest => some (unwritten, rest)
      | _ => node? fuel false tokens
    let (value, rest) ← value? fuel false Token.endsFlowValue rest
    some (.table [(key.text?, value)], rest)

/-- Reads the entries of a table in braces, from the place of an entry on. -/
def flowEntries? : (fuel : Nat) → (reversed : List (Option String × Outline)) → List Token →
    Option (Outline × List Token)
  | 0, _, _ => none
  | fuel + 1, reversed, tokens =>
    match tokens with
    | .tableClose :: rest => some (.table reversed.reverse, rest)
    | _ => do
      let (key, value, rest) ←
        match tokens with
        | .key :: rest => do
          let (key, rest) ← part? fuel false Token.endsFlowKey rest
          let (value, rest) ← value? fuel false Token.endsFlowValue rest
          some (key, value, rest)
        | _ => do
          let (key, rest) ← node? fuel false tokens
          some (key, unwritten, rest)
      let entries := (key.text?, value) :: reversed
      match rest with
      | .comma :: rest => flowEntries? fuel entries rest
      | .tableClose :: rest => some (.table entries.reverse, rest)
      | _ => none

end

/-! ## Documents -/

/-- Whether a token is a marker of the end of a document. -/
def Token.isDocumentEnd : Token → Bool
  | .documentEnd => true
  | _ => false

/-- Whether a token is a marker of the start or the end of a document. -/
def Token.isMarker : Token → Bool
  | .documentStart | .documentEnd => true
  | _ => false

/-- The outline of a row of tokens that is one document. -/
def document? (tokens : List Token) : Option Outline := do
  let fuel := 4 * tokens.length + 8
  let (node, rest) ←
    match tokens with
    | [] => some (unwritten, [])
    | .documentStart :: [] => some (unwritten, [])
    | .documentStart :: rest => part? fuel false Token.isMarker rest
    | _ => node? fuel false tokens
  if rest.all Token.isDocumentEnd then some node else none

/-- The outline of a text that is one document. -/
def outline? (text : String) : Option Outline :=
  (tokens? text).bind document?

/-- The most lists and tables that may stand inside one another. -/
def maxDepth : Nat := 128

end DomainDesign.Yaml
