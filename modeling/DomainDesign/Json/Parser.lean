import DomainDesign.Json.Token

/-!
# Reading JSON text

The outline of JSON text is put together from its tokens by a machine with a stack: the lists and
tables that are open, innermost first, and what may come next.  The machine takes one token at a
time, so it runs over any text, however deep its lists and tables go.

* `outline?` — the outline of a text that is one JSON value and nothing else.
* `parse?` — its value, with at most 127 lists and tables inside one another.
-/

namespace DomainDesign.Json

/-- A list or table that is still open.  Its parts are in reverse order. -/
inductive Open where
  | list (reversed : List Outline)
  | table (reversed : List (Option String × Outline))
  /-- A table whose last field has a key and no value yet. -/
  | field (reversed : List (Option String × Outline)) (key : Option String)

/-- What may come next. -/
inductive Await where
  | value
  | valueOrClose
  | key
  | keyOrClose
  | colon
  | commaOrClose
  | nothing

/-- The machine: what is open, what may come next, and the value once it is complete. -/
structure Assembly where
  stack : List Open := []
  await : Await := .value
  result : Option Outline := none

namespace Assembly

/-- Places a complete value in the innermost open list or table. -/
def place (o : Outline) : List Open → Option Assembly
  | [] => some ⟨[], .nothing, some o⟩
  | .list reversed :: rest => some ⟨.list (o :: reversed) :: rest, .commaOrClose, none⟩
  | .field reversed key :: rest => some ⟨.table ((key, o) :: reversed) :: rest, .commaOrClose, none⟩
  | .table _ :: _ => none

/-- The machine's step over a token at which a value may start. -/
def startValue (stack : List Open) : Token → Option Assembly
  | .listOpen => some ⟨.list [] :: stack, .valueOrClose, none⟩
  | .tableOpen => some ⟨.table [] :: stack, .keyOrClose, none⟩
  | .text t => place (.leaf { value? := t.map .str, text? := t }) stack
  | .leaf l => place (.leaf l) stack
  | _ => none

/-- Closes the innermost list or table. -/
def close : Token → List Open → Option Assembly
  | .listClose, .list reversed :: rest => place (.list true reversed.reverse) rest
  | .tableClose, .table reversed :: rest => place (.table reversed.reverse) rest
  | _, _ => none

/-- The machine's step over a token that must be the key of a field. -/
def startField : Token → List Open → Option Assembly
  | .text key, .table reversed :: rest => some ⟨.field reversed key :: rest, .colon, none⟩
  | _, _ => none

/-- The machine's step over one token. -/
def step (a : Assembly) (t : Token) : Option Assembly :=
  match a.await with
  | .value => startValue a.stack t
  | .valueOrClose => (close t a.stack).or (startValue a.stack t)
  | .key => startField t a.stack
  | .keyOrClose => (close t a.stack).or (startField t a.stack)
  | .colon =>
    match t with
    | .colon => some { a with await := .value }
    | _ => none
  | .commaOrClose =>
    match t, a.stack with
    | .comma, .list _ :: _ => some { a with await := .value }
    | .comma, .table _ :: _ => some { a with await := .key }
    | _, _ => close t a.stack
  | .nothing => none

end Assembly

/-- The outline of a text. -/
def outline? (text : String) : Option Outline := do
  let tokens ← tokens? text
  let final ← tokens.foldlM Assembly.step {}
  final.result

/-- How many lists and tables may stand inside one another. -/
def maxDepth : Nat := 127

/-- The value of a text. -/
def parse? (text : String) : Option Json := do
  let outline ← outline? text
  outline.toJson? maxDepth

end DomainDesign.Json
