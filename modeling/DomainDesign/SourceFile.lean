import DomainDesign.Error
import DomainDesign.Json.Parser
import DomainDesign.Text.LowerCase
import DomainDesign.Yaml.Parser

/-!
# Files

Settings and trees can be loaded from a file.  A file is its name and its bytes; the name says in
which format the bytes are, and it is looked at only after the bytes have been read as text.
-/

namespace DomainDesign

/-- The formats of a file. -/
inductive Format where
  | json
  | yaml
deriving DecidableEq, Inhabited, Repr

namespace Format

/-- The outline of a text in a format. -/
def outline? : Format → String → Option Outline
  | .json => Json.outline?
  | .yaml => Yaml.outline?

/-- The most lists and tables that may stand inside one another. -/
def maxDepth : Format → Nat
  | .json => Json.maxDepth
  | .yaml => Yaml.maxDepth

/-- The format that an extension stands for. -/
def ofExtension? (extension : String) : Option Format :=
  if extension = "json" then some .json
  else if extension = "yaml" ∨ extension = "yml" then some .yaml
  else none

end Format

/-- A file: its name, and its bytes unless there is no such file. -/
structure SourceFile where
  name : String
  bytes? : Option ByteArray

namespace SourceFile

/-- What follows the last dot of a name, unless that dot comes first or there is none. -/
def suffix (name : List Char) : List Char :=
  let reversed := name.reverse
  let last := (reversed.takeWhile (· ≠ '.')).reverse
  if last.length + 1 < name.length then last else []

/-- The extension of a file, in lower case. -/
def extension (f : SourceFile) : String :=
  Text.lowerCase (String.ofList (suffix f.name.toList))

/-- The text of a file. -/
def text (f : SourceFile) : Except Error String :=
  match f.bytes? with
  | none => .error (.io "no such file")
  | some bytes =>
    match String.fromUTF8? bytes with
    | some text => .ok text
    | none => .error (.io "the file is not valid text")

/-- Loads a file in the format that its extension stands for. -/
def load {α : Type} (f : SourceFile) (read : Format → String → Except Error α)
    (unsupported : String → Error) : Except Error α := do
  let text ← f.text
  match Format.ofExtension? f.extension with
  | some format => read format text
  | none => .error (unsupported f.extension)

end SourceFile

end DomainDesign
