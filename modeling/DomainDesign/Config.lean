import DomainDesign.SourceFile
import DomainDesign.Tree.Basic

/-!
# Settings

The settings of the compilers and of the auto-mapper.  Every field has a default, so an empty table
is a valid text of settings.  Settings that are loaded are checked (`Config.check`); settings that
are changed afterwards are not.
-/

namespace DomainDesign

open Json

/-- The settings of the auto-mapper. -/
structure AutoMapConfig where
  /-- The least likeness at which a name is a candidate. -/
  threshold : Binary64 := .ofDecimal false 6 (-1)
  caseInsensitive : Bool := true
deriving DecidableEq, Inhabited, Repr

namespace AutoMapConfig

/-- The field names, in order. -/
def names : List String :=
  ["threshold", "case_insensitive"]

/-- The settings written by a value. -/
def ofJson? (j : Json) : Option AutoMapConfig := do
  let fields ← record? names j
  let threshold ← orDefault fields "threshold" ({} : AutoMapConfig).threshold float?
  let caseInsensitive ← orDefault fields "case_insensitive" true bool?
  some { threshold, caseInsensitive }

/-- The settings written by an outline. -/
def ofOutline? (o : Outline) : Option AutoMapConfig := do
  let fields ← o.record? names
  let threshold ← Outline.fieldOr fields "threshold" Outline.float? ({} : AutoMapConfig).threshold
  let caseInsensitive ← Outline.fieldOr fields "case_insensitive" Outline.flag? true
  some { threshold, caseInsensitive }

/-- The value that writes the settings. -/
def toJson (c : AutoMapConfig) : Json :=
  .obj (field "threshold" (.ofFloat c.threshold)
    ++ field "case_insensitive" (.bool c.caseInsensitive))

end AutoMapConfig

/-- The settings. -/
structure Config where
  rootId : String := defaultRootId
  /-- What is written for the type of a property or parameter without one. -/
  voidClass : String := "Void"
  /-- What is written for the result of a method, command or query without one. -/
  voidReturn : String := "void"
  /-- The property of a node that names the identifying property of an entity. -/
  idField : String := "id"
  /-- Whether a node of a kind that has no place in a model is an error. -/
  strict : Bool := false
  automap : AutoMapConfig := {}
deriving DecidableEq, Inhabited, Repr

namespace Config

/-- The field names, in order. -/
def names : List String :=
  ["root_id", "void_class", "void_return", "id_field", "strict", "automap"]

/-- The settings written by a value, unchecked. -/
def ofJson? (j : Json) : Option Config := do
  let fields ← record? names j
  let rootId ← orDefault fields "root_id" defaultRootId str?
  let voidClass ← orDefault fields "void_class" "Void" str?
  let voidReturn ← orDefault fields "void_return" "void" str?
  let idField ← orDefault fields "id_field" "id" str?
  let strict ← orDefault fields "strict" false bool?
  let automap ← orDefault fields "automap" {} AutoMapConfig.ofJson?
  some { rootId, voidClass, voidReturn, idField, strict, automap }

/-- The settings written by an outline, unchecked. -/
def ofOutline? (o : Outline) : Option Config := do
  let fields ← o.record? names
  let rootId ← Outline.fieldOr fields "root_id" Outline.text? defaultRootId
  let voidClass ← Outline.fieldOr fields "void_class" Outline.text? "Void"
  let voidReturn ← Outline.fieldOr fields "void_return" Outline.text? "void"
  let idField ← Outline.fieldOr fields "id_field" Outline.text? "id"
  let strict ← Outline.fieldOr fields "strict" Outline.flag? false
  let automap ← Outline.fieldOr fields "automap" AutoMapConfig.ofOutline? {}
  some { rootId, voidClass, voidReturn, idField, strict, automap }

/-- The value that writes the settings. -/
def toJson (c : Config) : Json :=
  .obj (field "root_id" (.str c.rootId) ++ field "void_class" (.str c.voidClass)
    ++ field "void_return" (.str c.voidReturn) ++ field "id_field" (.str c.idField)
    ++ field "strict" (.bool c.strict) ++ field "automap" c.automap.toJson)

/-- Settings whose ids are not empty and whose threshold is a likeness. -/
def check (c : Config) : Except Error Config :=
  if c.rootId.isEmpty then .error (.emptySetting "root_id")
  else if c.idField.isEmpty then .error (.emptySetting "id_field")
  else if c.automap.threshold.inUnitInterval then .ok c
  else .error (.thresholdRange (c.automap.threshold.render .plain))

/-- The settings written by a value. -/
def ofJson (j : Json) : Except Error Config :=
  match ofJson? j with
  | some c => c.check
  | none => .error .undecodable

/-- The settings written by a text. -/
def ofText (format : Format) (text : String) : Except Error Config :=
  match (format.outline? text).bind ofOutline? with
  | some c => c.check
  | none => .error .undecodable

/-- The settings in a file. -/
def ofFile (f : SourceFile) : Except Error Config :=
  f.load ofText .configExtension

end Config

end DomainDesign
