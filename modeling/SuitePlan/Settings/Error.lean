import SuitePlan.Files.Basic
import SuitePlan.Json.Diagnostics
import SuitePlan.Json.Printer
import SuitePlan.Stage.Kind
import SuitePlan.Text.Quoted

/-!
# Errors of settings

An option that is absent is never an error; these are the ways in which settings that are given
cannot be used.
-/

namespace SuitePlan

/-- What the value of an option was expected to be. -/
inductive Expected where
  | integer
  | longInteger
  | flag
  | layout
  | stages
  deriving DecidableEq, Repr

/-- How a message calls an expected value. -/
def Expected.text : Expected → String
  | .integer => "integer"
  | .longInteger => "long integer"
  | .flag => "true or false"
  | .layout => "cyclic or sequential"
  | .stages => "profile, iterate, or shuffle"

/-- Why settings cannot be used. -/
inductive SettingsError where
  /-- An option's value is not what was expected. -/
  | malformed (key value : String) (expected : Expected)
  /-- An option's value is below zero. -/
  | negative (key : String) (value : Int)
  /-- The bytes of the settings are not JSON. -/
  | notJson (bytes : ByteArray)
  /-- The settings are JSON, but not an object. -/
  | notObject
  /-- An option is given as null, an array or an object. -/
  | notScalar (key : String) (value : Json.Value)
  /-- An override has no equals sign. -/
  | noEqualsSign (pair : String)
  /-- An override has nothing but blanks before its equals sign. -/
  | emptyKey (pair : String)
  /-- A stage is listed twice. -/
  | repeatedStage (kind : StageKind)
  /-- The list of stages is there but names none. -/
  | noStage
  /-- A settings file cannot be read. -/
  | unreadable (path : String) (fault : ReadFault)

namespace SettingsError

open Text (quoted)

/-- The message of an error. -/
def message (json : Json.Diagnostics) : SettingsError → String
  | .malformed key value expected =>
    s!"option {quoted key} has malformed value {quoted value} (expected {expected.text})"
  | .negative key value => s!"option {quoted key} must be >= 0 (got {Text.Decimal.text value})"
  | .notJson bytes =>
    s!"invalid configuration: parse configuration JSON: {(json.ofBytes bytes).text}"
  | .notObject => "invalid configuration: configuration JSON must be an object"
  | .notScalar key value =>
    s!"invalid configuration: option {quoted key} must be a string, number, or boolean "
      ++ s!"(got {value.compactText})"
  | .noEqualsSign pair => s!"invalid configuration: override {quoted pair} must be key=value"
  | .emptyKey pair => s!"invalid configuration: override {quoted pair} has an empty key"
  | .repeatedStage kind =>
    s!"invalid configuration: stage {kind.name} listed more than once in {quoted stagesKey}"
  | .noStage => s!"invalid configuration: {quoted stagesKey} is set but names no stage"
  | .unreadable path _ => s!"read configuration {path}"
where
  /-- The option that lists the stages. -/
  stagesKey : String := "stages"

/-- The message of an error and of its cause in the file system, if it has one. -/
def chain (json : Json.Diagnostics) (e : SettingsError) : List String :=
  match e with
  | .unreadable _ fault => [e.message json, fault.message]
  | _ => [e.message json]

end SettingsError

end SuitePlan
