import SuitePlan.Json.Reader
import SuitePlan.Settings.Basic

/-!
# Settings as JSON

Settings are written as a flat JSON object. A string is taken as it is, a number or a boolean by its
JSON text. Of several members with one name the last one counts, and the members are judged in
ascending order of their names.
-/

namespace SuitePlan.Settings

/-- The value that an option is given by a JSON value, unless that is null, an array or an
object. -/
def valueOf? : Json.Value → Option String
  | .scalar (.string s) => some s
  | .scalar (.number n) => some (String.ofList n.render)
  | .scalar (.bool b) => some (if b then "true" else "false")
  | _ => none

/-- The options and values that members give, or an error for the first that is no scalar. -/
def readMembers : List (String × Json.Value) → Except SettingsError (List (String × String))
  | [] => .ok []
  | (key, v) :: rest =>
    match valueOf? v with
    | none => .error (.notScalar key v.sorted)
    | some value => do return (key, value) :: (← readMembers rest)

/-- The settings that a JSON value gives. -/
def ofValue : Json.Value → Except SettingsError Settings
  | .object members => do return .ofList (← readMembers (Table.ofList members).entries)
  | _ => .error .notObject

/-- The settings that a JSON text gives. -/
def ofText (text : String) : Except SettingsError Settings :=
  match Json.Value.parse? text.toList with
  | none => .error (.notJson text.toUTF8)
  | some v => ofValue v

/-- The settings that the bytes of a JSON text give. -/
def ofBytes (bytes : ByteArray) : Except SettingsError Settings :=
  match String.fromUTF8? bytes with
  | none => .error (.notJson bytes)
  | some text => ofText text

/-- The settings that a file gives. -/
def load (files : Files) (path : String) : Except SettingsError Settings :=
  match files.read path with
  | .error fault => .error (.unreadable path fault)
  | .ok bytes => ofBytes bytes

/-- The JSON value of settings: an object of strings in ascending order of the options. -/
def toValue (s : Settings) : Json.Value :=
  .object (s.toList.map fun (key, value) => (key, .ofString value))

/-- The compact JSON text of settings. -/
def toText (s : Settings) : String := s.toValue.compactText

end SuitePlan.Settings
