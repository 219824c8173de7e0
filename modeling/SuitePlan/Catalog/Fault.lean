import SuitePlan.Json.Diagnostics
import SuitePlan.Json.Draft
import SuitePlan.Text.Quoted

/-!
# Faults of catalogs

The ways in which a text is no catalog. A fault names what was found and what was expected in its
place.
-/

namespace SuitePlan.Catalog

/-- What stands in a JSON text where something else was expected. -/
inductive Found where
  | scalar (value : Json.Scalar)
  | array
  | object
  deriving DecidableEq, Repr

namespace Found

/-- How a message shows what was found. -/
def text : Found → String
  | .scalar .null => "null"
  | .scalar (.bool b) => s!"boolean `{b}`"
  | .scalar (.number (.integer n)) => s!"integer `{Text.Decimal.text n}`"
  | .scalar (.number n) => s!"floating point `{String.ofList n.render}`"
  | .scalar (.string s) => s!"string {Text.quoted s}"
  | .array => "sequence"
  | .object => "map"

end Found

/-- A part of a catalog that is written as an object with certain fields. -/
inductive Part where
  | catalog
  | profile
  deriving DecidableEq, Repr

namespace Part

/-- The fields of a part, in the order in which an array gives them. -/
def fields : Part → List String
  | .catalog => ["entry", "count", "profiles"]
  | .profile => ["scenarios"]

/-- How a message calls a part. -/
def text : Part → String
  | .catalog => "struct ProfileDocument"
  | .profile => "struct ProfileSpec"

/-- How a message lists the fields of a part. -/
def fieldsText (p : Part) : String :=
  match p.fields with
  | [field] => s!"`{field}`"
  | fields => "one of " ++ ", ".intercalate (fields.map fun field => s!"`{field}`")

end Part

/-- What is expected at a place in a catalog. -/
inductive Sought where
  | part (p : Part)
  | string
  | count
  | map
  | sequence
  deriving DecidableEq, Repr

/-- How a message calls what was expected. -/
def Sought.text : Sought → String
  | .part p => p.text
  | .string => "a string"
  | .count => "usize"
  | .map => "a map"
  | .sequence => "a sequence"

/-- Why a text is no catalog. -/
inductive Fault where
  /-- The text is not JSON, or an array for a part has more items than the part has fields. -/
  | malformedText
  /-- Something else stands where a value of one form is expected. -/
  | unexpected (found : Found) (sought : Sought)
  /-- The number of runs is below zero. -/
  | negativeCount (value : Int)
  /-- A part has no field of that name. -/
  | unknownField (name : String) (part : Part)
  /-- A field is given twice. -/
  | repeatedField (name : String)
  /-- An entry of a profile is neither a scenario nor an inclusion. -/
  | unmatchedEntry
  deriving DecidableEq, Repr

namespace Fault

/-- How a fault is worded, where `form` is what is said of a text that is not JSON. -/
def wording (form : String) : Fault → String
  | .malformedText => form
  | .unexpected found sought => s!"invalid type: {found.text}, expected {sought.text}"
  | .negativeCount n =>
    s!"invalid value: {(Found.scalar (.number (.integer n))).text}, expected {Sought.count.text}"
  | .unknownField name part => s!"unknown field `{name}`, expected {part.fieldsText}"
  | .repeatedField name => s!"duplicate field `{name}`"
  | .unmatchedEntry => "data did not match any variant of untagged enum ProfileEntry"

/-- The message of a fault in a text: its wording, and the place at which it was noticed. -/
def message (json : Json.Diagnostics) (text : String) (fault : Fault) : String :=
  let diagnosis := json.ofCatalog text
  { diagnosis with wording := fault.wording diagnosis.wording }.text

end Fault

end SuitePlan.Catalog
