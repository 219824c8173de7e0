import SuitePlan.Catalog.Basic
import SuitePlan.Json.Value

/-!
# Entries of a profile as JSON

A scenario is an object of up to four fields, or an array of their values in the order of
`Scenario.fields`; an inclusion is an object of one field. A field may be given once, and no other
may be given. A value is taken for a scenario where it can be, else for an inclusion.
-/

namespace SuitePlan

/-- The placement that a value denotes: its name, or an object with null under its name. -/
def Placement.ofValue? : Json.Value → Option Placement
  | .scalar (.string s) => ofName? s
  | .object [(s, .scalar .null)] => ofName? s
  | _ => none

namespace Scenario

/-- The fields of a scenario, in the order in which an array gives them. -/
def fields : List String := ["scenario", "schedule", "weight", "extras"]

/-- The weight that a value denotes: null for none, or an integer of 32 bits. -/
def weightOfValue? : Json.Value → Option (Option UInt32)
  | .scalar .null => some none
  | .scalar (.number (.integer n)) =>
    if 0 ≤ n ∧ n < UInt32.size then some (some (UInt32.ofNat n.toNat)) else none
  | _ => none

/-- The pairs of names and texts that members with texts as values give. -/
def texts? : List (String × Json.Value) → Option (List (String × String))
  | [] => some []
  | (key, v) :: rest => do some ((key, ← v.text?) :: (← texts? rest))

/-- The extras that a value denotes: an object of texts. -/
def extrasOfValue? : Json.Value → Option (Table String)
  | .object members => (texts? members).map Table.ofList
  | _ => none

/-- The value that a field denotes, or a default if the field is not given. -/
def field? (members : List (String × Json.Value)) (key : String) (default : α)
    (read? : Json.Value → Option α) : Option α :=
  match Table.lookup key members with
  | none => some default
  | some v => read? v

/-- The scenario that the members of an object give. -/
def ofMembers? (members : List (String × Json.Value)) : Option Scenario :=
  if (members.map Prod.fst).Nodup ∧ ∀ m ∈ members, m.1 ∈ fields then do
    let name ← (← Table.lookup "scenario" members).text?
    let placement ← field? members "schedule" default Placement.ofValue?
    let weight ← field? members "weight" none weightOfValue?
    let extras ← field? members "extras" .empty extrasOfValue?
    some ⟨name, placement, weight, extras⟩
  else none

/-- The scenario that a value denotes. -/
def ofValue? : Json.Value → Option Scenario
  | .object members => ofMembers? members
  | .array items => if items.length ≤ fields.length then ofMembers? (fields.zip items) else none
  | .scalar _ => none

end Scenario

namespace Entry

/-- The name of the profile that a value includes. -/
def inclusionOfValue? : Json.Value → Option String
  | .object [(key, .scalar (.string s))] => if key = "include" then some s else none
  | _ => none

/-- The entry that a value denotes. -/
def ofValue? (v : Json.Value) : Option Entry :=
  match Scenario.ofValue? v with
  | some s => some (.scenario s)
  | none => (inclusionOfValue? v).map .inclusion

end Entry

end SuitePlan
