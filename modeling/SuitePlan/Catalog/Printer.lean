import SuitePlan.Catalog.Basic
import SuitePlan.Json.Printer

/-!
# Writing catalogs

A catalog is written with the fields of each part in a fixed order. What is absent, and extras that
are empty, are left out; a placement is always given.
-/

namespace SuitePlan

/-- A JSON object of texts. -/
def Table.toValue (t : Table String) : Json.Value :=
  .object (t.entries.map fun (key, text) => (key, .ofString text))

/-- The JSON value of a natural number. -/
def Json.Value.ofNat (n : Nat) : Json.Value := .scalar (.number (.integer n))

/-- The members of a scenario's JSON object. -/
def Scenario.members (s : Scenario) : List (String × Json.Value) :=
  [("scenario", .ofString s.name), ("schedule", .ofString s.placement.name)]
    ++ (s.weight.map fun w => ("weight", Json.Value.ofNat w.toNat)).toList
    ++ (if s.extras.entries.isEmpty then [] else [("extras", s.extras.toValue)])

/-- The JSON value of an entry. -/
def Entry.toValue : Entry → Json.Value
  | .scenario s => .object s.members
  | .inclusion profile => .object [("include", .ofString profile)]

namespace Catalog

/-- The JSON value of a profile. -/
def profileValue (entries : List Entry) : Json.Value :=
  .object [("scenarios", .array (entries.map Entry.toValue))]

/-- The JSON value of a catalog. -/
def toValue (c : Catalog) : Json.Value :=
  .object ((c.entry.map fun name => ("entry", Json.Value.ofString name)).toList
    ++ (c.count.map fun n => ("count", Json.Value.ofNat n.toNat)).toList
    ++ [("profiles", .object (c.profiles.entries.map fun (name, entries) =>
      (name, profileValue entries)))])

/-- The compact JSON text of a catalog. -/
def toText (c : Catalog) : String := c.toValue.compactText

end Catalog

end SuitePlan
