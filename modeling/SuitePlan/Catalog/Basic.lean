import SuitePlan.Table

/-!
# Catalogs

A catalog defines profiles by name. A profile lists scenarios to run, each at a placement and with a
weight, and other profiles whose runs are to stand in its place. The catalog may also name the
profile to start from and fix the number of runs.
-/

namespace SuitePlan

/-- Where the runs of a scenario stand among all runs: before the others, among them, or after
them. -/
inductive Placement where
  | early
  | middle
  | late
  deriving DecidableEq, Repr

namespace Placement

/-- The name of a placement. A scenario among the others has no placement of its own. -/
def name : Placement → String
  | .early => "early"
  | .middle => "none"
  | .late => "late"

/-- The placement of the given name. -/
def ofName? (s : String) : Option Placement :=
  if s = "early" then some .early
  else if s = "none" then some .middle
  else if s = "late" then some .late
  else none

/-- The place of a placement in the order of runs. -/
def rank : Placement → Nat
  | .early => 0
  | .middle => 1
  | .late => 2

/-- The placement of a scenario that gives none. -/
instance : Inhabited Placement := ⟨.middle⟩

@[simp] theorem ofName?_name (p : Placement) : ofName? p.name = some p := by
  cases p <;> decide

end Placement

/-- A scenario as a profile lists it. -/
structure Scenario where
  /-- The name that items are matched with. -/
  name : String
  placement : Placement := default
  /-- How often the scenario runs each time it is reached, once if nothing is said. -/
  weight : Option UInt32 := none
  /-- Arguments for whoever runs the scenario. -/
  extras : Table String := .empty
  deriving DecidableEq

/-- How often a scenario runs each time it is reached. -/
def Scenario.repeats (s : Scenario) : Nat :=
  match s.weight with
  | none => 1
  | some w => w.toNat

/-- An entry of a profile: a scenario, or the name of a profile whose entries belong here. -/
inductive Entry where
  | scenario (value : Scenario)
  | inclusion (profile : String)
  deriving DecidableEq

/-- Profiles by name, and what the catalog says about their use. -/
structure Catalog where
  /-- The profile to start from. -/
  entry : Option String := none
  /-- The number of runs, to which the runs of a profile are repeated or cut. -/
  count : Option UInt64 := none
  /-- The entries of each profile. -/
  profiles : Table (List Entry) := .empty
  deriving DecidableEq

/-- The catalog without profiles. -/
instance : Inhabited Catalog := ⟨none, none, .empty⟩

/-- The most runs that a catalog may ask for or expand to. -/
def Catalog.runLimit : Nat := 10000

end SuitePlan
