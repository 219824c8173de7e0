import SuitePlan.Catalog.Basic
import SuitePlan.Catalog.Fault
import SuitePlan.Files.Basic

/-!
# Errors of profiles

The ways in which a profile that is asked for cannot be located, read, expanded or matched with
items.
-/

namespace SuitePlan

/-- Who refers to a profile. -/
inductive Referrer where
  | settings
  | profile (name : String)
  deriving DecidableEq, Repr

/-- How a message calls a referrer. -/
def Referrer.text : Referrer → String
  | .settings => "configuration"
  | .profile name => s!"profile {Text.quoted name}"

/-- What is wrong with an entry of a profile. -/
inductive EntryDefect where
  | blankScenario
  | blankInclusion
  | tooManyRuns
  deriving DecidableEq, Repr

/-- What a message says about a defect. -/
def EntryDefect.text : EntryDefect → String
  | .blankScenario => "scenario name must not be empty"
  | .blankInclusion => "include must name a profile"
  | .tooManyRuns => s!"expansion exceeds {Catalog.runLimit} scenario runs"

/-- Why a profile cannot be used. -/
inductive ProfileError where
  /-- The file of the catalog cannot be read. -/
  | unreadable (path : String) (fault : ReadFault)
  /-- The text of the catalog cannot be understood. -/
  | unparsable (origin text : String) (fault : Catalog.Fault)
  /-- Nothing says which of the profiles to start from. -/
  | noEntry (origin : String)
  /-- The catalog has no profile of that name. -/
  | undefined (name : String) (referrer : Referrer)
  /-- No item matches a scenario. -/
  | unknownScenario (name : String)
  /-- The catalog asks for too many runs. -/
  | countTooLarge (count : Nat)
  /-- The option that names the profile has a blank value. -/
  | blankSource
  /-- An entry, counted from zero, is wrong. -/
  | invalidEntry (profile : String) (index : Nat) (defect : EntryDefect)
  deriving DecidableEq, Repr

namespace ProfileError

open Text (quoted)

/-- The message of an error. -/
def message : ProfileError → String
  | .unreadable path _ => s!"read profile document {path}"
  | .unparsable origin _ _ => s!"parse profile document from {origin}"
  | .noEntry origin =>
    s!"profile document from {origin} has no entry profile (set `entry` or `profile-name`)"
  | .undefined name referrer =>
    s!"profile {quoted name} is not defined (referenced by {referrer.text})"
  | .unknownScenario name => s!"profile scenario {quoted name} does not match any test item"
  | .countTooLarge count =>
    s!"profile document count {count} exceeds the limit of {Catalog.runLimit} scenario runs"
  | .blankSource => s!"option {quoted key} is set but blank"
  | .invalidEntry profile index defect =>
    s!"profile {quoted profile} entry {index}: {defect.text}"
where
  /-- The option that names the profile. -/
  key : String := "profile"

/-- The message of an error and of its cause in the file system or in the text, if it has one. -/
def chain (json : Json.Diagnostics) (e : ProfileError) : List String :=
  match e with
  | .unreadable _ fault => [e.message, fault.message]
  | .unparsable _ text fault => [e.message, fault.message json text]
  | _ => [e.message]

end ProfileError

end SuitePlan
