import SuitePlan.Profile.Error
import SuitePlan.Settings.Error

/-!
# Failures

Whatever goes wrong while a suite is put together ends the work as a whole: there is never a part of
a suite.
-/

namespace SuitePlan

/-- Why a suite cannot be put together. -/
inductive Failure where
  | settings (error : SettingsError)
  | profile (error : ProfileError)
  /-- A profile includes itself. The names run from the profile along its inclusions back to it. -/
  | cycle (names : List String)

namespace Failure

/-- The message of a failure. -/
def message (json : Json.Diagnostics) : Failure → String
  | .settings e => e.message json
  | .profile e => e.message
  | .cycle names => "profile inclusion cycle: " ++ " -> ".intercalate names

/-- The message of a failure and of its cause, if it has one. -/
def chain (json : Json.Diagnostics) : Failure → List String
  | .settings e => e.chain json
  | .profile e => e.chain json
  | .cycle names => [(cycle names).message json]

end Failure

end SuitePlan
