import SuitePlan.Composition
import SuitePlan.Journal

/-!
# Stages

A stage turns a list of items into another one, as settings tell it, or fails. It sees the files and
a seed, which it may use if it needs one that settings do not give.
-/

namespace SuitePlan

/-- What a stage finds around it besides the settings. -/
structure Surroundings where
  files : Files
  /-- The seed for whoever needs one that is not given. -/
  seed : Int64

/-- A step in putting a suite together. -/
structure Stage (α : Type) where
  name : String
  /-- The items that the stage makes of those it is given. -/
  apply : Surroundings → Settings → List α → Except Failure (Composition α)
  /-- The notes taken while it does so. -/
  notes : Surroundings → Settings → List α → List Note := fun _ _ _ => []

end SuitePlan
