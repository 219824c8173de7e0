import SuitePlan.Failure
import SuitePlan.Profile.Lineup
import SuitePlan.Repetition

/-!
# Journals

While a suite is put together, notes are taken of what happens. A note has a level, for most of them
are of interest only to those who ask for details.
-/

namespace SuitePlan

/-- How much a note matters. -/
inductive Level where
  | debug
  | info
  deriving DecidableEq, Repr

/-- How a level is written. -/
def Level.name : Level → String
  | .debug => "DEBUG"
  | .info => "INFO"

/-- What can happen while a suite is put together. -/
inductive Note where
  /-- Settings ask for no profile. -/
  | noProfile
  /-- The catalog of a profile is going to be read. -/
  | reading (origin : String)
  /-- A profile has been resolved. -/
  | resolved (lineup : Lineup)
  /-- A profile could not be resolved. -/
  | failed (origin : String) (failure : Failure)
  /-- Items are going to be repeated. -/
  | repeating (count : Nat) (layout : Layout) (input : Nat)
  /-- A seed was generated. -/
  | generated (seed : Int64)
  /-- Items are going to be shuffled. -/
  | shuffling (seed : Int64) (input : Nat)
  /-- A stage has been applied. -/
  | applied (stage : String) (input output : Nat)
  /-- All stages have been applied. -/
  | composed (items stages : Nat)

namespace Note

/-- The level of a note. -/
def level : Note → Level
  | .resolved _ => .info
  | .generated _ => .info
  | .composed _ _ => .info
  | _ => .debug

/-- What a note says. -/
def text (json : Json.Diagnostics) : Note → String
  | .noProfile => "no profile configured"
  | .reading origin => s!"parsing profile origin={origin}"
  | .resolved l => s!"profile resolved profile={l.name} scenarios={l.runs.length}"
  | .failed origin failure => s!"profile failed origin={origin} error={failure.message json}"
  | .repeating count layout input =>
    s!"iterating suite iterations={count} order={layout.title} input={input}"
  | .generated seed => s!"no shuffle seed configured; generated one seed={seed}"
  | .shuffling seed input => s!"shuffling suite seed={seed} input={input}"
  | .applied stage input output =>
    s!"stage applied stage={Text.quoted stage} input={input} output={output}"
  | .composed items stages => s!"suite composed items={items} stages={stages}"

/-- The line that a note takes in a journal. -/
def line (json : Json.Diagnostics) (n : Note) : String :=
  n.level.name ++ " " ++ n.text json

/-- The lines of the notes that are shown, with or without details. -/
def lines (json : Json.Diagnostics) (verbose : Bool) (notes : List Note) : List String :=
  (notes.filter fun n => verbose || n.level == .info).map (line json)

end Note

end SuitePlan
