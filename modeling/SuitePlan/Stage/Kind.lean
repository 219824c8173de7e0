/-!
# Kinds of stages

A suite passes through stages of three kinds, which options and messages call by these names.
-/

namespace SuitePlan

/-- What a stage does: select items by a profile, repeat them, or shuffle them. -/
inductive StageKind where
  | profile
  | iterate
  | shuffle
  deriving DecidableEq, Repr

namespace StageKind

/-- The name of a kind. -/
def name : StageKind → String
  | .profile => "profile"
  | .iterate => "iterate"
  | .shuffle => "shuffle"

/-- The kind of the given name. -/
def ofName? (s : String) : Option StageKind :=
  if s = "profile" then some .profile
  else if s = "iterate" then some .iterate
  else if s = "shuffle" then some .shuffle
  else none

/-- The order in which the kinds follow each other if nothing else is asked for. -/
def standardOrder : List StageKind := [.profile, .iterate, .shuffle]

@[simp] theorem ofName?_name (k : StageKind) : ofName? k.name = some k := by
  cases k <;> decide

/-- A kind has exactly its own name. -/
theorem ofName?_eq_some_iff {s : String} {k : StageKind} : ofName? s = some k ↔ s = k.name := by
  constructor
  · intro h
    unfold ofName? at h
    split at h
    · cases h; assumption
    · split at h
      · cases h; assumption
      · split at h
        · cases h; assumption
        · simp at h
  · rintro rfl; simp

end StageKind

end SuitePlan
