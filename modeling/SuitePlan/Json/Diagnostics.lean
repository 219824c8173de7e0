/-!
# Diagnostics of JSON texts

What a reader of JSON says about a text that it refuses is left to it: how a fault in the form of
the text is worded, and at which line and column it was noticed. It depends on nothing but the text,
and nothing but messages depends on it.
-/

namespace SuitePlan.Json

/-- What is wrong with a text, and the line and the column at which that was noticed, if they are
known. -/
structure Diagnosis where
  wording : String
  place : Option (Nat × Nat)
  deriving DecidableEq, Inhabited, Repr

/-- The text of a diagnosis. -/
def Diagnosis.text (d : Diagnosis) : String :=
  match d.place with
  | none => d.wording
  | some (line, column) => s!"{d.wording} at line {line} column {column}"

/-- What a reader of JSON says about the texts that it refuses. -/
structure Diagnostics where
  /-- What it says about bytes that are no JSON. -/
  ofBytes : ByteArray → Diagnosis
  /-- What it says about a text that is no catalog. The wording counts where the form of the text is
  at fault, for what is said of faults in its meaning is known. -/
  ofCatalog : String → Diagnosis
  deriving Inhabited

end SuitePlan.Json
