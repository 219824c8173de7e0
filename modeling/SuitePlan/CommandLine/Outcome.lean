import SuitePlan.Journal
import SuitePlan.Text.Pieces

/-!
# Outcomes

A command prints what it was asked for, or says at which step of its work it failed and why. It
never prints a part.
-/

namespace SuitePlan.CommandLine

/-- A step in the work of a command. -/
inductive Step where
  | loadSettings (path : String)
  | override
  | readItems (path : String)
  | readInput
  | buildPipeline
  | compose
  | resolve
  /-- The profile of the command `resolve` has to be there. -/
  | requireProfile
  deriving DecidableEq, Repr

/-- How a step is called. -/
def Step.text : Step → String
  | .loadSettings path => s!"load config {path}"
  | .override => "apply --set overrides"
  | .readItems path => s!"read items {path}"
  | .readInput => "read items from stdin"
  | .buildPipeline => "build stage pipeline"
  | .compose => "compose suite"
  | .resolve => "resolve profile"
  | .requireProfile => "--profile must not be empty"

/-- Why a step failed. -/
inductive Cause where
  | file (fault : ReadFault)
  | failure (failure : Failure)
  /-- The step says itself what is wrong. -/
  | none

/-- The messages of a cause, from the outermost in. -/
def Cause.chain (json : Json.Diagnostics) : Cause → List String
  | .file fault => [fault.message]
  | .failure f => f.chain json
  | .none => []

/-- The lines of a message below the outermost one. The first line has the number of the message, if
there are several, and the others stand below the text of the first. -/
def causeLines (number : Option Nat) (message : String) : List String :=
  let (mark, indent) := match number with
    | none => ("    ", "    ")
    | some n => (String.ofList ((Nat.toDigits 10 n).leftpad 5 ' ') ++ ": ", "       ")
  match (Text.pieces '\n' message.toList).map String.ofList with
  | [] => []
  | first :: rest => (mark ++ first) :: rest.map (indent ++ ·)

/-- What comes of running the program. -/
inductive Outcome where
  /-- The words on the command line cannot be used. -/
  | misuse
  /-- Help was asked for, which is no result. -/
  | help
  | done (output : String) (notes : List Note)
  | failed (step : Step) (cause : Cause) (notes : List Note)

namespace Outcome

/-- The exit code. -/
def code : Outcome → Nat
  | .misuse => 2
  | .help => 0
  | .done _ _ => 0
  | .failed _ _ _ => 1

/-- What is printed as the result. -/
def output : Outcome → String
  | .done output _ => output
  | _ => ""

/-- The messages of the error, from the outermost in. -/
def chain (json : Json.Diagnostics) : Outcome → List String
  | .failed step cause _ => step.text :: cause.chain json
  | _ => []

/-- The lines that tell of an error: its outermost message, and below it those of its causes. They
are counted from zero if there are several. -/
def errorLines (json : Json.Diagnostics) (o : Outcome) : List String :=
  match o.chain json with
  | [] => []
  | [message] => ["Error: " ++ message]
  | [message, cause] => ["Error: " ++ message, "", "Caused by:"] ++ causeLines none cause
  | message :: causes =>
    ["Error: " ++ message, "", "Caused by:"]
      ++ causes.zipIdx.flatMap fun (cause, n) => causeLines (some n) cause

/-- The notes that were taken. -/
def notes : Outcome → List Note
  | .done _ notes => notes
  | .failed _ _ notes => notes
  | _ => []

end Outcome

end SuitePlan.CommandLine
