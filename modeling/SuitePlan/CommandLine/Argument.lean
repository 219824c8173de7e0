import SuitePlan.Text.Pieces

/-!
# Arguments

The form of a word on the command line: a long option, perhaps with a value attached, a group of
one-letter options, the mark after which no options follow, or a plain word.
-/

namespace SuitePlan.CommandLine

/-- A word on the command line. -/
inductive Argument where
  /-- Two dashes alone. -/
  | mark
  /-- Two dashes and a name, and what follows an equals sign after the name. -/
  | long (name : String) (value? : Option String)
  /-- One dash and one or more letters. -/
  | letters (first : Char) (rest : List Char)
  | plain (word : String)
  deriving DecidableEq, Repr

namespace Argument

/-- The form of a long option whose dashes have been taken off. -/
def ofLong (cs : List Char) : Argument :=
  match Text.cut? '=' cs with
  | none => .long (String.ofList cs) none
  | some (name, value) => .long (String.ofList name) (some (String.ofList value))

/-- The form of a word. A dash alone is a plain word. -/
def ofWord (word : String) : Argument :=
  match word.toList with
  | ['-', '-'] => .mark
  | '-' :: '-' :: rest => ofLong rest
  | '-' :: c :: rest => .letters c rest
  | _ => .plain word

/-- The value that a word is, if it stands after an option that takes one. -/
def value? (word : String) : Option String :=
  match ofWord word with
  | .plain value => some value
  | _ => none

end Argument

end SuitePlan.CommandLine
