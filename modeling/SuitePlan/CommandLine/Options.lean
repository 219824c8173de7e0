import SuitePlan.CommandLine.Argument

/-!
# Options of a command

A command says which options it has. Its words are read from the left, and the first that asks for
help or cannot be used settles the outcome.
-/

namespace SuitePlan.CommandLine

/-- What an option takes. -/
inductive Form where
  | nothing
  | text
  /-- A text that is not empty. -/
  | path
  deriving DecidableEq, Repr

/-- An option that a command has. -/
structure OptionSpec where
  name : String
  form : Form := .nothing
  /-- Whether the option may be given more than once. -/
  repeatable : Bool := false
  deriving DecidableEq, Repr

/-- The options that were given, with an empty value for those that take nothing. -/
structure Given where
  values : List (String × String) := []
  deriving DecidableEq, Repr

namespace Given

/-- The values of an option in the order in which they were given. -/
def all (g : Given) (name : String) : List String :=
  (g.values.filter fun v => v.1 == name).map Prod.snd

/-- The first value of an option. -/
def value? (g : Given) (name : String) : Option String :=
  (g.all name).head?

/-- Whether an option was given. -/
def has (g : Given) (name : String) : Bool :=
  (g.value? name).isSome

/-- The options with one more given, unless it must not be given again or its value is not of its
form. -/
def add? (g : Given) (spec : OptionSpec) (value : String) : Option Given :=
  if (!spec.repeatable && g.has spec.name) || (spec.form == .path && value.isEmpty) then none
  else some ⟨g.values ++ [(spec.name, value)]⟩

end Given

/-- What the words after a command come to. -/
inductive Reading where
  /-- The words cannot be used. -/
  | misuse
  | help
  | given (options : Given)
  deriving DecidableEq, Repr

/-- Reads the words after a command that has the given options, after those in `g`. -/
def readWords (specs : List OptionSpec) : List String → Given → Reading
  | [], g => .given g
  | word :: rest, g =>
    match Argument.ofWord word with
    | .mark => if rest.isEmpty then .given g else .misuse
    | .plain _ => .misuse
    | .letters c _ => if c = 'h' then .help else .misuse
    | .long name attached =>
      match specs.find? fun spec => spec.name == name, attached with
      | none, none => if name = "help" then .help else .misuse
      | none, some _ => .misuse
      | some spec, none =>
        if spec.form = .nothing then
          match g.add? spec "" with
          | none => .misuse
          | some g => readWords specs rest g
        else
          match rest with
          | [] => .misuse
          | next :: rest =>
            match (Argument.value? next).bind (g.add? spec) with
            | none => .misuse
            | some g => readWords specs rest g
      | some spec, some value =>
        if spec.form = .nothing then .misuse
        else
          match g.add? spec value with
          | none => .misuse
          | some g => readWords specs rest g

end SuitePlan.CommandLine
