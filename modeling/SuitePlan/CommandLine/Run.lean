import SuitePlan.CommandLine.Invocation
import SuitePlan.CommandLine.Items
import SuitePlan.CommandLine.Outcome
import SuitePlan.Pipeline
import SuitePlan.Settings.Overrides
import SuitePlan.Settings.Reader

/-!
# Running the program

The command `compose` loads settings, applies the overrides to them, reads the items, builds the
pipeline and composes the suite, in this order; the command `resolve` resolves a profile. Each
prints its result as plain lines or as JSON.
-/

namespace SuitePlan.CommandLine

/-- What the program finds around it. -/
structure Terminal where
  files : Files
  /-- What is read from the standard input, or why it cannot be read. -/
  input : Except ReadFault ByteArray
  /-- Seeds for whoever needs one that is not given. -/
  seeds : Nat → Int64

/-- The text of the standard input. -/
def Terminal.inputText (t : Terminal) : Except ReadFault String := do
  readUtf8 (← t.input)

/-- The indented JSON text of a value, with a line break at its end. -/
def jsonOutput (v : Json.Value) : String :=
  v.indentedText ++ "\n"

/-! ## Composing -/

/-- Whether a path stands for the standard input: a dash, with nothing but separators and dots
after it. -/
def isInput (path : String) : Bool :=
  match Text.pieces '/' path.toList with
  | ['-'] :: rest => rest.all fun name => name == [] || name == ['.']
  | _ => false

/-- The text of the items. -/
def itemsText (t : Terminal) (path : String) : Except (Step × Cause) String :=
  if isInput path then t.inputText.mapError fun fault => (.readInput, .file fault)
  else (t.files.readText path).mapError fun fault => (.readItems path, .file fault)

/-- The settings that a request starts from. -/
def baseSettings (t : Terminal) : Option String → Except (Step × Cause) Settings
  | none => .ok .empty
  | some path =>
    (Settings.load t.files path).mapError fun e => (.loadSettings path, .failure (.settings e))

/-- The settings that a request composes under. -/
def prepareSettings (t : Terminal) (r : ComposeRequest) : Except (Step × Cause) Settings := do
  let base ← baseSettings t r.config
  (base.override r.overrides).mapError fun e => (.override, .failure (.settings e))

/-- What is needed to compose: the settings, the pipeline and the items. -/
def prepare (t : Terminal) (r : ComposeRequest) :
    Except (Step × Cause) (Settings × Pipeline String × List String) := do
  let s ← prepareSettings t r
  let text ← itemsText t r.items
  let p ← (Pipeline.ofSettings s).mapError fun e => (.buildPipeline, .failure (.settings e))
  return (s, p, readItems text)

/-- How a composition is printed. -/
def composeOutput (json : Bool) (c : Composition String) : String :=
  if json then jsonOutput c.toValue else writeLines c.items

/-- Runs the command `compose`. -/
def compose (t : Terminal) (r : ComposeRequest) : Outcome :=
  match prepare t r with
  | .error (step, cause) => .failed step cause []
  | .ok (s, p, items) =>
    let notes := p.notes t.files t.seeds s items
    match p.compose t.files t.seeds s items with
    | .error f => .failed .compose (.failure f) notes
    | .ok c => .done (composeOutput r.json c) notes

/-! ## Resolving -/

/-- The settings that a request gives. -/
def resolveSettings (r : ResolveRequest) : Settings :=
  .ofList ([(Source.option, r.profile)]
    ++ (r.directory.map fun directory => (Source.directoryOption, directory)).toList
    ++ (r.name.map fun name => (Source.nameOption, name)).toList)

/-- The line of a run. -/
def runLine (run : Run) : String :=
  run.scenario ++ "\t" ++ run.placement.name ++ "\t" ++ run.profile

/-- The JSON value of a run. -/
def runValue (run : Run) : Json.Value :=
  .object [("scenario", .ofString run.scenario), ("schedule", .ofString run.placement.name),
    ("profile", .ofString run.profile)]

/-- The JSON value of a lineup. -/
def lineupValue (l : Lineup) : Json.Value :=
  .object [("profile", .ofString l.name), ("scenarios", .array (l.runs.map runValue))]

/-- How a lineup is printed. -/
def resolveOutput (json : Bool) (l : Lineup) : String :=
  if json then jsonOutput (lineupValue l) else writeLines (l.runs.map runLine)

/-- Runs the command `resolve`. -/
def resolve (t : Terminal) (r : ResolveRequest) : Outcome :=
  let s := resolveSettings r
  let notes := Stage.profileNotes t.files s
  match s.lineup? t.files with
  | .error f => .failed .resolve (.failure f) notes
  | .ok (some l) => .done (resolveOutput r.json l) notes
  | .ok none => .failed .requireProfile .none notes

/-! ## The program -/

/-- The name of the program and its version. -/
def versionText : String := "scompose 0.1.0\n"

/-- How the program is used. -/
def usageLines : List String :=
  ["Usage:",
    "  scompose compose --items PATH [--config PATH] [--set KEY=VALUE]... [--json] [--verbose]",
    "  scompose resolve --profile PROFILE [--profile-dir DIR] [--profile-name NAME] [--json] "
      ++ "[--verbose]",
    "  scompose --help | --version"]

/-- Whether an invocation asks for detailed notes. -/
def Invocation.verbose : Invocation → Bool
  | .compose r => r.verbose
  | .resolve r => r.verbose
  | _ => false

/-- Does what the command line asks for. -/
def run (t : Terminal) : Invocation → Outcome
  | .misuse => .misuse
  | .help => .help
  | .version => .done versionText []
  | .compose r => compose t r
  | .resolve r => resolve t r

/-- The files that an invocation may read, as far as the files at hand tell. -/
def paths (t : Terminal) : Invocation → List String
  | .compose r =>
    let named := match prepareSettings t r with
      | .ok s => Source.paths s
      | .error _ => []
    r.config.toList ++ [r.items] ++ named
  | .resolve r => Source.paths (resolveSettings r)
  | _ => []

end SuitePlan.CommandLine
