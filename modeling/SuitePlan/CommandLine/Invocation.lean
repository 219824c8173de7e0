import SuitePlan.CommandLine.Options

/-!
# Invocations

What the words on the command line ask for: one of two commands, help, or the version.
-/

namespace SuitePlan.CommandLine

/-- What the command `compose` is asked to do. -/
structure ComposeRequest where
  /-- The file of the items. -/
  items : String
  /-- The file of the settings. -/
  config : Option String := none
  /-- The overrides of settings. -/
  overrides : List String := []
  json : Bool := false
  verbose : Bool := false
  deriving DecidableEq, Repr

/-- What the command `resolve` is asked to do. -/
structure ResolveRequest where
  profile : String
  directory : Option String := none
  name : Option String := none
  json : Bool := false
  verbose : Bool := false
  deriving DecidableEq, Repr

/-- What the command line asks for. -/
inductive Invocation where
  /-- The words cannot be used. -/
  | misuse
  | help
  | version
  | compose (request : ComposeRequest)
  | resolve (request : ResolveRequest)
  deriving DecidableEq, Repr

/-- The options of both commands. -/
def commonOptions : List OptionSpec := [⟨"json", .nothing, false⟩, ⟨"verbose", .nothing, false⟩]

/-- The options of the command `compose`. -/
def composeOptions : List OptionSpec :=
  [⟨"items", .path, false⟩, ⟨"config", .path, false⟩, ⟨"set", .text, true⟩] ++ commonOptions

/-- The options of the command `resolve`. -/
def resolveOptions : List OptionSpec :=
  [⟨"profile", .text, false⟩, ⟨"profile-dir", .path, false⟩, ⟨"profile-name", .text, false⟩]
    ++ commonOptions

/-- The request that options give to `compose`, which needs the file of the items. -/
def ComposeRequest.ofGiven? (g : Given) : Option ComposeRequest :=
  (g.value? "items").map fun items =>
    ⟨items, g.value? "config", g.all "set", g.has "json", g.has "verbose"⟩

/-- The request that options give to `resolve`, which needs the profile. -/
def ResolveRequest.ofGiven? (g : Given) : Option ResolveRequest :=
  (g.value? "profile").map fun profile =>
    ⟨profile, g.value? "profile-dir", g.value? "profile-name", g.has "json", g.has "verbose"⟩

namespace Invocation

/-- What the words after a command ask for. -/
def ofReading (command? : Given → Option Invocation) : Reading → Invocation
  | .misuse => misuse
  | .help => help
  | .given g => (command? g).getD misuse

/-- What the words after `help` ask for: at most one of them, which is a command. -/
def ofTopic : List String → Invocation
  | [] => help
  | [topic] => if topic ∈ ["compose", "resolve", "help"] then help else misuse
  | _ => misuse

/-- What the command line asks for. -/
def ofWords : List String → Invocation
  | [] => misuse
  | word :: rest =>
    match Argument.ofWord word with
    | .plain command =>
      if command = "compose" then
        ofReading (fun g => (ComposeRequest.ofGiven? g).map compose)
          (readWords composeOptions rest ⟨[]⟩)
      else if command = "resolve" then
        ofReading (fun g => (ResolveRequest.ofGiven? g).map resolve)
          (readWords resolveOptions rest ⟨[]⟩)
      else if command = "help" then ofTopic rest
      else misuse
    | .long name none =>
      if name = "help" then help else if name = "version" then version else misuse
    | .letters c _ => if c = 'h' then help else if c = 'V' then version else misuse
    | _ => misuse

end Invocation

end SuitePlan.CommandLine
