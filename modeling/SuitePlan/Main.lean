import SuitePlan.CommandLine.Run

/-!
# The program

Reads the files that an invocation may need, runs it on their content, and prints what comes of it.
-/

namespace SuitePlan.CommandLine

/-- Why an operation on a file failed. -/
def faultOf : IO.Error → ReadFault
  | .noFileOrDirectory _ _ _ => .notFound
  | .permissionDenied _ 13 _ => .permissionDenied
  | .inappropriateType _ 21 _ => .isDirectory
  | .inappropriateType _ 20 _ => .notDirectory
  | .invalidArgument _ 36 _ => .nameTooLong
  | .alreadyExists _ code text | .otherError code text | .resourceBusy code text
  | .resourceVanished code text | .unsupportedOperation code text | .hardwareFault code text
  | .unsatisfiedConstraints code text | .illegalOperation code text | .protocolError code text
  | .timeExpired code text | .interrupted _ code text | .invalidArgument _ code text
  | .permissionDenied _ code text | .resourceExhausted _ code text
  | .inappropriateType _ code text | .noSuchThing _ code text => .other code.toNat text
  | .unexpectedEof => .other 0 "unexpected end of file"
  | .userError text => .other 0 text

/-- What the file system answers about a path. -/
structure Answer where
  content : Except ReadFault ByteArray
  isFile : Bool

/-- Asks the file system about a path. -/
def ask (path : String) : IO Answer := do
  if path.toList.contains '\x00' then return ⟨.error .nulInPath, false⟩
  let isFile ← try
      let data ← ((← IO.currentDir) / path).metadata
      pure (data.type == .file)
    catch _ => pure false
  try
    return ⟨.ok (← IO.FS.readBinFile path), isFile⟩
  catch e =>
    return ⟨.error (faultOf e), isFile⟩

/-- The files of which the answers are known. All others are not found. -/
def knownFiles (known : List (String × Answer)) : Files where
  read path := ((Table.lookup path known).map Answer.content).getD (.error .notFound)
  isFile path := ((Table.lookup path known).map Answer.isFile).getD false

/-- Adds the answers about those files that an invocation may read to what is known. -/
def gather (t : Terminal) (i : Invocation) (known : List (String × Answer)) :
    IO (List (String × Answer)) := do
  let mut known := known
  for path in paths { t with files := knownFiles known } i do
    if (Table.lookup path known).isNone then
      known := (path, ← ask path) :: known
  return known

/-- What an invocation reads from the standard input. -/
def inputOf : Invocation → IO (Except ReadFault ByteArray)
  | .compose r => do
    if !isInput r.items then return .ok .empty
    try
      return .ok (← (← IO.getStdin).readBinToEnd)
    catch e =>
      return .error (faultOf e)
  | _ => return .ok .empty

/-- A seed from a source of randomness. -/
def randomSeed : IO Int64 := do
  let bytes ← IO.getRandomBytes 8
  return Int64.ofNat (bytes.foldl (fun n b => 256 * n + b.toNat) 0)

/-- Runs an invocation on the files around it. -/
def perform (i : Invocation) : IO Outcome := do
  let seed ← randomSeed
  let t : Terminal := ⟨knownFiles [], ← inputOf i, fun _ => seed⟩
  -- What is in the file of the settings tells which other files may be read.
  let known ← gather t i []
  let known ← gather t i known
  return run { t with files := knownFiles known } i

/-- What is said of texts that are refused: that their form is wrong, but not where. -/
def diagnostics : Json.Diagnostics where
  ofBytes _ := ⟨"malformed JSON", none⟩
  ofCatalog _ := ⟨"malformed JSON", none⟩

end SuitePlan.CommandLine

open SuitePlan SuitePlan.CommandLine in
/-- Does what the words on the command line ask for. -/
def main (words : List String) : IO UInt32 := do
  let i := Invocation.ofWords words
  let outcome ← perform i
  for line in Note.lines diagnostics i.verbose outcome.notes do
    IO.eprintln line
  match outcome with
  | .misuse => usageLines.forM fun line => IO.eprintln line
  | .help => usageLines.forM fun line => IO.println line
  | _ =>
    IO.print outcome.output
    (outcome.errorLines diagnostics).forM fun line => IO.eprintln line
  return UInt32.ofNat outcome.code
