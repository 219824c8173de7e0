import SuitePlan.Catalog.Entry
import SuitePlan.Catalog.Fault
import SuitePlan.Json.Reader

/-!
# Reading catalogs

A catalog is read from a draft of its JSON text in the order of the text, so that the first fault is
reported, be it one of form or one of meaning. Only an entry of a profile is read whole before it is
judged.

A part is an object, whose fields may be given in any order but once, or an array of the values of
its fields in their order. A field that is not given takes its default. Of several profiles with one
name the last one counts.
-/

namespace SuitePlan.Catalog

open Json (Draft)

/-- The fault of a draft that stands where something else is expected. -/
def mismatch (d : Draft) (sought : Sought) : Fault :=
  match d with
  | .fault => .malformedText
  | .scalar s => .unexpected (.scalar s) sought
  | .array _ _ => .unexpected .array sought
  | .object _ _ => .unexpected .object sought

/-- What was read of an array or object, if its end was read too. -/
def ifClosed (closed : Bool) (a : α) : Except Fault α :=
  if closed then .ok a else .error .malformedText

/-- Reads a text. -/
def readString : Draft → Except Fault String
  | .scalar (.string s) => .ok s
  | d => .error (mismatch d .string)

/-- Reads a number of runs. -/
def readCount : Draft → Except Fault UInt64
  | .scalar (.number (.integer n)) =>
    if n < 0 then .error (.negativeCount n) else .ok (UInt64.ofNat n.toNat)
  | d => .error (mismatch d .count)

/-- Reads what may also be null. -/
def readOptional (read : Draft → Except Fault α) : Draft → Except Fault (Option α)
  | .scalar .null => .ok none
  | d => (read d).map some

/-! ## Parts -/

/-- Reads members into the fields of a part, some of which have been `seen` already. -/
def readMembers (part : Part) (assign : String → Draft → α → Except Fault α) :
    List String → List (String × Draft) → α → Except Fault α
  | _, [], a => .ok a
  | seen, (key, d) :: rest, a =>
    if key ∉ part.fields then .error (.unknownField key part)
    else if key ∈ seen then .error (.repeatedField key)
    else
      match assign key d a with
      | .error fault => .error fault
      | .ok a => readMembers part assign (key :: seen) rest a

/-- Reads items into the given fields in their order. -/
def readItems (assign : String → Draft → α → Except Fault α) :
    List String → List Draft → α → Except Fault α
  | _, [], a => .ok a
  | [], _ :: _, _ => .error .malformedText
  | field :: fields, d :: rest, a =>
    match assign field d a with
    | .error fault => .error fault
    | .ok a => readItems assign fields rest a

/-- Reads a part, starting from the defaults of its fields. -/
def readPart (part : Part) (assign : String → Draft → α → Except Fault α) (blank : α) :
    Draft → Except Fault α
  | .object members closed => do ifClosed closed (← readMembers part assign [] members blank)
  | .array items closed => do ifClosed closed (← readItems assign part.fields items blank)
  | d => .error (mismatch d (.part part))

/-! ## Profiles -/

/-- Reads an entry of a profile. -/
def readEntry (d : Draft) : Except Fault Entry :=
  match d.value? with
  | none => .error .malformedText
  | some v =>
    match Entry.ofValue? v with
    | none => .error .unmatchedEntry
    | some e => .ok e

/-- Reads entries in their order. -/
def readEach : List Draft → Except Fault (List Entry)
  | [] => .ok []
  | d :: rest => do return (← readEntry d) :: (← readEach rest)

/-- Reads the entries of a profile. -/
def readEntries : Draft → Except Fault (List Entry)
  | .array items closed => do ifClosed closed (← readEach items)
  | d => .error (mismatch d .sequence)

/-- Reads a profile. Its entries are its only field. -/
def readProfile : Draft → Except Fault (List Entry) :=
  readPart .profile (fun _ d _ => readEntries d) []

/-- Reads profiles with their names. -/
def readNamed : List (String × Draft) → Except Fault (List (String × List Entry))
  | [] => .ok []
  | (name, d) :: rest => do return (name, ← readProfile d) :: (← readNamed rest)

/-- Reads the profiles of a catalog. -/
def readProfiles : Draft → Except Fault (Table (List Entry))
  | .object members closed => do ifClosed closed (.ofList (← readNamed members))
  | d => .error (mismatch d .map)

/-! ## Catalogs -/

/-- Reads one field of a catalog. -/
def assign (field : String) (d : Draft) (c : Catalog) : Except Fault Catalog :=
  if field = "entry" then do return { c with entry := ← readOptional readString d }
  else if field = "count" then do return { c with count := ← readOptional readCount d }
  else do return { c with profiles := ← readProfiles d }

/-- The catalog that a draft denotes. -/
def ofDraft : Draft → Except Fault Catalog :=
  readPart .catalog assign default

/-- The catalog that a whole text denotes. -/
def ofText (text : String) : Except Fault Catalog := do
  let (d, rest) := Draft.ofText text.toList
  let c ← ofDraft d
  match rest with
  | some rest => if (Json.skip rest).isEmpty then .ok c else .error .malformedText
  | none => .error .malformedText

end SuitePlan.Catalog
