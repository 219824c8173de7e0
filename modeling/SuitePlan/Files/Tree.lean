import SuitePlan.Files.Basic
import SuitePlan.Text.Pieces

/-!
# Directory trees

A directory tree as a value, with the working directory at its top. A path is followed name by name:
`.` and an empty name stay, `..` goes back up, and each of them, like any name, needs a directory to
stand in. Outside the working directory nothing is known, and every name there is not found.
-/

namespace SuitePlan

/-- A file with its content, or a directory with the nodes in it. -/
inductive Node where
  | file (content : ByteArray)
  | directory (children : List (String × Node))

/-- Where a path leads: to a place below the working directory, given by the names on the way to it,
or out of the working directory. -/
inductive Place where
  | inside (names : List String)
  | outside
  deriving DecidableEq, Repr

namespace Place

/-- The place above this one. -/
def up : Place → Place
  | .inside [] => .outside
  | .inside names => .inside names.dropLast
  | .outside => .outside

/-- The most bytes that a path may have. -/
def pathLimit : Nat := 4095

/-- The place where a path starts. -/
def start (path : String) : Except ReadFault Place :=
  if path.toList.contains '\x00' then .error .nulInPath
  else if path.isEmpty then .error .notFound
  else if pathLimit < path.utf8ByteSize then .error .nameTooLong
  else if path.toList.head? = some '/' then .ok .outside
  else .ok (.inside [])

end Place

namespace Node

/-! ## Nodes at places -/

/-- The child of the given name. -/
def child? (name : String) : List (String × Node) → Option Node
  | [] => none
  | (other, node) :: rest => if other = name then some node else child? name rest

/-- The children with `node` under the given name. -/
def putChild (name : String) (node : Node) : List (String × Node) → List (String × Node)
  | [] => [(name, node)]
  | (other, old) :: rest =>
    if other = name then (other, node) :: rest else (other, old) :: putChild name node rest

/-- The node that the given names lead to from this one. -/
def at? : List String → Node → Option Node
  | [], node => some node
  | name :: rest, .directory children =>
    match child? name children with
    | some node => at? rest node
    | none => none
  | _ :: _, .file _ => none

/-- Puts a node where the given names lead to. Missing directories on the way are made, and a file
in the way gives place to one. -/
def put (node : Node) : List String → Node → Node
  | [], _ => node
  | name :: rest, .directory children =>
    let child := (child? name children).getD (.directory [])
    .directory (putChild name (put node rest child) children)
  | name :: rest, .file _ => .directory [(name, put node rest (.directory []))]

/-- Removes the node that the given names lead to. -/
def erase : List String → Node → Node
  | [], node => node
  | [name], .directory children => .directory (children.filter fun c => c.1 != name)
  | name :: rest, .directory children =>
    match child? name children with
    | some node => .directory (putChild name (erase rest node) children)
    | none => .directory children
  | _, .file content => .file content

/-- The node at a place. Outside the tree every place is an empty directory. -/
def atPlace? (top : Node) : Place → Option Node
  | .inside names => top.at? names
  | .outside => some (.directory [])

/-! ## Paths -/

/-- The names of a path, empty ones included. -/
def names (path : String) : List String :=
  (Text.pieces '/' path.toList).map String.ofList

/-- The most bytes that one name of a path may have. -/
def nameLimit : Nat := 255

/-- Where a name leads from a place, which has to be a directory. Nothing needs to stand there. -/
def step (top : Node) (place : Place) (name : String) : Except ReadFault Place :=
  match top.atPlace? place with
  | none => .error .notFound
  | some (.file _) => .error .notDirectory
  | some (.directory _) =>
    if name = "" ∨ name = "." then .ok place
    else if name = ".." then .ok place.up
    else if nameLimit < name.utf8ByteSize then .error .nameTooLong
    else
      match place with
      | .inside names => .ok (.inside (names ++ [name]))
      | .outside => .error .notFound

/-- The place that a path leads to. -/
def locate (top : Node) (path : String) : Except ReadFault Place := do
  (names path).foldlM top.step (← Place.start path)

/-! ## Reading -/

/-- Reads the file at a path, taken from the top of this tree. -/
def read (top : Node) (path : String) : Except ReadFault ByteArray := do
  match top.atPlace? (← top.locate path) with
  | some (.file content) => .ok content
  | some (.directory _) => .error .isDirectory
  | none => .error .notFound

/-- Whether a path leads to a file. All files of a tree can be read. -/
def isFile (top : Node) (path : String) : Bool :=
  (top.read path).isOk

/-- The file system that a tree holds. -/
def files (top : Node) : Files := ⟨top.read, top.isFile⟩

/-! ## Changing -/

/-- Follows a name from a place and makes a directory where it leads if nothing stands there. -/
def enter (reached : Place × Node) (name : String) : Except ReadFault (Place × Node) := do
  let (place, top) := reached
  let next ← top.step place name
  match next, top.atPlace? next with
  | .inside names, none => .ok (next, put (.directory []) names top)
  | _, _ => .ok (next, top)

/-- The tree with a directory at a path and wherever the path passes. What stands there already
stays. -/
def makeDirectory (top : Node) (path : String) : Except ReadFault Node := do
  let (place, top) ← (names path).foldlM enter (← Place.start path, top)
  match top.atPlace? place with
  | some (.directory _) => .ok top
  | _ => .error .notDirectory

/-- The tree with a file at a path, in a directory that is made if it is missing. -/
def write (top : Node) (path : String) (content : ByteArray) : Except ReadFault Node := do
  let names := names path
  let (place, top) ← names.dropLast.foldlM enter (← Place.start path, top)
  let place ← top.step place (names.getLastD "")
  match place, top.atPlace? place with
  | _, some (.directory _) => .error .isDirectory
  | .inside names, _ => .ok (put (.file content) names top)
  | .outside, _ => .error .notFound

/-- The tree without the file or directory at a path. -/
def remove (top : Node) (path : String) : Except ReadFault Node := do
  let place ← top.locate path
  match place, top.atPlace? place with
  | .inside (name :: rest), some _ => .ok (erase (name :: rest) top)
  | _, _ => .error .notFound

end Node

end SuitePlan
