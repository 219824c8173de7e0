/-!
# Files

Planning a run reads a few files and writes none, so a file system is what it answers about a path:
whether a file is there, and what is read from it or why it cannot be. A file that is there need not
be one that can be read.
-/

namespace SuitePlan

/-- Why a path cannot be read as a file or as text. -/
inductive ReadFault where
  | notFound
  | permissionDenied
  | isDirectory
  | notDirectory
  | notUtf8
  | nulInPath
  | nameTooLong
  /-- Any other fault, with its number and what the operating system says about it. -/
  | other (number : Nat) (text : String)
  deriving DecidableEq, Repr

/-- What the operating system, or the text decoder, says about a fault. -/
def ReadFault.message : ReadFault → String
  | .notFound => "No such file or directory (os error 2)"
  | .permissionDenied => "Permission denied (os error 13)"
  | .isDirectory => "Is a directory (os error 21)"
  | .notDirectory => "Not a directory (os error 20)"
  | .notUtf8 => "stream did not contain valid UTF-8"
  | .nulInPath => "file name contained an unexpected NUL byte"
  | .nameTooLong => "File name too long (os error 36)"
  | .other number text => s!"{text} (os error {number})"

/-- The text that a sequence of bytes encodes in UTF-8. -/
def readUtf8 (bytes : ByteArray) : Except ReadFault String :=
  match String.fromUTF8? bytes with
  | some s => .ok s
  | none => .error .notUtf8

theorem fromUTF8?_toUTF8 (s : String) : String.fromUTF8? s.toUTF8 = some s :=
  dif_pos s.isValidUTF8

@[simp] theorem readUtf8_toUTF8 (s : String) : readUtf8 s.toUTF8 = .ok s := by
  rw [readUtf8, fromUTF8?_toUTF8]

/-- A file system. -/
structure Files where
  /-- The content of a path, or why it cannot be read. -/
  read : String → Except ReadFault ByteArray
  /-- Whether a path leads to a file, be it readable or not. -/
  isFile : String → Bool

namespace Files

/-- The file system without any files. -/
def empty : Files where
  read _ := .error .notFound
  isFile _ := false

/-- The content of a file as text. -/
def readText (files : Files) (path : String) : Except ReadFault String := do
  readUtf8 (← files.read path)

/-- The path of `name` in the directory `dir`. A name that starts at the root is a path of its own,
and an empty directory is the working directory. -/
def join (dir name : String) : String :=
  if name.toList.head? = some '/' then name
  else if dir.isEmpty then name
  else if dir.toList.getLast? = some '/' then dir ++ name
  else dir ++ "/" ++ name

end Files

end SuitePlan
