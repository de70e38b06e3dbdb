import Caret.Text.Quoted
/-!
# `Caret.Files` — paths, and what stands at them

Paths are resolved by their text: a relative path starts at the working directory, a single point stands for where
it is, and two points lead one level up.

## Contents
- **Paths.** `Path.resolve`, `Path.join`.
- **Entries.** `Entry` is what stands at a path: the content of a file, or a `ReadError`.
- **Snapshots.** `Snapshot` gives the entries below a working directory from a list of files.
-/

namespace Caret

namespace Path

/-- The parts of a path between slashes; empty parts and single points are left out. -/
def parts (path : String) : List String :=
  ((path.splitOn "/").filter fun part => part != "" && part != ".")

/-- Walks along parts, two points leading one level up. -/
def walk (start : List String) : List String → List String
  | [] => start
  | part :: rest => walk (if part = ".." then start.dropLast else start ++ [part]) rest

/-- The path starts at the root. -/
def isAbsolute (path : String) : Bool := path.toList.head? == some '/'

/-- A path with the parts of another one after it. -/
def join (path name : String) : String := if path = "/" then path ++ name else path ++ "/" ++ name

/-- The path in full, seen from a working directory. -/
def resolve (directory path : String) : String :=
  let start := if isAbsolute path then [] else parts directory
  let root := if isAbsolute path || isAbsolute directory then "/" else ""
  root ++ String.intercalate "/" (walk start (parts path))

/-- A path whose first part is a tilde starts at the home directory. -/
def expandHome (home : Option String) (path : String) : String :=
  match home, path.toList with
  | some home, ['~'] => home
  | some home, '~' :: '/' :: rest => home ++ "/" ++ String.ofList rest
  | _, _ => path

end Path

/-- Why there is no file to read at a path. -/
inductive ReadError where
  | missing
  /-- A file stands on the way to the path. -/
  | blocked
  | directory
  /-- Another reason that the system gives, with its number and its words. -/
  | other (code : Nat) (words : String)
  deriving DecidableEq, Repr

/-- The number and the words for a reason. -/
def ReadError.text : ReadError → String
  | .missing => "[Errno 2] No such file or directory"
  | .blocked => "[Errno 20] Not a directory"
  | .directory => "[Errno 21] Is a directory"
  | .other code words => "[Errno " ++ toString code ++ "] " ++ words

namespace ReadError

/-- What is said of a path at which there is no file to read. -/
def message (path : String) (reason : ReadError) : String := reason.text ++ ": " ++ Text.quoted path

/-- Asked whether there is a file, the system says no. The two numbers are those of a bad descriptor and of links that
lead in a circle. -/
def isAbsence : ReadError → Bool
  | .missing | .blocked | .directory => true
  | .other code _ => code == 9 || code == 40

end ReadError

/-- What stands at a path: the content of a file, or the reason why there is none. -/
abbrev Entry := Except ReadError ByteArray

/-- The files and directories below a working directory. -/
structure Snapshot where
  directory : String
  /-- The parts of each path, seen from the directory, with the content of a file; a directory has none. -/
  entries : List (List String × Option ByteArray)

namespace Snapshot

/-- What stands at a path below the directory. -/
def below (s : Snapshot) (parts : List String) : Entry :=
  match s.entries.lookup parts with
  | some (some content) => .ok content
  | some none => .error .directory
  | none =>
    if s.entries.any fun e => e.2.isSome && e.1.isPrefixOf parts then .error .blocked
    else if parts.isEmpty || s.entries.any fun e => parts.isPrefixOf e.1 then .error .directory
    else .error .missing

/-- What stands at a full path. Of what lies outside the directory, only the root is known. -/
def entry (s : Snapshot) (path : String) : Entry :=
  let base := Path.parts s.directory
  let parts := Path.parts path
  if base.isPrefixOf parts then s.below (parts.drop base.length)
  else if parts.isEmpty then .error .directory
  else .error .missing

end Snapshot
end Caret
