import Ensemble.Text.Utf8
import Ensemble.Text.Blank

/-!
# Files

A file tree is kept flat: every entry stands under its path from the root. A text names a path
relative to a directory; finding it needs every directory on the way.
-/

namespace Ensemble.Posix

/-- The names from the root down. -/
abbrev Path := List String

def Path.text (p : Path) : String := "/" ++ "/".intercalate p

inductive Entry where
  | directory
  | file (content : List UInt8) (executable : Bool)
  | program (name : String)
  /-- Takes everything and gives nothing. -/
  | void
  /-- A number of the system. What is written replaces it. -/
  | number (n : Nat)
deriving DecidableEq

def Entry.content : Entry → List UInt8
  | .file content _ => content
  | .number n => Text.Utf8.encode s!"{n}\n"
  | _ => []

inductive FileFault where
  | noEntry
  | notDirectory
  | isDirectory
  | denied
  | alreadyThere
  | notEmpty
deriving DecidableEq

namespace FileFault

def message : FileFault → String
  | .noEntry => "No such file or directory"
  | .notDirectory => "Not a directory"
  | .isDirectory => "Is a directory"
  | .denied => "Permission denied"
  | .alreadyThere => "File exists"
  | .notEmpty => "Directory not empty"

def number : FileFault → Nat
  | .noEntry => 2
  | .notDirectory => 20
  | .isDirectory => 21
  | .denied => 13
  | .alreadyThere => 17
  | .notEmpty => 39

end FileFault

/-- The root is always there and has no entry. -/
structure Files where
  entries : List (Path × Entry) := []

namespace Files

def get? (fs : Files) (p : Path) : Option Entry :=
  if p.isEmpty then some .directory else fs.entries.lookup p

def isDirectory (fs : Files) (p : Path) : Bool := fs.get? p == some .directory

def put (fs : Files) (p : Path) (e : Entry) : Files :=
  ⟨fs.entries.filter (fun old => old.1 != p) ++ [(p, e)]⟩

/-- Removes an entry and everything below it. -/
def remove (fs : Files) (p : Path) : Files :=
  ⟨fs.entries.filter fun e => !p.isPrefixOf e.1⟩

def names (fs : Files) (p : Path) : List String :=
  (fs.entries.filterMap fun e =>
    if p.isPrefixOf e.1 && e.1.length == p.length + 1 then e.1.getLast? else none).mergeSort
      fun a b => decide (¬ b < a)

/-- Follows names from a directory. The last one need not exist. -/
def walk (fs : Files) (p : Path) : List String → Except FileFault Path
  | [] => .ok p
  | name :: rest =>
    match fs.get? p with
    | none => .error .noEntry
    | some .directory =>
      if name = "" ∨ name = "." then walk fs p rest
      else if name = ".." then walk fs p.dropLast rest
      else walk fs (p ++ [name]) rest
    | some _ => .error .notDirectory

def resolve (fs : Files) (directory : Path) (text : String) : Except FileFault Path :=
  match text.toList with
  | [] => .error .noEntry
  | '/' :: _ => fs.walk [] (text.splitOn "/")
  | _ => fs.walk directory (text.splitOn "/")

def find (fs : Files) (directory : Path) (text : String) : Except FileFault (Path × Entry) := do
  let p ← fs.resolve directory text
  match fs.get? p with
  | some e => return (p, e)
  | none => throw .noEntry

def exists? (fs : Files) (directory : Path) (text : String) : Bool :=
  (fs.find directory text).toBool

def findDirectory (fs : Files) (directory : Path) (text : String) : Except FileFault Path := do
  match ← fs.find directory text with
  | (p, .directory) => return p
  | _ => throw .notDirectory

def read (fs : Files) (directory : Path) (text : String) : Except FileFault (List UInt8) := do
  match ← fs.find directory text with
  | (_, .directory) => throw .isDirectory
  | (_, e) => return e.content

/-- Makes a name ready to be written; an existing file is emptied unless `keep`. -/
def openToWrite (fs : Files) (directory : Path) (text : String) (keep : Bool) :
    Except FileFault (Path × Files) := do
  let p ← fs.resolve directory text
  match fs.get? p with
  | some .directory => throw .isDirectory
  | some (.file _ executable) => return (p, if keep then fs else fs.put p (.file [] executable))
  | some _ => return (p, fs)
  | none =>
    if fs.isDirectory p.dropLast then return (p, fs.put p (.file [] false)) else throw .noEntry

def append (fs : Files) (p : Path) (bytes : List UInt8) : Files :=
  match fs.get? p with
  | some (.file content executable) => fs.put p (.file (content ++ bytes) executable)
  | some (.number n) => fs.put p (.number ((Text.trim (Text.Utf8.decodeLossy bytes)).toNat?.getD n))
  | _ => fs

end Files

end Ensemble.Posix
