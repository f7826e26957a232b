import TemplateMarkup.Files.Path

/-! A tree of files, and how paths lead through it. -/
namespace TemplateMarkup

/-- A file with its bytes, or a directory with its named entries. -/
inductive Entry where
  | file (bytes : List UInt8)
  /-- A file that may be neither read nor written. -/
  | locked
  /-- What stands in a directory that is not `listable` can still be reached by name. -/
  | directory (listable : Bool) (entries : List (String × Entry))

namespace Entry

def isDirectory : Entry → Bool
  | directory .. => true
  | file _ | locked => false

def child? (name : String) : Entry → Option Entry
  | directory _ entries => entries.lookup name
  | file _ | locked => none

/-- What stands below an entry at the end of some names. -/
def descend : List String → Entry → Option Entry
  | [], entry => some entry
  | name :: names, entry => (entry.child? name).bind (descend names)

/-- Puts an entry at the end of some names, and makes the directories that lead there. -/
def put (new : Entry) : List String → Entry → Entry
  | [], _ => new
  | name :: names, old =>
    let (listable, entries) :=
      match old with
      | directory listable entries => (listable, entries)
      | file _ | locked => (true, [])
    let inner := put new names ((entries.lookup name).getD (directory true []))
    if entries.any (·.1 == name) then
      directory listable (entries.map fun (n, e) => if n == name then (n, inner) else (n, e))
    else directory listable (entries ++ [(name, inner)])

end Entry

/-- Why a path cannot be read or written. -/
inductive PathFault where
  | missing | denied | notDirectory | isDirectory
  deriving DecidableEq

def PathFault.message : PathFault → String
  | missing => "No such file or directory (os error 2)"
  | denied => "Permission denied (os error 13)"
  | notDirectory => "Not a directory (os error 20)"
  | isDirectory => "Is a directory (os error 21)"

/-- All files below the top directory, and the names that lead from there to the working
directory. -/
structure Disk where
  top : Entry := .directory true []
  workingDir : List String := []

namespace Disk

def entryAt (disk : Disk) (names : List String) : Option Entry := disk.top.descend names

/-- Goes one step further from a place that has to be a directory. A dot stays there, and two dots
lead to the directory around it. -/
def step (disk : Disk) (place : List String) (piece : List Char) : Except PathFault (List String) :=
  match disk.entryAt place with
  | some (.directory ..) =>
    match Component.ofPiece piece with
    | .parent => .ok place.dropLast
    | .name name =>
      match disk.entryAt (place ++ [name]) with
      | some _ => .ok (place ++ [name])
      | none => .error .missing
    | _ => .ok place
  | some (.file _) | some .locked => .error .notDirectory
  | none => .error .missing

/-- Where a path starts. -/
def origin (disk : Disk) (path : String) : List String :=
  if path.toList.head? = some '/' then [] else disk.workingDir

/-- The pieces of a path that lead somewhere. -/
def stepsOf (path : String) : List (List Char) := (pieces path.toList).filter (· ≠ [])

def endsInSlash (path : String) : Bool := path.toList.getLast? = some '/'

/-- What a path leads to. One that ends with a slash leads to directories only. -/
def find (disk : Disk) (path : String) : Except PathFault Entry := do
  if path.isEmpty then throw .missing
  let place ← (stepsOf path).foldlM disk.step (disk.origin path)
  match disk.entryAt place with
  | some entry =>
    if endsInSlash path && !entry.isDirectory then throw .notDirectory
    return entry
  | none => throw .missing

def contents (disk : Disk) (path : String) : Except PathFault (List UInt8) := do
  match ← disk.find path with
  | .file bytes => return bytes
  | .locked | .directory false _ => throw .denied
  | .directory true _ => throw .isDirectory

def isFile (disk : Disk) (path : String) : Bool :=
  match disk.find path with
  | .ok (.file _) | .ok .locked => true
  | _ => false

/-- Writes a file into a directory that is there; the file may be new. -/
def writeFile (disk : Disk) (path : String) (bytes : List UInt8) : Except PathFault Disk := do
  match (stepsOf path).getLast? with
  | none => throw (if path.isEmpty then .missing else .isDirectory)
  | some piece =>
    let place ← (stepsOf path).dropLast.foldlM disk.step (disk.origin path)
    match disk.entryAt place with
    | some (.directory _ entries) =>
      match Component.ofPiece piece with
      | .name name =>
        match endsInSlash path, entries.lookup name with
        | true, _ => throw .isDirectory
        | false, some (.directory ..) => throw .isDirectory
        | false, some .locked => throw .denied
        | false, _ => return { disk with top := Entry.put (.file bytes) (place ++ [name]) disk.top }
      | _ => throw .isDirectory
    | some (.file _) | some .locked => throw .notDirectory
    | none => throw .missing

/-- Puts an entry where a path leads when every name on it is taken as a directory. -/
def mount (disk : Disk) (path : String) (entry : Entry) : Disk :=
  let place := (stepsOf path).foldl (fun place piece =>
    match Component.ofPiece piece with
    | .parent => place.dropLast
    | .name name => place ++ [name]
    | _ => place) (disk.origin path)
  { disk with top := Entry.put entry place disk.top }

end Disk

end TemplateMarkup
