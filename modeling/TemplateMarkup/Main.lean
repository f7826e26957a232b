import TemplateMarkup.Command.Plan

/-! The command: takes the named files into memory, and does what is planned for them. -/
namespace TemplateMarkup

/-- What an action gives, if it may be done. -/
def ifPermitted {α : Type} (action : IO α) : IO (Option α) := do
  try
    return some (← action)
  catch error =>
    match error with
    | .permissionDenied .. => return none
    | _ => throw error

/-- What stands at a path, if anything does. Only the content of template files, and of the file at
the path itself if it is `wanted`, is read. -/
partial def loadEntry (wanted : Bool) (path : String) : IO (Option Entry) := do
  let place := (← IO.currentDir) / path
  if ← place.isDir then
    match ← ifPermitted place.readDir with
    | none => return some (.directory false [])
    | some names =>
      let mut entries := []
      for entry in names do
        match ← loadEntry false (joinPath path entry.fileName) with
        | some below => entries := (entry.fileName, below) :: entries
        | none => pure ()
      return some (.directory true entries)
  else if ← place.pathExists then
    if wanted || isTemplatePath path then
      match ← ifPermitted (IO.FS.readBinFile place) with
      | some bytes => return some (.file bytes.data.toList)
      | none => return some .locked
    else return some (.file [])
  else return none

/-- Adds what stands at a path to a disk. -/
def takeIn (wanted : Bool) (disk : Disk) (path : String) : IO Disk := do
  match ← loadEntry wanted path with
  | some entry => return disk.mount path entry
  | none => return disk

/-- The part of the file system that an invocation may read. The configuration comes last, since
a directory that holds it may be an input. -/
def loadDisk (i : Invocation) : IO Disk := do
  let here := (← IO.currentDir).components.filter (· ≠ "")
  let disk : Disk := { workingDir := here }
  let disk ← i.inputs.foldlM (takeIn false) (disk.mount "." (.directory true []))
  takeIn true disk (i.config.getD defaultConfig)

/-- Why a file could not be written, if it is one of the plain reasons. -/
def faultOf : IO.Error → Option PathFault
  | .noFileOrDirectory .. => some .missing
  | .permissionDenied _ 13 _ => some .denied
  | .inappropriateType _ 20 _ => some .notDirectory
  | .inappropriateType _ 21 _ => some .isDirectory
  | _ => none

/-- Why a text states no settings. -/
def wordingOf (_text : String) : Category → String
  | .ended => "the text ends too early"
  | .malformed => "the text is not JSON"
  | .mistyped => "a value is of the wrong type, or given twice"

/-- Runs the command and gives its status. -/
def runArguments (args : List String) : IO UInt32 := do
  let disk ←
    match Request.read args with
    | .run i => loadDisk i
    | _ => pure {}
  match Plan.make disk args with
  | .save path text count =>
    try
      IO.FS.writeFile path text
      IO.eprint (savedLine path count)
      return 0
    catch error =>
      match faultOf error with
      | some fault => IO.eprint ((Failure.unwritable path fault).report wordingOf)
      | none => IO.eprintln error
      return 1
  | plan =>
    let outcome := plan.carryOut wordingOf disk
    IO.print outcome.stdout
    IO.eprint outcome.stderr
    return outcome.status.toUInt32

end TemplateMarkup

def main (args : List String) : IO UInt32 := TemplateMarkup.runArguments args
