import TemplateMarkup.Command.Invocation
import TemplateMarkup.Encoding
import TemplateMarkup.Files.Templates
import TemplateMarkup.Node.Json
import TemplateMarkup.Settings.Reader

/-! What the command does: all templates in one answer, or the first problem and nothing else. -/
namespace TemplateMarkup

/-- Why there is no answer. -/
inductive Failure where
  | configUnreadable (fault : PathFault)
  | configNotText
  | configInvalid (text : String) (category : Category)
  | unlistable (fault : PathFault)
  | noInputs
  | unreadable (path : String) (fault : PathFault)
  | refused (path : String) (refusal : Refusal)
  | unwritable (path : String) (fault : PathFault)

/-- What is reported of a failure, where `wording` says why a text states no settings. A faulty
template is shown as it is. -/
def Failure.report (wording : String → Category → String) : Failure → String
  | configUnreadable fault => "error: cannot read config: " ++ fault.message ++ "\n"
  | configNotText => "error: cannot read config: stream did not contain valid UTF-8\n"
  | configInvalid text category =>
    "error: invalid config JSON: " ++ wording text category ++ "\n"
  | unlistable fault => "error: " ++ fault.message ++ "\n"
  | noInputs => "error: no input files found\n"
  | unreadable path fault => "error: cannot read " ++ path ++ ": " ++ fault.message ++ "\n"
  | refused _ (.faulty diagnostic) => diagnostic.render
  | refused path refusal => "error: " ++ path ++ ": " ++ refusal.message ++ "\n"
  | unwritable path fault => "error: cannot write " ++ path ++ ": " ++ fault.message ++ "\n"

/-- The file that settings are read from if it is there and no other is named. -/
def defaultConfig : String := "hamlet.config.json"

namespace Disk

def readSettings (disk : Disk) (path : String) : Except Failure Settings := do
  let bytes ← (disk.contents path).mapError .configUnreadable
  let chars ← (decodeUtf8 bytes).mapError fun _ => Failure.configNotText
  let text := String.ofList chars
  (Settings.read text).mapError (.configInvalid text)

/-- The settings for an invocation: those of its configuration file, then its own. -/
def settingsFor (disk : Disk) (i : Invocation) : Except Failure Settings := do
  let settings ←
    match i.config with
    | some path => disk.readSettings path
    | none => if disk.isFile defaultConfig then disk.readSettings defaultConfig else .ok {}
  return { settings with
    defaultTag := i.defaultTag.getD settings.defaultTag
    tabSize := i.tabSize.getD settings.tabSize
    encoding := i.encoding <|> settings.encoding }

/-- Reads a template file, which is named by its path in diagnostics. -/
def readTree (disk : Disk) (settings : Settings) (path : String) : Except Failure Node := do
  let bytes ← (disk.contents path).mapError (.unreadable path)
  (parseBytes (settings.withFileName path) bytes).mapError (.refused path)

/-- The trees of some files by their paths, each path once. -/
def readTrees (disk : Disk) (settings : Settings) (paths : List String) :
    Except Failure (List (String × Json)) :=
  paths.foldlM (fun members path => do
    let tree ← disk.readTree settings path
    return if members.any (·.1 == path) then members else members ++ [(path, tree.toJson)]) []

end Disk

/-- The text for an invocation and the number of files it was made from. -/
def Invocation.answer (i : Invocation) (disk : Disk) : Except Failure (String × Nat) := do
  let settings ← disk.settingsFor i
  let paths ← (disk.listTemplates i.inputs).mapError .unlistable
  if paths.isEmpty then throw .noInputs
  let members ← disk.readTrees settings paths
  return ((Json.object members).pretty ++ "\n", paths.length)

/-- What is left to do once everything is read. -/
inductive Plan where
  | misuse
  | help
  | fail (failure : Failure)
  | print (text : String)
  | save (path text : String) (count : Nat)

def Plan.make (disk : Disk) (args : List String) : Plan :=
  match Request.read args with
  | .misuse => misuse
  | .help => help
  | .run i =>
    match i.answer disk, i.output with
    | .error failure, _ => fail failure
    | .ok (text, _), none => print text
    | .ok (text, count), some path => save path text count

/-- What a run of the command leaves behind. -/
structure Outcome where
  status : Nat
  stdout : String := ""
  stderr : String := ""
  disk : Disk

/-- The line that says what was written. -/
def savedLine (path : String) (count : Nat) : String :=
  "parsed " ++ toString count ++ " file(s) -> " ++ path ++ "\n"

def helpText : String :=
  "Parse Hamlet templates and print their IR as JSON\n\n" ++
  "Usage: hamlet [OPTIONS] <INPUTS>...\n\n" ++
  "Arguments:\n" ++
  "  <INPUTS>...  Input file(s) or directory\n\n" ++
  "Options:\n" ++
  "  -o, --output <OUTPUT>            Output file (default: stdout)\n" ++
  "      --default-tag <DEFAULT_TAG>  Tag used for \x60<#id\x60 and \x60<.class\x60 shortcuts (default: div)\n" ++
  "      --tab-size <TAB_SIZE>        Columns per tab in indentation (default: 4)\n" ++
  "      --encoding <ENCODING>        Source encoding: utf-8 or ascii (default: utf-8)\n" ++
  "      --config <CONFIG>            Config file path\n" ++
  "  -h, --help                       Print help\n"

def Plan.carryOut (wording : String → Category → String) (disk : Disk) : Plan → Outcome
  | misuse => { status := 2, disk := disk }
  | help => { status := 0, stdout := helpText, disk := disk }
  | fail failure => { status := 1, stderr := failure.report wording, disk := disk }
  | print text => { status := 0, stdout := text, disk := disk }
  | save path text count =>
    match disk.writeFile path text.toUTF8.data.toList with
    | .ok disk => { status := 0, stderr := savedLine path count, disk := disk }
    | .error fault =>
      { status := 1, stderr := (Failure.unwritable path fault).report wording, disk := disk }

/-- Runs the command on a disk. -/
def runCommand (wording : String → Category → String) (disk : Disk) (args : List String) :
    Outcome :=
  (Plan.make disk args).carryOut wording disk

end TemplateMarkup
