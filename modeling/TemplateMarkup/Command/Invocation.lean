/-! The arguments of the command. -/
namespace TemplateMarkup

/-- What the arguments ask for. -/
structure Invocation where
  /-- The files and directories to read, newest first while the arguments are read. -/
  inputs : List String := []
  output : Option String := none
  defaultTag : Option String := none
  tabSize : Option Nat := none
  encoding : Option String := none
  config : Option String := none
  deriving DecidableEq

/-- An option that takes a value. -/
inductive Flag where
  | output | defaultTag | tabSize | encoding | config
  deriving DecidableEq

def Flag.ofName? (name : List Char) : Option Flag :=
  match String.ofList name with
  | "output" => some output
  | "default-tag" => some defaultTag
  | "tab-size" => some tabSize
  | "encoding" => some encoding
  | "config" => some config
  | _ => none

/-- Decimal digits, perhaps after a plus sign, for a number below `2^64`. -/
def readSize? (text : String) : Option Nat :=
  let digits :=
    match text.toList with
    | '+' :: digits => digits
    | digits => digits
  let size := digits.foldl (fun n d => n * 10 + (d.toNat - '0'.toNat)) 0
  if !digits.isEmpty && digits.all Char.isDigit && size < UInt64.size then some size else none

/-- Gives an option its value. No option comes twice, a path is not empty, and a size is a
number. -/
def Invocation.set? (i : Invocation) (flag : Flag) (value : String) : Option Invocation :=
  match flag with
  | .output =>
    if i.output.isNone && !value.isEmpty then some { i with output := some value } else none
  | .config =>
    if i.config.isNone && !value.isEmpty then some { i with config := some value } else none
  | .defaultTag => if i.defaultTag.isNone then some { i with defaultTag := some value } else none
  | .encoding => if i.encoding.isNone then some { i with encoding := some value } else none
  | .tabSize =>
    if i.tabSize.isNone then (readSize? value).map fun n => { i with tabSize := some n } else none

def Invocation.addInput? (i : Invocation) (path : String) : Option Invocation :=
  if path.isEmpty then none else some { i with inputs := path :: i.inputs }

/-- What one argument is. -/
inductive Argument where
  | input
  | help
  /-- Two dashes: all arguments after them are inputs. -/
  | endOfOptions
  | option (flag : Flag)
  | assigned (flag : Flag) (value : String)
  | unknown
  deriving DecidableEq

/-- An option is written `--name value`, `--name=value`, `-o value`, `-ovalue` or `-o=value`. A
dash alone is an input. -/
def Argument.of (arg : String) : Argument :=
  match arg.toList with
  | ['-', '-'] => endOfOptions
  | '-' :: '-' :: cs =>
    let name := cs.takeWhile (· ≠ '=')
    match Flag.ofName? name, cs.dropWhile (· ≠ '=') with
    | some flag, [] => option flag
    | some flag, _ :: value => assigned flag (String.ofList value)
    | none, [] => if String.ofList name = "help" then help else unknown
    | none, _ => unknown
  | ['-', 'o'] => option .output
  | '-' :: 'o' :: '=' :: value => assigned .output (String.ofList value)
  | '-' :: 'o' :: value => assigned .output (String.ofList value)
  | '-' :: 'h' :: _ => help
  | '-' :: _ :: _ => unknown
  | _ => input

/-- How the arguments are to be taken. -/
inductive Request where
  | misuse
  | help
  | run (invocation : Invocation)
  deriving DecidableEq

/-- The request that is made when all arguments are read. There has to be an input. -/
def Request.complete (i : Invocation) : Request :=
  if i.inputs.isEmpty then misuse else run { i with inputs := i.inputs.reverse }

/-- Reads arguments from left to right up to the first one that is wrong or asks for help. -/
def Request.readFrom (i : Invocation) : List String → Request
  | [] => complete i
  | arg :: args =>
    match Argument.of arg with
    | .unknown => misuse
    | .help => help
    | .input =>
      match i.addInput? arg with
      | some i => readFrom i args
      | none => misuse
    | .assigned flag value =>
      match i.set? flag value with
      | some i => readFrom i args
      | none => misuse
    | .option flag =>
      match args with
      | [] => misuse
      | value :: args =>
        if Argument.of value = .input then
          match i.set? flag value with
          | some i => readFrom i args
          | none => misuse
        else misuse
    | .endOfOptions =>
      match args.foldlM Invocation.addInput? i with
      | some i => complete i
      | none => misuse

def Request.read (args : List String) : Request := readFrom {} args

example : Request.read ["-oa", "x", "--tab-size=+2", "--", "-y"] =
    .run { inputs := ["x", "-y"], output := some "a", tabSize := some 2 } := by decide
example : Request.read ["x", "-o", "-x"] = .misuse := by decide
example : Request.read ["--output="] = .misuse := by decide
example : Request.read [] = .misuse := by decide

end TemplateMarkup
