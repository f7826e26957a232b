import TemplateMarkup.Reading.Basic
import TemplateMarkup.Text.Utf8

/-! Templates given as bytes. -/
namespace TemplateMarkup

inductive Charset where
  | utf8 | ascii
  deriving DecidableEq

/-- A character set by one of its names, in any case of ASCII letters. -/
def Charset.ofName? (name : String) : Option Charset :=
  match name.toLower with
  | "utf-8" | "utf8" => some utf8
  | "ascii" | "us-ascii" => some ascii
  | _ => none

/-- Why bytes are no text of a character set. -/
inductive DecodeFault where
  | invalidUtf8 (fault : Utf8Fault)
  /-- The byte at `offset` is none of ASCII. -/
  | notAscii (offset : Nat)
  deriving DecidableEq

def DecodeFault.message : DecodeFault → String
  | invalidUtf8 ⟨index, some length⟩ =>
    "invalid utf-8 sequence of " ++ toString length ++ " bytes from index " ++ toString index
  | invalidUtf8 ⟨index, none⟩ => "incomplete utf-8 byte sequence from index " ++ toString index
  | notAscii offset => "non-ASCII byte at offset " ++ toString offset

/-- Drops one byte-order mark. -/
def dropByteOrderMark : List UInt8 → List UInt8
  | 0xEF :: 0xBB :: 0xBF :: bytes => bytes
  | bytes => bytes

def Charset.decode : Charset → List UInt8 → Except DecodeFault String
  | utf8, bytes => (decodeUtf8 bytes).mapError .invalidUtf8 |>.map String.ofList
  | ascii, bytes =>
    match bytes.findIdx? (0x80 ≤ ·) with
    | some offset => .error (.notAscii offset)
    | none => .ok (String.ofList (bytes.map fun b => Char.ofNat b.toNat))

/-- Why a template given as bytes is refused. -/
inductive Refusal where
  | faulty (diagnostic : Diagnostic)
  | undecodable (encoding : String) (fault : DecodeFault)
  | unknownEncoding (name : String)
  deriving DecidableEq

def Refusal.message : Refusal → String
  | faulty diagnostic => diagnostic.render
  | undecodable encoding fault => "template is not valid " ++ encoding ++ ": " ++ fault.message
  | unknownEncoding name => "unsupported text encoding: " ++ name

/-- The name of the encoding that applies. -/
def Settings.encodingName (settings : Settings) : String := settings.encoding.getD "utf-8"

/-- Reads a template from its bytes, which may start with a byte-order mark. -/
def parseBytes (settings : Settings) (bytes : List UInt8) : Except Refusal Node := do
  let name := settings.encodingName
  match Charset.ofName? name with
  | none => throw (.unknownEncoding name)
  | some charset =>
    let source ← (charset.decode (dropByteOrderMark bytes)).mapError (.undecodable name)
    (parse settings source).mapError .faulty

example : (parseBytes {} [0xEF, 0xBB, 0xBF, 0x61]).toOption.map Node.text = some "a" := by
  decide +kernel

end TemplateMarkup
