import TemplateMarkup.Builder
import TemplateMarkup.Text.Word

/-! The grammar of a line: what its first characters, after the indentation, make it. -/
namespace TemplateMarkup

/-- How the value of some code is written out. -/
structure OutputMark where
  escape : Bool
  /-- Whether text after the value is set apart by a space; an apostrophe turns that off. -/
  spaced : Bool
  deriving DecidableEq

/-- Reads what follows the first equals sign: a second one for raw output, then an apostrophe. -/
def OutputMark.read (cs : List Char) : OutputMark × List Char :=
  let (escape, cs) :=
    match cs with
    | '=' :: cs => (false, cs)
    | cs => (true, cs)
  match cs with
  | '\'' :: cs => (⟨escape, false⟩, cs)
  | cs => (⟨escape, true⟩, cs)

/-- What a line is, with the text that its kind has still to read. -/
inductive Head where
  | control (code : List Char)
  | output (mark : OutputMark) (code : List Char)
  | embedded (engine : List Char)
  | comment (spaced : Bool) (text : List Char)
  /-- A tag by its name, or with none if it starts with a shortcut. -/
  | tag (name : Option (List Char)) (rest : List Char)
  | conditional (condition : List Char)
  | remark
  | doctype (value : List Char)
  /-- Text; glued text follows the line before without a space. -/
  | text (glued : Bool) (text : List Char)
  | unknown (rest : List Char)
  deriving DecidableEq

/-- The characters that may follow the first one of a name. -/
def isNameTail (c : Char) : Bool := isWord c || c = ':' || c = '-'

theorem isNameTail_of_isWord {c : Char} (h : isWord c = true) : isNameTail c = true := by
  simp [isNameTail, h]

/-- Drops a keyword, given in lower case, in any case of its letters. -/
def dropKeyword : List Char → List Char → Option (List Char)
  | [], cs => some cs
  | k :: ks, c :: cs => if c.toLower = k then dropKeyword ks cs else none
  | _ :: _, [] => none

/-- The text after the keyword `doctype` and the white space it needs. -/
def dropDoctype (cs : List Char) : Option (List Char) :=
  match dropKeyword ['d', 'o', 'c', 't', 'y', 'p', 'e'] cs with
  | some (c :: cs) => if isWhite c then some cs else none
  | _ => none

namespace Head

/-- The name in `name:`, if nothing but white space follows. -/
def engine? (cs : List Char) : Option (List Char) :=
  match cs.takeWhile isWord, cs.dropWhile isWord with
  | [], _ => none
  | name, ':' :: rest => if isBlank rest then some name else none
  | _, _ => none

/-- The condition in `[condition]`, which ends with the line's last bracket. -/
def condition? : List Char → Option (List Char)
  | '[' :: cs =>
    let inner := trimRight cs
    if inner.getLast? = some ']' then some (trim inner.dropLast) else none
  | _ => none

/-- A line that starts with an angle bracket, from the character after it. -/
def ofAngle (cs : List Char) : Head :=
  match engine? cs with
  | some name => embedded name
  | none =>
    match cs with
    | '!' :: '-' :: '-' :: ' ' :: cs => comment true cs
    | '!' :: '-' :: '-' :: cs => comment false cs
    | c :: rest =>
      if c = '#' || c = '.' then tag none cs
      else if isWord c then tag (c :: rest.takeWhile isNameTail) (rest.dropWhile isNameTail)
      else unknown cs
    | [] => unknown cs

/-- A line that starts with a hash sign, from the character after it. -/
def ofHash (cs : List Char) : Head :=
  match cs with
  | '{' :: _ => text false ('#' :: cs)
  | _ =>
    match condition? cs with
    | some c => conditional c
    | none => remark

/-- What a line is, from its first character that is not white space. -/
def read (cs : List Char) : Head :=
  match cs with
  | '-' :: code => control code
  | '=' :: cs => let (mark, code) := OutputMark.read cs; output mark code
  | '<' :: cs => ofAngle cs
  | '#' :: cs => ofHash cs
  | '>' :: cs => text true cs
  | cs =>
    match dropDoctype cs with
    | some value => doctype (trim value)
    | none => text false cs

example : read "<sass: ".toList = embedded "sass".toList := by decide
example : read "<svg:use x".toList = tag (some "svg:use".toList) " x".toList := by decide
example : read "#[ if lt IE 9 ] ".toList = conditional "if lt IE 9".toList := by decide
example : read "#[a] b".toList = remark := by decide
example : read "DOCTYPE  strict ".toList = doctype "strict".toList := by decide
example : read "==' x".toList = output ⟨false, false⟩ " x".toList := by decide

end Head

/-- The first character of a line, as far as it tells what the line is. -/
inductive Marker where
  | dash | equals | angle | hash | greater | other
  deriving DecidableEq

def Marker.of : List Char → Marker
  | '-' :: _ => dash
  | '=' :: _ => equals
  | '<' :: _ => angle
  | '#' :: _ => hash
  | '>' :: _ => greater
  | _ => other

/-- The doctype that a template may start with, and the rest of its line. -/
def doctypeHeader? : Line → Option (List Char × List Char)
  | '<' :: cs =>
    match dropDoctype cs with
    | none => none
    | some cs =>
      let value := trim (cs.takeWhile (· ≠ '>'))
      match cs.dropWhile (· ≠ '>') with
      | [] => some (value, [])
      | _ :: rest => some (value, rest)
  | _ => none

example : doctypeHeader? "<DocType html> # 5".toList = some ("html".toList, " # 5".toList) := by decide
example : doctypeHeader? "<doctype".toList = none := by decide

end TemplateMarkup
