import TemplateMarkup.Text.White

/-! Faults of a template, where they stand, and how they are shown. -/
namespace TemplateMarkup

/-- Why a template is refused. -/
inductive Cause where
  | unexpectedIndentation
  | malformedIndentation
  | unknownIndicator
  | unexpectedTextIndentation
  | expectedAttribute
  | expectedDelimiter (close : Char)
  | expectedQuote (quote : Char)
  | emptyAttribute
  | contentAfterDoctype
  | contentAfterVoidTag
  | unexpectedEnd
  deriving DecidableEq

def Cause.message : Cause → String
  | unexpectedIndentation => "Unexpected indentation"
  | malformedIndentation => "Malformed indentation"
  | unknownIndicator => "Unknown line indicator"
  | unexpectedTextIndentation => "Unexpected text indentation"
  | expectedAttribute => "Expected attribute"
  | expectedDelimiter close => "Expected closing delimiter " ++ close.toString
  | expectedQuote quote => "Expected closing quote " ++ quote.toString
  | emptyAttribute => "Invalid empty attribute"
  | contentAfterDoctype => "Did not expect content after doctype"
  | contentAfterVoidTag => "Did not expect any content after self closing tag"
  | unexpectedEnd => "Unexpected end of file"

/-- A cause with its line, counted from one, and its column, counted from zero in characters. -/
structure Fault where
  cause : Cause
  number : Nat
  line : Line
  column : Nat
  deriving DecidableEq

/-- The fault found where only `rest` is left of the line. -/
def Fault.before (cause : Cause) (number : Nat) (line : Line) (rest : List Char) : Fault :=
  ⟨cause, number, line, line.length - rest.length⟩

/-- The name shown for a template that comes from no file. -/
def unnamedFile : String := "(__TEMPLATE__)"

/-- A fault in a named template. -/
structure Diagnostic extends Fault where
  file : String
  deriving DecidableEq

namespace Diagnostic

/-- The white space that is cut from the front of the shown line. -/
def margin (d : Diagnostic) : Nat := d.line.length - (trimLeft d.line).length

/-- Four lines: message, place, trimmed source line, and a caret under the column. -/
def render (d : Diagnostic) : String :=
  d.cause.message ++ "\n" ++
  "  " ++ d.file ++ ", Line " ++ toString d.number ++ "\n" ++
  "    " ++ String.ofList (trim d.line) ++ "\n" ++
  "    " ++ String.ofList (List.replicate (d.column - d.margin) ' ') ++ "^\n"

end Diagnostic

end TemplateMarkup
