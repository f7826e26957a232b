import TemplateMarkup.Diagnostic
import TemplateMarkup.Text.Indent
import TemplateMarkup.Text.Remark

/-! A text that goes on over the deeper lines below it. -/
namespace TemplateMarkup

/-- Text that is being gathered. -/
structure TextBlock where
  /-- Verbatim text knows neither markers nor remarks. -/
  verbatim : Bool
  /-- The column of the text; the first line that is not blank sets it if nothing else did. -/
  baseline : Option Nat
  /-- The pieces of the text so far, newest first. -/
  parts : List (List Char)
  /-- Blank lines since the last line that is not. -/
  blanks : Nat := 0
  /-- Whether a line below the opening one has joined. -/
  started : Bool := false
  /-- The line ends to be placed after the text. -/
  breaks : Nat

/-- A text that one line starts at some column. -/
def TextBlock.startAt (column : Nat) (text : List Char) : TextBlock :=
  { verbatim := false, baseline := some column, parts := [text], breaks := 1 }

/-- A text of which no line is there yet. -/
def TextBlock.empty (verbatim : Bool) (breaks : Nat) : TextBlock :=
  { verbatim := verbatim, baseline := none, parts := [], breaks := breaks }

/-- White space around at most one marker. -/
def isBlankText (line : Line) : Bool :=
  match trimLeft line with
  | [] => true
  | c :: cs => c = '>' && isBlank cs

namespace TextBlock

def isBlankLine (block : TextBlock) (line : Line) : Bool :=
  if block.verbatim then isBlank line else isBlankText line

/-- Whether a line belongs to the block, which stands inside a level of width `outer`. -/
def takes (block : TextBlock) (tab outer : Nat) (line : Line) : Bool :=
  block.isBlankLine line || outer < indentWidth tab line

/-- Whether a line starts with a marker. -/
def isMarked (block : TextBlock) (line : Line) : Bool :=
  !block.verbatim && (afterIndent line).head? = some '>'

/-- The column where a line's text starts; a marker counts as one. -/
def startOf (block : TextBlock) (tab : Nat) (line : Line) : Nat :=
  indentWidth tab line + (if block.isMarked line then 1 else 0)

/-- A line may not start left of the text. Only the first line may, by one column, with a
marker. -/
def admits (block : TextBlock) (tab base : Nat) (line : Line) : Bool :=
  base ≤ block.startOf tab line ||
    (!block.started && block.isMarked line && block.startOf tab line + 1 = base)

/-- What a line contributes to the text. -/
def bodyOf (block : TextBlock) (tab base : Nat) (line : Line) : List Char :=
  let cs := dropColumns tab base line
  if block.verbatim then cs
  else
    match cs with
    | '>' :: cs => cutRemark cs
    | cs => cutRemark cs

/-- The line ends in front of the next line that is not blank: one for each blank line before it,
and its own unless it is the first of the text. -/
def separator (block : TextBlock) : List Char :=
  List.replicate (block.blanks + (if block.baseline.isSome then 1 else 0)) '\n'

/-- Takes one more line. A blank line counts as text once a line that is not follows. -/
def add (block : TextBlock) (tab : Nat) (line : Line) : Except Cause TextBlock :=
  if block.isBlankLine line then
    .ok { block with
      breaks := block.breaks + 1
      blanks := if block.baseline.isSome then block.blanks + 1 else 0 }
  else
    let base := block.baseline.getD (block.startOf tab line)
    if block.admits tab base line then
      .ok { block with
        baseline := some base
        parts := (block.separator ++ block.bodyOf tab base line) :: block.parts
        blanks := 0
        started := true
        breaks := block.breaks + 1 }
    else .error .unexpectedTextIndentation

def text (block : TextBlock) : List Char := block.parts.reverse.flatten

example : ((TextBlock.startAt 3 "one".toList).add 4 "   two # x".toList).toOption.map text =
    some "one\ntwo ".toList := by decide
example : ((TextBlock.startAt 3 "one".toList).add 4 " >two".toList).toOption.map text =
    some "one\ntwo".toList := by decide
example : ((TextBlock.startAt 4 "one".toList).add 4 " >two".toList).toOption.map text = none := by decide

end TextBlock

end TemplateMarkup
