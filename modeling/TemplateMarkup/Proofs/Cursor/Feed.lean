import TemplateMarkup.Proofs.Cursor.Columns
import TemplateMarkup.Proofs.Cursor.Readers
import TemplateMarkup.Reading.Basic

/-! A reading as scans of its lines: by a cursor that stands at byte positions, and with columns
that are added up in machine words. -/
namespace TemplateMarkup
namespace Scan

section Program

variable (word : Nat → Nat) (settings : Settings)

/-- Takes one more segment of code, which goes up to the end of the line. -/
def takeCode (s : State) (owner : CodeOwner) (segments : List (List Char)) (line : Line)
    (cs : List Char) : Scan State := do
  skipLine
  return s.takeCode owner segments line cs

/-- Takes a tag that closes itself. -/
def takeVoid (s : State) (tag : TagHead) (line : Line) : Scan State := do
  skipLine
  return s.takeTail settings.tabSize tag line .void

/-- Takes the text behind a tag, less one space. -/
def takeInline (s : State) (tag : TagHead) : Scan State := do
  skipChar ' '
  let column ← column word settings.tabSize
  let inline ← ahead
  skipLine
  let s := { s with gap := true }
  return (s.begin (.tag tag.name tag.attrs)).takeText (.startAt column (cutRemark inline))

/-- Takes what follows a tag's attributes on the line. Whether an angle bracket closed their list
shows in what is read of the line. -/
def takeTail (s : State) (tag : TagHead) (line : Line) : Scan State := do
  let front ← consumed
  let cs ← ahead
  match trimLeft cs with
  | [] => return s.takeTail settings.tabSize tag line .block
  | '=' :: code =>
    advance (byteSize cs - byteSize ('=' :: code))
    let mark ← outputMark
    let code ← ahead
    takeCode s (.tag tag.name tag.attrs mark) [] line code
  | '/' :: '>' :: rest =>
    if isRemarkOnly rest then takeVoid settings s tag line
    else answer (.error ⟨⟨.contentAfterVoidTag, s.number, line, line.length⟩, s.builder.log⟩)
  | text =>
    if front.getLast? ≠ some '>' ∧ trimRight text = ['/'] then takeVoid settings s tag line
    else takeInline word settings s tag

def takeAttributes (s : State) (tag : TagHead) (close : Option Char) (line : Line) :
    Scan State := do
  let attrs ← attributes s close (line.length + 1)
  let tag := { tag with attrs := tag.attrs ++ attrs }
  match ← listEnd s close with
  | some bracket => return { s.breakLine with phase := .attributes tag bracket }
  | none => takeTail word settings s tag line

def takeTag (s : State) (name : String) (line : Line) : Scan State := do
  let shortcuts ← whileFound nextShortcut (line.length + 1)
  let close ← bracket
  takeAttributes word settings s ⟨name, shortcuts, s.number, line⟩ close line

/-- Takes a line of text, which may start with a marker. -/
def takeText (s : State) : Scan State := do
  let cs ← ahead
  let glued := cs.head? = some '>'
  skipChar '>'
  let column ← sum word s.builder.width (if glued then 1 else 0)
  let text ← ahead
  skipLine
  let s := { (if glued then s else s.separate) with gap := true }
  let shown := cutRemark text
  return s.takeText (if shown.isEmpty then .empty false 1 else .startAt column shown)

/-- Takes a comment, whose text starts behind a mark. -/
def takeComment (s : State) (spaced : Bool) (text : List Char) : Scan State :=
  let s := { s.begin .comment with gap := false }
  if text.isEmpty then return s.takeText (.empty false 1)
  else do
    let column ← sum word s.builder.width (if spaced then 1 else 0)
    let column ← sum word column 2
    return s.takeText (.startAt column (cutRemark text))

/-- Takes a line by what its head says it is. Where no cursor moves and no columns are added up, the
line is taken as it is. -/
def takeHead (s : State) (line : Line) : Head → Scan State
  | .control _ => do
    advance 1
    let cs ← ahead
    takeCode s .control [] line cs
  | .output _ _ => do
    let mark ← outputMark
    let cs ← ahead
    takeCode s (.output mark) [] line cs
  | .comment spaced text => takeComment word s spaced text
  | .tag name _ => do
    advance (1 + byteSize (name.getD []))
    takeTag word settings s.separate ((name.map String.ofList).getD settings.defaultTag) line
  | .text _ _ => takeText word s
  | .unknown _ => do
    advance 1
    refuse .unknownIndicator s.number s.builder.log
  | head => answer (s.takeHead settings line head)

/-- Takes a line that belongs to nothing before it. -/
def dispatch (s : State) (line : Line) : Scan State := do
  enter line
  if isBlank line then return { s.breakLine with phase := .ready }
  else
    let (width, _) ← measure word settings.tabSize line
    skipWhite
    match s.builder.align width with
    | .error misfit => refuse misfit.cause s.number misfit.log
    | .ok (builder, moved) =>
      let cs ← ahead
      let s := { s with
        builder := builder.record (.dispatched s.number width cs)
        gap := s.gap && !moved }
      takeHead word settings s line (Head.read cs)

/-- Takes the first line that is not blank: a doctype header, or a line like any other. -/
def takeFirst (s : State) (line : Line) : Scan State :=
  if isBlank line then do
    enter line
    return s.breakLine
  else
    match doctypeHeader? line with
    | none => dispatch word settings s line
    | some (value, rest) => do
      enter line
      let size := byteSize (frontOf line rest)
      let (_, trailing) ← cut line size
      if isRemarkOnly trailing then
        return { (s.place (.doctype (String.ofList value))).breakLine with phase := .ready }
      else
        advance (size + (byteSize trailing - byteSize (trimLeft trailing)))
        refuse .contentAfterDoctype s.number s.builder.log

/-- Whether a line starts with a marker, behind an indentation of some size. -/
def isMarked (block : TextBlock) (line : Line) (size : Nat) : Scan Bool :=
  if block.verbatim then return false
  else do
    let (_, text) ← cut line size
    return text.head? = some '>'

/-- The column where a line's text starts. -/
def textStart (width : Nat) (marked : Bool) : Scan Nat :=
  if marked then sum word width 1 else return width

/-- Adds a line to a text, at the column where its own text starts. -/
def addLine (s : State) (block : TextBlock) (line : Line) (start : Nat) (marked : Bool) :
    Scan State := do
  enter line
  let base := block.baseline.getD start
  if base ≤ start ∨ (!block.started && marked) ∧ base - start = 1 then
    let cs ← dropColumns word settings.tabSize base line
    let body := if block.verbatim then cs else cutRemark (dropFront '>' cs)
    skipLine
    return s.takeText { block with
      baseline := some base
      parts := (block.separator ++ body) :: block.parts
      blanks := 0
      started := true
      breaks := block.breaks + 1 }
  else
    skipWhite
    refuse .unexpectedTextIndentation s.number s.builder.log

/-- Takes a line below a text, which may end the text. -/
def takeBelow (s : State) (block : TextBlock) (line : Line) : Scan State :=
  if block.isBlankLine line then do
    enter line
    return s.takeText { block with
      breaks := block.breaks + 1
      blanks := if block.baseline.isSome then block.blanks + 1 else 0 }
  else do
    let (width, size) ← measure word settings.tabSize line
    if width ≤ s.builder.width then dispatch word settings (s.settle block) line
    else
      let marked ← isMarked block line size
      let start ← textStart word width marked
      addLine word settings s block line start marked

/-- Takes a line below a remark, which may end the remark. -/
def takeRemark (s : State) (line : Line) : Scan State :=
  if isBlank line then do
    enter line
    return s.breakLine
  else do
    let (width, _) ← measure word settings.tabSize line
    if width ≤ s.builder.width then dispatch word settings { s with phase := .ready } line
    else
      enter line
      return s.breakLine

/-- Takes the next line of a template. -/
def feed (s : State) (line : Line) : Scan State :=
  let s := { s with number := s.number + 1 }
  match s.phase with
  | .start => takeFirst word settings s line
  | .ready => dispatch word settings s line
  | .code owner segments _ => do
    enter line
    takeCode s owner segments line line
  | .attributes tag close => do
    enter line
    takeAttributes word settings s tag (some close) line
  | .text block => takeBelow word settings s block line
  | .remark => takeRemark word settings s line

/-- Takes the end of a template. Code that goes on is at fault where the cursor was left. -/
def finish (s : State) : Scan Builder :=
  match s.phase with
  | .code .. => refuse .unexpectedEnd s.number s.builder.log
  | _ => answer s.finish

def readLines (lines : List Line) : Scan Builder := do
  let s ← lines.foldlM (feed word settings) {}
  finish s

end Program

end Scan

/-- What is done to a template by cursor, and the tree it comes to. -/
def scanTemplate (word : Nat → Nat) (settings : Settings) (source : String) :
    Trace (Builder × Cursor) :=
  Scan.readLines word settings (linesOf source.toList) {}

/-- The reading of a template, if nothing went wrong. -/
def Trace.reading (trace : Trace (Builder × Cursor)) : Option (Except Halt Builder) :=
  trace.result.map fun outcome => outcome.map Prod.fst

end TemplateMarkup
