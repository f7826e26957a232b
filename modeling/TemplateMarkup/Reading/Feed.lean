import TemplateMarkup.Reading.State

/-! Reading a template line by line. -/
namespace TemplateMarkup

/-- A segment of code that ends with a backslash goes on with the next line. -/
def continues (segment : List Char) : Bool := segment.getLast? = some '\\'

/-- Some code from its segments, one a line, newest first. -/
def joinCode (segments : List (List Char)) : String :=
  String.ofList (List.intercalate ['\n'] segments.reverse)

namespace State

/-- Takes one more segment of code. The last one opens the block that the code belongs to. -/
def takeCode (s : State) (owner : CodeOwner) (segments : List (List Char)) (line : Line)
    (cs : List Char) : State :=
  let segments := trim cs :: segments
  if continues (trim cs) then { s with phase := .code owner segments line }
  else
    let s := { s with gap := owner.leavesGap, phase := .ready }
    (s.begin (owner.withCode (joinCode segments))).breakLine

/-- Starts a text that the lines below may go on. -/
def takeText (s : State) (block : TextBlock) : State := { s with phase := .text block }

/-- Takes what follows a tag's attributes on the line. -/
def takeTail (s : State) (tab : Nat) (tag : TagHead) (line : Line) : Tail → State
  | .output mark cs => s.takeCode (.tag tag.name tag.attrs mark) [] line cs
  | .void =>
    let s := { s with gap := false, phase := .ready }
    (s.place (.voidTag tag.name tag.attrs)).breakLine
  | .block =>
    let s := { s with gap := false, phase := .ready }
    (s.begin (.tag tag.name tag.attrs)).breakLine
  | .text inline =>
    let column := columnAfter tab (line.take (line.length - inline.length))
    let s := { s with gap := true }
    (s.begin (.tag tag.name tag.attrs)).takeText (.startAt column (cutRemark inline))

/-- Takes a line's part of an attribute list, and what follows the list if it ends there. -/
def takeAttributes (s : State) (tab : Nat) (tag : TagHead) (close : Option Char) (line : Line)
    (cs : List Char) : Except Halt State :=
  match readAttributes close cs with
  | .error snag => s.halt snag.cause line snag.rest
  | .ok (attrs, rest) =>
    let tag := { tag with attrs := tag.attrs ++ attrs }
    match readListEnd close rest with
    | .error snag => s.halt snag.cause line snag.rest
    | .ok (.continued bracket) => .ok { s.breakLine with phase := .attributes tag bracket }
    | .ok (.closed angle rest) =>
      match Tail.read angle rest with
      | .error snag => s.halt snag.cause line snag.rest
      | .ok tail => .ok (s.takeTail tab tag line tail)

/-- Takes a tag from the end of its name. A bracket right after the shortcuts opens a list. -/
def takeTag (s : State) (tab : Nat) (name : String) (line : Line) (cs : List Char) :
    Except Halt State :=
  let (shortcuts, rest) := readShortcuts cs
  let tag : TagHead := ⟨name, shortcuts, s.number, line⟩
  match rest with
  | [] => s.takeAttributes tab tag none line rest
  | c :: inner =>
    match closingBracket c with
    | some bracket => s.takeAttributes tab tag (some bracket) line inner
    | none => s.takeAttributes tab tag none line rest

/-- Takes a line by what its head says it is. -/
def takeHead (settings : Settings) (s : State) (line : Line) : Head → Except Halt State
  | .control cs => .ok (s.takeCode .control [] line cs)
  | .output mark cs => .ok (s.takeCode (.output mark) [] line cs)
  | .embedded engine =>
    let s := { s with gap := false }
    .ok ((s.breakLine.begin (.embedded (String.ofList engine))).takeText (.empty true 0))
  | .comment spaced cs =>
    let s := { s.begin .comment with gap := false }
    let column := s.builder.width + 2 + (if spaced then 1 else 0)
    .ok (s.takeText (if cs.isEmpty then .empty false 1 else .startAt column (cutRemark cs)))
  | .tag name cs =>
    let name := (name.map String.ofList).getD settings.defaultTag
    s.separate.takeTag settings.tabSize name line cs
  | .conditional condition =>
    let s := { s with gap := false, phase := .ready }
    .ok (s.begin (.conditional (String.ofList condition))).breakLine
  | .remark => .ok { s.breakLine with gap := false, phase := .remark }
  | .doctype value =>
    let s := { s with gap := false, phase := .ready }
    .ok (s.place (.doctype (String.ofList value))).breakLine
  | .text glued cs =>
    let s := { (if glued then s else s.separate) with gap := true }
    let shown := cutRemark cs
    let column := s.builder.width + (if glued then 1 else 0)
    .ok (s.takeText (if shown.isEmpty then .empty false 1 else .startAt column shown))
  | .unknown rest => s.halt .unknownIndicator line rest

/-- Takes a line that belongs to nothing before it. -/
def dispatch (settings : Settings) (s : State) (line : Line) : Except Halt State :=
  if isBlank line then .ok { s.breakLine with phase := .ready }
  else
    let cs := trimLeft line
    let width := indentWidth settings.tabSize line
    match s.builder.align width with
    | .error misfit => .error ⟨.before misfit.cause s.number line cs, misfit.log⟩
    | .ok (builder, moved) =>
      let s := { s with
        builder := builder.record (.dispatched s.number width cs)
        gap := s.gap && !moved }
      takeHead settings s line (Head.read cs)

/-- Ends a text: places it unless it is empty, and the line ends it owes. -/
def settle (s : State) (block : TextBlock) : State :=
  let text := block.text
  let s := if text.isEmpty then s else s.place (.interpolate (String.ofList text))
  { s with builder := s.builder.placeBreaks block.breaks, phase := .ready }

/-- Takes the first line that is not blank: a doctype header, or a line like any other. -/
def takeFirst (settings : Settings) (s : State) (line : Line) : Except Halt State :=
  if isBlank line then .ok s.breakLine
  else
    match doctypeHeader? line with
    | none => s.dispatch settings line
    | some (value, rest) =>
      if isRemarkOnly rest then
        .ok { (s.place (.doctype (String.ofList value))).breakLine with phase := .ready }
      else s.halt .contentAfterDoctype line (trimLeft rest)

/-- Takes the next line of a template. -/
def feed (settings : Settings) (s : State) (line : Line) : Except Halt State :=
  let s := { s with number := s.number + 1 }
  match s.phase with
  | .start => s.takeFirst settings line
  | .ready => s.dispatch settings line
  | .code owner segments _ => .ok (s.takeCode owner segments line line)
  | .attributes tag close => s.takeAttributes settings.tabSize tag (some close) line line
  | .text block =>
    if block.takes settings.tabSize s.builder.width line then
      match block.add settings.tabSize line with
      | .ok block => .ok (s.takeText block)
      | .error cause => s.halt cause line (trimLeft line)
    else (s.settle block).dispatch settings line
  | .remark =>
    if isBlank line || s.builder.width < indentWidth settings.tabSize line then .ok s.breakLine
    else dispatch settings { s with phase := .ready } line

/-- Takes the end of a template, which ends every block. -/
def finish (s : State) : Except Halt Builder :=
  match s.phase with
  | .start | .ready | .remark => .ok s.builder.closeAll
  | .text block => .ok (s.settle block).builder.closeAll
  | .code _ _ last => .error ⟨.before .unexpectedEnd s.number last [], s.builder.log⟩
  | .attributes tag close =>
    .error ⟨.before (.expectedDelimiter close) tag.number tag.line [], s.builder.log⟩

end State

end TemplateMarkup
