import TemplateMarkup.Settings.Basic
import TemplateMarkup.Tag.Tail
import TemplateMarkup.TextBlock

/-! Where a reading stands between two lines. -/
namespace TemplateMarkup

/-- What waits for code that goes on over several lines. -/
inductive CodeOwner where
  | control
  | output (mark : OutputMark)
  | tag (name : String) (attrs : List Attr) (mark : OutputMark)

namespace CodeOwner

def withCode (code : String) : CodeOwner → Owner
  | control => .control code
  | output mark => .output mark.escape code
  | tag name attrs mark => .outputTag name attrs mark.escape code

/-- Whether text that follows is set apart by a space. -/
def leavesGap : CodeOwner → Bool
  | control => false
  | output mark | tag _ _ mark => mark.spaced

end CodeOwner

/-- A tag with its attributes so far, and the line it starts on. -/
structure TagHead where
  name : String
  attrs : List Attr
  number : Nat
  line : Line

/-- What the next line is for. -/
inductive Phase where
  /-- Only blank lines were read, so a doctype header may come. -/
  | start
  | ready
  /-- Code goes on; its segments are held newest first, with the line of the last one. -/
  | code (owner : CodeOwner) (segments : List (List Char)) (last : Line)
  /-- An attribute list goes on, up to the bracket `close`. -/
  | attributes (tag : TagHead) (close : Char)
  | text (block : TextBlock)
  | remark

structure State where
  /-- How many lines were read. -/
  number : Nat := 0
  builder : Builder := {}
  /-- Whether a tag or text on the next line is set apart from what stands before it. -/
  gap : Bool := false
  phase : Phase := .start

/-- The end of a reading that failed, with its log, newest first. -/
structure Halt where
  fault : Fault
  log : List Event

namespace State

def place (s : State) (node : Node) : State := { s with builder := s.builder.place node }

def breakLine (s : State) : State := s.place .newline

def begin (s : State) (owner : Owner) : State := { s with builder := s.builder.begin owner }

def halt (s : State) (cause : Cause) (line : Line) (rest : List Char) : Except Halt State :=
  .error ⟨.before cause s.number line rest, s.builder.log⟩

/-- Places the space that sets a tag or text apart, if one is due. -/
def separate (s : State) : State := if s.gap then s.place (.static " ") else s

end State

end TemplateMarkup
