import TemplateMarkup.Diagnostic
import TemplateMarkup.Owner

/-! A tree under construction: its open blocks, their indentation widths, and the log of what was
done to it. -/
namespace TemplateMarkup

inductive Event where
  /-- A line that belongs to nothing before it, with the width and the text it was taken for. -/
  | dispatched (number width : Nat) (text : List Char)
  /-- A node without content was put into the innermost block. -/
  | placed (node : Node)
  /-- A block was opened; `depth` counts the open blocks after it, the root with them. -/
  | opened (owner : Owner) (depth : Nat)
  | closed (depth : Nat)

/-- An open block; its nodes are held newest first. -/
structure Block where
  owner : Owner
  nodes : List Node

/-- A block whose lines are known to stand at `width`. -/
structure Level where
  width : Nat
  block : Block

/-- The open blocks of a tree. Levels are held innermost first, `awaiting` is the block that the
line before opened, whose width no line has shown yet, and the log is held newest first. -/
structure Builder where
  root : List Node := []
  levels : List Level := []
  awaiting : Option Block := none
  log : List Event := []

namespace Builder

/-- The width of the innermost level. -/
def width (b : Builder) : Nat :=
  match b.levels with
  | [] => 0
  | level :: _ => level.width

/-- The number of open blocks, the root with them. -/
def depth (b : Builder) : Nat :=
  b.levels.length + (if b.awaiting.isSome then 2 else 1)

def record (b : Builder) (event : Event) : Builder := { b with log := event :: b.log }

/-- Adds a node to the innermost block. -/
def add (b : Builder) (node : Node) : Builder :=
  match b.awaiting, b.levels with
  | some block, _ => { b with awaiting := some { block with nodes := node :: block.nodes } }
  | none, [] => { b with root := node :: b.root }
  | none, level :: levels =>
    { b with levels :=
        { level with block := { level.block with nodes := node :: level.block.nodes } } :: levels }

def place (b : Builder) (node : Node) : Builder := (b.add node).record (.placed node)

/-- Places so many line ends. -/
def placeBreaks : Nat → Builder → Builder
  | 0, b => b
  | n + 1, b => placeBreaks n (b.place .newline)

/-- Opens a block whose width the next line will show. -/
def begin (b : Builder) (owner : Owner) : Builder :=
  let b := { b with awaiting := some ⟨owner, []⟩ }
  b.record (.opened owner b.depth)

/-- Adds a finished block to the block around it. -/
def finish (b : Builder) (block : Block) : Builder :=
  let b := b.add (block.owner.enclose block.nodes.reverse)
  b.record (.closed b.depth)

/-- Ends the block that awaits its width; it holds what its own line gave it. -/
def closeAwaiting (b : Builder) : Builder :=
  match b.awaiting with
  | none => b
  | some block => { b with awaiting := none }.finish block

/-- Ends the innermost level. -/
def closeLevel (b : Builder) : Builder :=
  match b.levels with
  | [] => b
  | level :: levels => { b with levels := levels }.finish level.block

def closeLevels : Nat → Builder → Builder
  | 0, b => b
  | n + 1, b => closeLevels n b.closeLevel

/-- Why a line does not fit the open blocks, and what was logged before that showed. -/
structure Misfit where
  cause : Cause
  log : List Event

/-- Fits a line of some width to the open blocks. A deeper line settles the width of the block
that awaits one; any other has to stand at the width of some level, and ends the blocks inside
it. The flag says whether the innermost block is another one now. -/
def align (b : Builder) (width : Nat) : Except Misfit (Builder × Bool) :=
  if b.width < width then
    match b.awaiting with
    | some block =>
      .ok ({ b with levels := ⟨width, block⟩ :: b.levels, awaiting := none }, true)
    | none => .error ⟨.unexpectedIndentation, b.log⟩
  else
    let shut := closeLevels (b.levels.takeWhile (width < ·.width)).length b.closeAwaiting
    if shut.width = width then .ok (shut, width < b.width)
    else .error ⟨.malformedIndentation, shut.log⟩

/-- Ends every block. -/
def closeAll (b : Builder) : Builder := closeLevels b.levels.length b.closeAwaiting

def tree (b : Builder) : Node := .multi b.root.reverse

@[simp] theorem width_add (b : Builder) (node : Node) : (b.add node).width = b.width := by
  rcases b with ⟨_, levels, awaiting, _⟩
  cases awaiting <;> cases levels <;> rfl

@[simp] theorem depth_add (b : Builder) (node : Node) : (b.add node).depth = b.depth := by
  rcases b with ⟨_, levels, awaiting, _⟩
  cases awaiting <;> cases levels <;> rfl

@[simp] theorem log_add (b : Builder) (node : Node) : (b.add node).log = b.log := by
  unfold add
  split <;> rfl

@[simp] theorem width_place (b : Builder) (node : Node) : (b.place node).width = b.width := by
  simpa [place, record, width] using width_add b node

@[simp] theorem depth_place (b : Builder) (node : Node) : (b.place node).depth = b.depth := by
  simpa [place, record, depth] using depth_add b node

@[simp] theorem width_begin (b : Builder) (owner : Owner) : (b.begin owner).width = b.width := rfl

@[simp] theorem awaiting_closeAwaiting (b : Builder) : b.closeAwaiting.awaiting = none := by
  unfold closeAwaiting
  split
  · assumption
  · simp only [finish, record, add]
    split <;> simp_all

end Builder

end TemplateMarkup
