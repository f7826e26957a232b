import Mathlib.Logic.Relation
import TemplateMarkup.Builder

/-! What can be done to a tree under construction, one move at a time. Fitting a line to the open
blocks and ending all of them are runs of such moves. -/
namespace TemplateMarkup

/-- A node that no other node can stand in. -/
inductive Node.IsLeaf : Node → Prop
  | newline : IsLeaf .newline
  | doctype (value) : IsLeaf (.doctype value)
  | voidTag (name attrs) : IsLeaf (.voidTag name attrs)
  | interpolate (text) : IsLeaf (.interpolate text)
  | static (text) : IsLeaf (.static text)

namespace Builder

/-- The block that awaited its width becomes the innermost level. -/
def confirm (b : Builder) (width : Nat) (block : Block) : Builder :=
  { b with levels := ⟨width, block⟩ :: b.levels, awaiting := none }

inductive Move : Builder → Builder → Prop
  | place (b node) (leaf : Node.IsLeaf node) : Move b (b.place node)
  /-- A block is opened only where none awaits its width. -/
  | begin (b owner) (idle : b.awaiting = none) : Move b (b.begin owner)
  /-- A deeper line shows the width of the awaiting block. -/
  | confirm (b : Builder) (width : Nat) (block : Block) (deeper : b.width < width)
      (pending : b.awaiting = some block) :
      Move b (b.confirm width block)
  | closeAwaiting (b block) (pending : b.awaiting = some block) : Move b b.closeAwaiting
  | closeLevel (b level levels) (idle : b.awaiting = none) (top : b.levels = level :: levels) :
      Move b b.closeLevel
  | dispatch (b number width text) : Move b (b.record (.dispatched number width text))

/-- Any number of moves. -/
abbrev Moves : Builder → Builder → Prop := Relation.ReflTransGen Move

/-- A move that only puts something into the innermost block. -/
inductive Fill : Builder → Builder → Prop
  | place (b node) (leaf : Node.IsLeaf node) : Fill b (b.place node)
  | begin (b owner) (idle : b.awaiting = none) : Fill b (b.begin owner)

abbrev Fills : Builder → Builder → Prop := Relation.ReflTransGen Fill

theorem Fill.move {b c : Builder} (h : Fill b c) : Move b c := by
  cases h with
  | place node leaf => exact .place b node leaf
  | begin owner idle => exact .begin b owner idle

theorem Fills.moves {b c : Builder} (h : Fills b c) : Moves b c := by
  induction h with
  | refl => exact .refl
  | tail _ step ih => exact ih.tail step.move

/-- What every move keeps, any number of moves keeps. -/
theorem Moves.invariant {P : Builder → Prop} (keep : ∀ {b c}, Move b c → P b → P c) {b c : Builder}
    (run : Moves b c) (start : P b) : P c := by
  induction run with
  | refl => exact start
  | tail _ step ih => exact keep step ih

@[simp] theorem awaiting_record (b : Builder) (event : Event) :
    (b.record event).awaiting = b.awaiting := rfl

@[simp] theorem root_record (b : Builder) (event : Event) : (b.record event).root = b.root := rfl

@[simp] theorem levels_record (b : Builder) (event : Event) :
    (b.record event).levels = b.levels := rfl

@[simp] theorem width_record (b : Builder) (event : Event) :
    (b.record event).width = b.width := rfl

@[simp] theorem root_confirm (b : Builder) (width : Nat) (block : Block) :
    (b.confirm width block).root = b.root := rfl

@[simp] theorem levels_confirm (b : Builder) (width : Nat) (block : Block) :
    (b.confirm width block).levels = ⟨width, block⟩ :: b.levels := rfl

@[simp] theorem awaiting_confirm (b : Builder) (width : Nat) (block : Block) :
    (b.confirm width block).awaiting = none := rfl

theorem awaiting_add_eq_none {b : Builder} (idle : b.awaiting = none) (node : Node) :
    (b.add node).awaiting = none := by
  unfold add
  split <;> simp_all

theorem awaiting_place_eq_none {b : Builder} (idle : b.awaiting = none) (node : Node) :
    (b.place node).awaiting = none :=
  awaiting_add_eq_none idle node

theorem closeAwaiting_of_none {b : Builder} (idle : b.awaiting = none) : b.closeAwaiting = b := by
  unfold closeAwaiting
  rw [idle]

@[simp] theorem closeAwaiting_confirm (b : Builder) (width : Nat) (block : Block) :
    (b.confirm width block).closeAwaiting = b.confirm width block :=
  closeAwaiting_of_none rfl

theorem widths_add (b : Builder) (node : Node) :
    (b.add node).levels.map Level.width = b.levels.map Level.width := by
  unfold add
  split <;> simp_all

@[simp] theorem widths_closeAwaiting (b : Builder) :
    b.closeAwaiting.levels.map Level.width = b.levels.map Level.width := by
  unfold closeAwaiting
  split
  · rfl
  · simp [finish, widths_add]

theorem awaiting_closeLevel {b : Builder} (idle : b.awaiting = none) :
    b.closeLevel.awaiting = none := by
  unfold closeLevel
  split
  · exact idle
  · exact awaiting_add_eq_none (by simpa using idle) _

@[simp] theorem widths_closeLevel (b : Builder) :
    b.closeLevel.levels.map Level.width = (b.levels.map Level.width).tail := by
  unfold closeLevel
  split
  · next h => simp [h]
  · next h => simp [finish, widths_add, h]

/-! What the moves leave in the log, and the number of open blocks after them. -/

@[simp] theorem log_place (b : Builder) (node : Node) :
    (b.place node).log = .placed node :: b.log := by
  rw [place, record, log_add]

theorem log_begin (b : Builder) (owner : Owner) :
    (b.begin owner).log = .opened owner (b.begin owner).depth :: b.log := rfl

theorem log_finish (b : Builder) (block : Block) :
    (b.finish block).log = .closed b.depth :: b.log := by
  simp [finish, record]

@[simp] theorem depth_finish (b : Builder) (block : Block) : (b.finish block).depth = b.depth := by
  unfold finish
  exact depth_add b _

theorem log_closeAwaiting {b : Builder} {block : Block} (pending : b.awaiting = some block) :
    b.closeAwaiting.log = .closed b.closeAwaiting.depth :: b.log := by
  simp [closeAwaiting, pending, log_finish]

theorem log_closeLevel {b : Builder} {level : Level} {levels : List Level}
    (top : b.levels = level :: levels) :
    b.closeLevel.log = .closed b.closeLevel.depth :: b.log := by
  simp [closeLevel, top, log_finish]

theorem depth_begin {b : Builder} (idle : b.awaiting = none) (owner : Owner) :
    (b.begin owner).depth = b.depth + 1 := by
  simp [begin, record, depth, idle]

theorem depth_confirm {b : Builder} {block : Block} (pending : b.awaiting = some block)
    (width : Nat) : (b.confirm width block).depth = b.depth := by
  simp [depth, pending]

theorem depth_closeAwaiting {b : Builder} {block : Block} (pending : b.awaiting = some block) :
    b.depth = b.closeAwaiting.depth + 1 := by
  simp only [closeAwaiting, pending, depth_finish]
  simp [depth, pending]

theorem depth_closeLevel {b : Builder} {level : Level} {levels : List Level}
    (idle : b.awaiting = none) (top : b.levels = level :: levels) :
    b.depth = b.closeLevel.depth + 1 := by
  simp only [closeLevel, top, depth_finish]
  simp [depth, top, idle]

theorem moves_closeAwaiting (b : Builder) : Moves b b.closeAwaiting := by
  cases h : b.awaiting with
  | none => rw [closeAwaiting_of_none h]
  | some block => exact .single (.closeAwaiting b block h)

theorem moves_closeLevel {b : Builder} (idle : b.awaiting = none) : Moves b b.closeLevel := by
  cases h : b.levels with
  | nil => simp only [closeLevel, h]; exact .refl
  | cons level levels => exact .single (.closeLevel b level levels idle h)

theorem awaiting_closeLevels {b : Builder} (idle : b.awaiting = none) (n : Nat) :
    (closeLevels n b).awaiting = none := by
  induction n generalizing b with
  | zero => exact idle
  | succ n ih => exact ih (awaiting_closeLevel idle)

theorem moves_closeLevels {b : Builder} (idle : b.awaiting = none) (n : Nat) :
    Moves b (closeLevels n b) := by
  induction n generalizing b with
  | zero => exact .refl
  | succ n ih => exact (moves_closeLevel idle).trans (ih (awaiting_closeLevel idle))

theorem widths_closeLevels (b : Builder) (n : Nat) :
    (closeLevels n b).levels.map Level.width = (b.levels.map Level.width).drop n := by
  induction n generalizing b with
  | zero => rfl
  | succ n ih => rw [closeLevels, ih, widths_closeLevel, List.drop_tail]

theorem fills_placeBreaks (b : Builder) (n : Nat) : Fills b (placeBreaks n b) := by
  induction n generalizing b with
  | zero => exact .refl
  | succ n ih => exact .head (.place b _ .newline) (ih _)

theorem placeBreaks_succ (n : Nat) (b : Builder) :
    placeBreaks (n + 1) b = (placeBreaks n b).place .newline := by
  induction n generalizing b with
  | zero => rfl
  | succ n ih => exact ih (b.place .newline)

theorem moves_closeAll (b : Builder) : Moves b b.closeAll :=
  (moves_closeAwaiting b).trans (moves_closeLevels (awaiting_closeAwaiting b) _)

@[simp] theorem awaiting_closeAll (b : Builder) : b.closeAll.awaiting = none :=
  awaiting_closeLevels (awaiting_closeAwaiting b) _

@[simp] theorem levels_closeAll (b : Builder) : b.closeAll.levels = [] := by
  have h := widths_closeLevels b.closeAwaiting b.levels.length
  rw [widths_closeAwaiting, List.drop_eq_nil_of_le (by simp)] at h
  exact List.map_eq_nil_iff.1 h

/-- A block that is opened, and the line end of its own line in it. -/
theorem fills_begin_breakLine {b : Builder} (idle : b.awaiting = none) (owner : Owner) :
    Fills b ((b.begin owner).place .newline) :=
  (Relation.ReflTransGen.single (.begin b owner idle)).tail (.place _ _ .newline)

/-- A node that fills a line, and the line end. -/
theorem fills_place_breakLine (b : Builder) {node : Node} (leaf : node.IsLeaf) :
    Fills b ((b.place node).place .newline) :=
  (Relation.ReflTransGen.single (.place b node leaf)).tail (.place _ _ .newline)

theorem width_fills {b c : Builder} (h : Fills b c) : c.width = b.width := by
  induction h with
  | refl => rfl
  | tail _ fill ih =>
    cases fill with
    | place node leaf => rw [width_place, ih]
    | begin owner idle => rw [width_begin, ih]

end Builder

end TemplateMarkup
