import TemplateMarkup.Proofs.Builder.Align
import TemplateMarkup.Proofs.Line.Rest
import TemplateMarkup.Proofs.Text.Lines
import TemplateMarkup.Reading.Feed

/-! The line ends that a tree accounts for, finished or under construction. -/
namespace TemplateMarkup
open Builder

/-- The line breaks within some code. -/
def codeBreaks (code : String) : Nat := code.toList.count '\n'

mutual

/-- One for each line-end node, and one for each line break within code. -/
def Node.lineEnds : Node → Nat
  | .multi nodes => Node.lineEndsOfList nodes
  | .newline => 1
  | .tag _ attrs content => Attr.lineEndsOfList attrs + content.lineEnds
  | .voidTag _ attrs => Attr.lineEndsOfList attrs
  | .comment content | .conditional _ content | .embedded _ content => content.lineEnds
  | .control code content | .output _ code content => codeBreaks code + content.lineEnds
  | .doctype _ | .interpolate _ | .static _ => 0

def Node.lineEndsOfList : List Node → Nat
  | [] => 0
  | node :: nodes => node.lineEnds + Node.lineEndsOfList nodes

def Attr.lineEnds : Attr → Nat
  | .valued _ value => value.lineEnds
  | .shortcut _ _ | .flag _ => 0

def Attr.lineEndsOfList : List Attr → Nat
  | [] => 0
  | attr :: attrs => attr.lineEnds + Attr.lineEndsOfList attrs

end

theorem Node.lineEndsOfList_append (nodes more : List Node) :
    lineEndsOfList (nodes ++ more) = lineEndsOfList nodes + lineEndsOfList more := by
  induction nodes with
  | nil => simp [lineEndsOfList]
  | cons node nodes ih => simp [lineEndsOfList, ih, Nat.add_assoc]

@[simp] theorem Node.lineEndsOfList_reverse (nodes : List Node) :
    lineEndsOfList nodes.reverse = lineEndsOfList nodes := by
  induction nodes with
  | nil => rfl
  | cons node nodes ih =>
    rw [List.reverse_cons, lineEndsOfList_append, ih]
    simp [lineEndsOfList, Nat.add_comm]

theorem Attr.lineEndsOfList_append (attrs more : List Attr) :
    lineEndsOfList (attrs ++ more) = lineEndsOfList attrs + lineEndsOfList more := by
  induction attrs with
  | nil => simp [lineEndsOfList]
  | cons attr attrs ih => simp [lineEndsOfList, ih, Nat.add_assoc]

/-- Shortcuts hold no nodes. -/
theorem lineEnds_readShortcuts (cs : List Char) :
    Attr.lineEndsOfList (readShortcuts cs).1 = 0 := by
  fun_induction readShortcuts cs with
  | case1 cs mark c rest h hcond value attrs left hrec ih =>
    rw [hrec] at ih
    simpa [Attr.lineEndsOfList, Attr.lineEnds] using ih
  | case2 => rfl
  | case3 => rfl

/-- The value of an attribute is text. -/
theorem lineEnds_readAttributes {close : Option Char} {cs : List Char} {attrs : List Attr}
    {rest : List Char} (h : readAttributes close cs = .ok (attrs, rest)) :
    Attr.lineEndsOfList attrs = 0 := by
  rw [readAttributes_iff] at h
  induction h with
  | done => rfl
  | valued named given onward ih | flag named bare onward ih =>
    rw [Attr.lineEndsOfList, ih]
    rfl

/-- The line ends of a container that are not in its block. -/
def Owner.lineEnds : Owner → Nat
  | .tag _ attrs => Attr.lineEndsOfList attrs
  | .outputTag _ attrs _ code => Attr.lineEndsOfList attrs + codeBreaks code
  | .control code | .output _ code => codeBreaks code
  | .comment | .conditional _ | .embedded _ => 0

theorem Owner.lineEnds_enclose (owner : Owner) (nodes : List Node) :
    (owner.enclose nodes).lineEnds = owner.lineEnds + Node.lineEndsOfList nodes := by
  cases owner <;> simp [enclose, lineEnds, Node.lineEnds, Nat.add_assoc]

def Block.lineEnds (block : Block) : Nat :=
  block.owner.lineEnds + Node.lineEndsOfList block.nodes

namespace Builder

def levelsLineEnds : List Level → Nat
  | [] => 0
  | level :: levels => level.block.lineEnds + levelsLineEnds levels

/-- The line ends of all nodes so far and of the owners of the open blocks. -/
def lineEnds (b : Builder) : Nat :=
  Node.lineEndsOfList b.root + levelsLineEnds b.levels + b.awaiting.elim 0 Block.lineEnds

theorem lineEnds_add (b : Builder) (node : Node) :
    (b.add node).lineEnds = b.lineEnds + node.lineEnds := by
  unfold add
  split
  · next h =>
    simp only [lineEnds, h, Option.elim_some, Block.lineEnds, Node.lineEndsOfList]
    omega
  · next h hl =>
    simp only [lineEnds, h, hl, Option.elim_none, levelsLineEnds, Node.lineEndsOfList]
    omega
  · next h hl =>
    simp only [lineEnds, h, hl, Option.elim_none, levelsLineEnds, Block.lineEnds,
      Node.lineEndsOfList]
    omega

@[simp] theorem lineEnds_place (b : Builder) (node : Node) :
    (b.place node).lineEnds = b.lineEnds + node.lineEnds :=
  lineEnds_add b node

@[simp] theorem lineEnds_placeBreaks (b : Builder) (n : Nat) :
    (placeBreaks n b).lineEnds = b.lineEnds + n := by
  induction n generalizing b with
  | zero => rfl
  | succ n ih =>
    rw [placeBreaks, ih, lineEnds_place, Node.lineEnds]
    omega

theorem lineEnds_begin {b : Builder} (idle : b.awaiting = none) (owner : Owner) :
    (b.begin owner).lineEnds = b.lineEnds + owner.lineEnds := by
  simp [begin, record, lineEnds, idle, Block.lineEnds, Node.lineEndsOfList]

theorem lineEnds_finish (b : Builder) (block : Block) :
    (b.finish block).lineEnds = b.lineEnds + block.lineEnds := by
  change (b.add (block.owner.enclose block.nodes.reverse)).lineEnds = _
  rw [lineEnds_add, Owner.lineEnds_enclose, Node.lineEndsOfList_reverse, Block.lineEnds]

@[simp] theorem lineEnds_closeAwaiting (b : Builder) : b.closeAwaiting.lineEnds = b.lineEnds := by
  unfold closeAwaiting
  split
  · rfl
  · next block h =>
    rw [lineEnds_finish]
    simp [lineEnds, h]

@[simp] theorem lineEnds_closeLevel (b : Builder) : b.closeLevel.lineEnds = b.lineEnds := by
  unfold closeLevel
  split
  · rfl
  · next level levels h =>
    rw [lineEnds_finish]
    simp only [lineEnds, h, levelsLineEnds]
    omega

@[simp] theorem lineEnds_closeLevels (b : Builder) (n : Nat) :
    (closeLevels n b).lineEnds = b.lineEnds := by
  induction n generalizing b with
  | zero => rfl
  | succ n ih => rw [closeLevels, ih, lineEnds_closeLevel]

@[simp] theorem lineEnds_closeAll (b : Builder) : b.closeAll.lineEnds = b.lineEnds := by
  rw [closeAll, lineEnds_closeLevels, lineEnds_closeAwaiting]

/-- Fitting a line to the open blocks neither loses nor adds any. -/
theorem lineEnds_align {b c : Builder} {width : Nat} {moved : Bool}
    (h : b.align width = .ok (c, moved)) : c.lineEnds = b.lineEnds := by
  obtain ⟨block, -, pending, -, rfl⟩ | ⟨-, rfl, -, -⟩ := align_cases h
  · simp only [lineEnds, pending, root_confirm, levels_confirm, awaiting_confirm, levelsLineEnds,
      Option.elim_some, Option.elim_none]
    omega
  · rw [cutTo, lineEnds_closeLevels, lineEnds_closeAwaiting]

theorem lineEnds_tree (b : Builder) : b.closeAll.tree.lineEnds = b.lineEnds := by
  rw [← lineEnds_closeAll]
  simp [lineEnds, tree, Node.lineEnds, levelsLineEnds]

end Builder

theorem lineEnds_joinCode {segments : List (List Char)} (filled : segments ≠ [])
    (unbroken : ∀ segment ∈ segments, '\n' ∉ segment) :
    codeBreaks (joinCode segments) + 1 = segments.length := by
  have unbroken' : ∀ segment ∈ segments.reverse, '\n' ∉ segment := by simpa using unbroken
  have joined := count_intercalate unbroken' (by simpa)
  simpa [codeBreaks, joinCode] using joined

end TemplateMarkup
