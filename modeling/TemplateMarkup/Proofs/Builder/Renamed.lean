import TemplateMarkup.Proofs.Builder.Align

/-! The names of tags do not matter to how a tree is built. If every tag is renamed by a function,
each move on the tree comes to the same with the other names. -/
namespace TemplateMarkup

mutual

/-- The node with other names for its tags. -/
def Node.rename (f : String → String) : Node → Node
  | .multi nodes => .multi (Node.renameList f nodes)
  | .tag name attrs content => .tag (f name) attrs (content.rename f)
  | .voidTag name attrs => .voidTag (f name) attrs
  | .comment content => .comment (content.rename f)
  | .conditional condition content => .conditional condition (content.rename f)
  | .embedded engine content => .embedded engine (content.rename f)
  | .control code content => .control code (content.rename f)
  | .output escape code content => .output escape code (content.rename f)
  | .newline => .newline
  | .doctype value => .doctype value
  | .interpolate text => .interpolate text
  | .static text => .static text

def Node.renameList (f : String → String) : List Node → List Node
  | [] => []
  | node :: nodes => node.rename f :: Node.renameList f nodes

end

variable {f : String → String}

theorem Node.renameList_eq_map (nodes : List Node) :
    Node.renameList f nodes = nodes.map (Node.rename f) := by
  induction nodes with
  | nil => rfl
  | cons node nodes ih => rw [Node.renameList, ih, List.map_cons]

namespace Owner

def rename (f : String → String) : Owner → Owner
  | tag name attrs => tag (f name) attrs
  | outputTag name attrs escape code => outputTag (f name) attrs escape code
  | owner => owner

theorem rename_enclose (owner : Owner) (nodes : List Node) :
    (owner.enclose nodes).rename f = (owner.rename f).enclose (nodes.map (Node.rename f)) := by
  rw [← Node.renameList_eq_map]
  cases owner <;> rfl

end Owner

def Event.rename (f : String → String) : Event → Event
  | dispatched number width text => dispatched number width text
  | placed node => placed (node.rename f)
  | opened owner depth => opened (owner.rename f) depth
  | closed depth => closed depth

def Block.rename (f : String → String) (block : Block) : Block :=
  ⟨block.owner.rename f, block.nodes.map (Node.rename f)⟩

def Level.rename (f : String → String) (level : Level) : Level :=
  ⟨level.width, level.block.rename f⟩

namespace Builder

/-- The tree with other names for its tags. -/
def rename (f : String → String) (b : Builder) : Builder where
  root := b.root.map (Node.rename f)
  levels := b.levels.map (Level.rename f)
  awaiting := b.awaiting.map (Block.rename f)
  log := b.log.map (Event.rename f)

def Misfit.rename (f : String → String) (misfit : Misfit) : Misfit :=
  ⟨misfit.cause, misfit.log.map (Event.rename f)⟩

variable (b : Builder)

@[simp] theorem awaiting_rename : (b.rename f).awaiting = b.awaiting.map (Block.rename f) := rfl

@[simp] theorem length_levels_rename : (b.rename f).levels.length = b.levels.length :=
  List.length_map _

@[simp] theorem width_rename : (b.rename f).width = b.width := by
  obtain ⟨root, levels, awaiting, log⟩ := b
  cases levels <;> rfl

@[simp] theorem depth_rename : (b.rename f).depth = b.depth := by
  simp [depth]

theorem rename_record (event : Event) :
    (b.record event).rename f = (b.rename f).record (event.rename f) :=
  rfl

theorem rename_add (node : Node) : (b.add node).rename f = (b.rename f).add (node.rename f) := by
  obtain ⟨root, levels, awaiting, log⟩ := b
  cases awaiting <;> cases levels <;> rfl

theorem rename_place (node : Node) :
    (b.place node).rename f = (b.rename f).place (node.rename f) := by
  rw [place, rename_record, rename_add]
  rfl

theorem rename_placeBreaks (n : Nat) :
    (placeBreaks n b).rename f = placeBreaks n (b.rename f) := by
  induction n generalizing b with
  | zero => rfl
  | succ n ih =>
    rw [placeBreaks, ih, rename_place, placeBreaks]
    rfl

theorem rename_begin (owner : Owner) :
    (b.begin owner).rename f = (b.rename f).begin (owner.rename f) := by
  simp only [begin, rename_record, Event.rename]
  congr 2
  simp [depth]

theorem rename_finish (block : Block) :
    (b.finish block).rename f = (b.rename f).finish (block.rename f) := by
  have nodes : (block.rename f).nodes.reverse = block.nodes.reverse.map (Node.rename f) :=
    List.map_reverse.symm
  rw [finish, finish, rename_record, nodes]
  simp only [rename_add, Owner.rename_enclose, depth_add, depth_rename]
  rfl

theorem rename_closeAwaiting : b.closeAwaiting.rename f = (b.rename f).closeAwaiting := by
  obtain ⟨root, levels, awaiting, log⟩ := b
  cases awaiting with
  | none => rfl
  | some block => exact rename_finish _ block

theorem rename_closeLevel : b.closeLevel.rename f = (b.rename f).closeLevel := by
  obtain ⟨root, levels, awaiting, log⟩ := b
  cases levels with
  | nil => rfl
  | cons level levels => exact rename_finish _ level.block

theorem rename_closeLevels (n : Nat) :
    (closeLevels n b).rename f = closeLevels n (b.rename f) := by
  induction n generalizing b with
  | zero => rfl
  | succ n ih => rw [closeLevels, ih, rename_closeLevel, closeLevels]

theorem rename_closeAll : b.closeAll.rename f = (b.rename f).closeAll := by
  rw [closeAll, rename_closeLevels, rename_closeAwaiting, closeAll, length_levels_rename]

theorem rename_cutTo (width : Nat) : (b.cutTo width).rename f = (b.rename f).cutTo width := by
  have deeper : ((b.levels.map (Level.rename f)).takeWhile (width < ·.width)).length =
      (b.levels.takeWhile (width < ·.width)).length := by
    rw [List.takeWhile_map, List.length_map]
    rfl
  rw [cutTo, rename_closeLevels, rename_closeAwaiting, cutTo, ← deeper]
  rfl

/-- A line fits under other names where it did, and is refused for the same cause. -/
theorem align_rename (width : Nat) :
    (b.rename f).align width =
      ((b.align width).map (Prod.map (rename f) id)).mapError (Misfit.rename f) := by
  unfold align
  rw [width_rename, awaiting_rename, ← cutTo, ← cutTo, ← rename_cutTo]
  split
  · cases b.awaiting with
    | none => rfl
    | some block => rfl
  · simp only [width_rename]
    split <;> rfl

theorem tree_rename : (b.rename f).tree = b.tree.rename f := by
  rw [tree, tree, Node.rename, Node.renameList_eq_map, List.map_reverse]
  rfl

end Builder

end TemplateMarkup
