import TemplateMarkup.Proofs.Builder.Congruence
import TemplateMarkup.Proofs.LineEnds.Tree

/-! Trees without their line ends. Two trees that differ in line ends alone go on to do so when both
are moved alike, and a line end more in one of them makes no difference. -/
namespace TemplateMarkup
open Builder

mutual

/-- The line-end nodes of a tree, those in attributes among them. -/
def Node.breaks : Node → Nat
  | .multi nodes => Node.breaksOfList nodes
  | .newline => 1
  | .tag _ attrs content => Attr.breaksOfList attrs + content.breaks
  | .voidTag _ attrs => Attr.breaksOfList attrs
  | .comment content | .conditional _ content | .embedded _ content | .control _ content
  | .output _ _ content => content.breaks
  | .doctype _ | .interpolate _ | .static _ => 0

def Node.breaksOfList : List Node → Nat
  | [] => 0
  | node :: nodes => node.breaks + Node.breaksOfList nodes

def Attr.breaks : Attr → Nat
  | .valued _ value => value.breaks
  | .shortcut _ _ | .flag _ => 0

def Attr.breaksOfList : List Attr → Nat
  | [] => 0
  | attr :: attrs => attr.breaks + Attr.breaksOfList attrs

end

mutual

/-- A tree without its line-end nodes. One that stands in no list leaves an empty list behind. -/
def Node.pruned : Node → Node
  | .multi nodes => .multi (Node.prunedList nodes)
  | .newline => .multi []
  | .tag name attrs content => .tag name (Attr.prunedList attrs) content.pruned
  | .voidTag name attrs => .voidTag name (Attr.prunedList attrs)
  | .comment content => .comment content.pruned
  | .conditional condition content => .conditional condition content.pruned
  | .embedded engine content => .embedded engine content.pruned
  | .control code content => .control code content.pruned
  | .output escape code content => .output escape code content.pruned
  | .doctype value => .doctype value
  | .interpolate text => .interpolate text
  | .static text => .static text

def Node.prunedList : List Node → List Node
  | [] => []
  | .newline :: nodes => Node.prunedList nodes
  | node :: nodes => node.pruned :: Node.prunedList nodes

def Attr.pruned : Attr → Attr
  | .valued name value => .valued name value.pruned
  | .shortcut name value => .shortcut name value
  | .flag name => .flag name

def Attr.prunedList : List Attr → List Attr
  | [] => []
  | attr :: attrs => attr.pruned :: Attr.prunedList attrs

end

/-- What may stand in a list without its line ends: a node, or nothing in place of a line end. -/
theorem Node.prunedList_cons (node : Node) (nodes : List Node) :
    node = .newline ∧ prunedList (node :: nodes) = prunedList nodes ∨
      prunedList (node :: nodes) = node.pruned :: prunedList nodes := by
  cases node <;> simp [prunedList]

theorem Node.prunedList_congr {nodes more : List Node} (node : Node)
    (same : prunedList more = prunedList nodes) :
    prunedList (node :: more) = prunedList (node :: nodes) := by
  cases node <;> simp [prunedList, same]

theorem Node.prunedList_append (nodes more : List Node) :
    prunedList (nodes ++ more) = prunedList nodes ++ prunedList more := by
  induction nodes with
  | nil => rfl
  | cons node nodes ih => cases node <;> simp [prunedList, ih]

theorem Node.prunedList_reverse (nodes : List Node) :
    prunedList nodes.reverse = (prunedList nodes).reverse := by
  induction nodes with
  | nil => rfl
  | cons node nodes ih =>
    rw [List.reverse_cons, prunedList_append, ih]
    cases node <;> simp [prunedList]

mutual

/-- What accounts for the lines of a tree besides its line-end nodes is still there without them. -/
theorem Node.lineEnds_eq_breaks : (node : Node) → node.lineEnds = node.breaks + node.pruned.lineEnds
  | .multi nodes => Node.lineEndsOfList_eq_breaks nodes
  | .newline => rfl
  | .tag _ attrs content => by
    have outer := Attr.lineEndsOfList_eq_breaks attrs
    have inner := Node.lineEnds_eq_breaks content
    simp only [Node.lineEnds, Node.breaks, Node.pruned]
    omega
  | .voidTag _ attrs => Attr.lineEndsOfList_eq_breaks attrs
  | .comment content | .conditional _ content | .embedded _ content =>
    Node.lineEnds_eq_breaks content
  | .control _ content | .output _ _ content => by
    have inner := Node.lineEnds_eq_breaks content
    simp only [Node.lineEnds, Node.breaks, Node.pruned]
    omega
  | .doctype _ | .interpolate _ | .static _ => rfl

theorem Node.lineEndsOfList_eq_breaks : (nodes : List Node) →
    Node.lineEndsOfList nodes = Node.breaksOfList nodes + Node.lineEndsOfList (Node.prunedList nodes)
  | [] => rfl
  | node :: nodes => by
    have first := Node.lineEnds_eq_breaks node
    have rest := Node.lineEndsOfList_eq_breaks nodes
    obtain ⟨rfl, pruned⟩ | pruned := Node.prunedList_cons node nodes
    · simp only [Node.lineEndsOfList, Node.breaksOfList, Node.lineEnds, Node.breaks, pruned]
      omega
    · simp only [Node.lineEndsOfList, Node.breaksOfList, pruned]
      omega

theorem Attr.lineEnds_eq_breaks : (attr : Attr) → attr.lineEnds = attr.breaks + attr.pruned.lineEnds
  | .valued _ value => Node.lineEnds_eq_breaks value
  | .shortcut _ _ | .flag _ => rfl

theorem Attr.lineEndsOfList_eq_breaks : (attrs : List Attr) →
    Attr.lineEndsOfList attrs = Attr.breaksOfList attrs + Attr.lineEndsOfList (Attr.prunedList attrs)
  | [] => rfl
  | attr :: attrs => by
    have first := Attr.lineEnds_eq_breaks attr
    have rest := Attr.lineEndsOfList_eq_breaks attrs
    simp only [Attr.lineEndsOfList, Attr.breaksOfList, Attr.prunedList]
    omega

end

/-- Trees that differ in line ends alone differ in as many as the lines they account for. -/
theorem Node.breaks_of_pruned {node other : Node} (same : other.pruned = node.pruned) {k : Nat}
    (more : other.lineEnds = node.lineEnds + k) : other.breaks = node.breaks + k := by
  rw [lineEnds_eq_breaks, lineEnds_eq_breaks node, same] at more
  omega

def Block.pruned (block : Block) : Block := { block with nodes := Node.prunedList block.nodes }

def Level.pruned (level : Level) : Level := { level with block := level.block.pruned }

/-- Blocks that differ in line ends alone become nodes that do so. -/
theorem Block.pruned_enclose {x y : Block} (same : y.pruned = x.pruned) :
    (y.owner.enclose y.nodes.reverse).pruned = (x.owner.enclose x.nodes.reverse).pruned := by
  obtain ⟨owner, nodes⟩ := x
  obtain ⟨owner', more⟩ := y
  obtain ⟨rfl, same⟩ := Block.mk.inj same
  cases owner' <;> simp [Owner.enclose, Node.pruned, Node.prunedList_reverse, same]

theorem Owner.enclose_ne_newline (owner : Owner) (nodes : List Node) :
    owner.enclose nodes ≠ .newline := by
  cases owner <;> simp [enclose]

namespace Builder

/-- Two trees under construction that differ in line ends and in their logs alone. -/
structure SamePruned (b c : Builder) : Prop where
  root : Node.prunedList c.root = Node.prunedList b.root
  levels : c.levels.map Level.pruned = b.levels.map Level.pruned
  awaiting : c.awaiting.map Block.pruned = b.awaiting.map Block.pruned

namespace SamePruned

variable {b c : Builder} {node node' : Node}

theorem refl (b : Builder) : SamePruned b b := ⟨rfl, rfl, rfl⟩

theorem symm (h : SamePruned b c) : SamePruned c b := ⟨h.root.symm, h.levels.symm, h.awaiting.symm⟩

theorem trans (h : SamePruned b c) {d : Builder} (h' : SamePruned c d) : SamePruned b d :=
  ⟨h'.root.trans h.root, h'.levels.trans h.levels, h'.awaiting.trans h.awaiting⟩

theorem record (h : SamePruned b c) (e e' : Event) : SamePruned (b.record e) (c.record e') :=
  ⟨h.root, h.levels, h.awaiting⟩

/-- Nodes are added to blocks alike that come to the same without line ends. -/
theorem add (h : SamePruned b c)
    (same : ∀ {nodes more}, Node.prunedList more = Node.prunedList nodes →
      Node.prunedList (node' :: more) = Node.prunedList (node :: nodes)) :
    SamePruned (b.add node) (c.add node') := by
  obtain ⟨root, levels, awaiting, log⟩ := b
  obtain ⟨root', levels', awaiting', log'⟩ := c
  obtain ⟨hroot, hlevels, hawaiting⟩ := h
  cases awaiting with
  | some block =>
    obtain ⟨block', rfl, hblock⟩ := Option.map_eq_some_iff.1 hawaiting
    obtain ⟨owner, nodes⟩ := Block.mk.inj hblock
    refine ⟨hroot, hlevels, ?_⟩
    simp only [Builder.add, Option.map_some, Block.pruned, owner, same nodes]
  | none =>
    obtain rfl := Option.map_eq_none_iff.1 hawaiting
    cases levels with
    | nil =>
      obtain rfl := List.map_eq_nil_iff.1 hlevels
      exact ⟨same hroot, rfl, rfl⟩
    | cons level levels =>
      obtain ⟨level', levels', rfl, hlevel, hrest⟩ := List.map_eq_cons_iff.1 hlevels
      obtain ⟨width, hblock⟩ := Level.mk.inj hlevel
      obtain ⟨owner, nodes⟩ := Block.mk.inj hblock
      refine ⟨hroot, ?_, rfl⟩
      simp only [Builder.add, List.map_cons, Level.pruned, Block.pruned, width, owner, same nodes, hrest]

theorem place (h : SamePruned b c) (node : Node) : SamePruned (b.place node) (c.place node) :=
  (h.add fun same => Node.prunedList_congr node same).record _ _

/-- A line end makes no difference, -/
theorem breakLine (b : Builder) : SamePruned b (b.place .newline) := by
  obtain ⟨root, levels, awaiting, log⟩ := b
  cases awaiting with
  | some block => exact ⟨rfl, rfl, rfl⟩
  | none => cases levels <;> exact ⟨rfl, rfl, rfl⟩

/-- and neither does any number of them. -/
theorem placeBreaks (b : Builder) (n : Nat) : SamePruned b (placeBreaks n b) := by
  induction n generalizing b with
  | zero => exact refl b
  | succ n ih => exact (breakLine b).trans (ih _)

theorem finish (h : SamePruned b c) {x y : Block} (same : y.pruned = x.pruned) :
    SamePruned (b.finish x) (c.finish y) := by
  refine (h.add fun {nodes more} rest => ?_).record _ _
  have kept (block : Block) (nodes : List Node) :
      Node.prunedList (block.owner.enclose block.nodes.reverse :: nodes) =
        (block.owner.enclose block.nodes.reverse).pruned :: Node.prunedList nodes :=
    (Node.prunedList_cons _ nodes).resolve_left fun found =>
      Owner.enclose_ne_newline _ _ found.1
  rw [kept, kept, Block.pruned_enclose same, rest]

theorem confirm (h : SamePruned b c) (width : Nat) {x y : Block} (hx : b.awaiting = some x)
    (hy : c.awaiting = some y) : SamePruned (b.confirm width x) (c.confirm width y) := by
  have same : y.pruned = x.pruned := by simpa [hx, hy] using h.awaiting
  refine ⟨h.root, ?_, rfl⟩
  rw [levels_confirm, levels_confirm, List.map_cons, List.map_cons, h.levels, Level.pruned, same]
  rfl

theorem closeAwaiting (h : SamePruned b c) : SamePruned b.closeAwaiting c.closeAwaiting := by
  have pending := h.awaiting
  unfold Builder.closeAwaiting
  cases hx : b.awaiting with
  | none =>
    rw [hx, Option.map_none, Option.map_eq_none_iff] at pending
    simpa [pending] using h
  | some x =>
    rw [hx, Option.map_some] at pending
    obtain ⟨y, hy, same⟩ := Option.map_eq_some_iff.1 pending
    have idle : SamePruned { b with awaiting := none } { c with awaiting := none } :=
      ⟨h.root, h.levels, rfl⟩
    simpa only [hy] using idle.finish same

theorem closeLevel (h : SamePruned b c) : SamePruned b.closeLevel c.closeLevel := by
  have top := h.levels
  unfold Builder.closeLevel
  cases hx : b.levels with
  | nil =>
    rw [hx, List.map_nil, List.map_eq_nil_iff] at top
    simpa [top] using h
  | cons x xs =>
    rw [hx, List.map_cons] at top
    obtain ⟨y, ys, hy, same, rest⟩ := List.map_eq_cons_iff.1 top
    have outer : SamePruned { b with levels := xs } { c with levels := ys } :=
      ⟨h.root, rest, h.awaiting⟩
    simpa only [hy] using outer.finish (Level.mk.inj same).2

end SamePruned

theorem samePruned_congruence : Congruence SamePruned where
  widths h := by simpa [Function.comp_def, Level.pruned] using congrArg (List.map Level.width) h.levels
  pending h := by simpa using congrArg Option.isSome h.awaiting
  place h node := h.place node
  begin h _ := ⟨h.root, h.levels, rfl⟩
  confirm h width _ _ hx hy := h.confirm width hx hy
  closeAwaiting h := h.closeAwaiting
  closeLevel h := h.closeLevel
  dispatch h _ _ _ _ := h.record _ _

theorem SamePruned.pruned_tree {b c : Builder} (h : SamePruned b c) :
    c.tree.pruned = b.tree.pruned := by
  simp [tree, Node.pruned, Node.prunedList_reverse, h.root]

end Builder

end TemplateMarkup
