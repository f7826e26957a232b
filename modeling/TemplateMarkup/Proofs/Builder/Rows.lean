import TemplateMarkup.Node.Outline
import TemplateMarkup.Proofs.Builder.Align

/-! The rows of a tree: for each block what its nodes are for the space between words, line ends left
out. A block under construction already has its place in the row of the block around it, so a row
only ever grows at its end, and ending a block changes none. -/
namespace TemplateMarkup

/-- What a node is for the spaces beside it. -/
inductive Role where
  | lineEnd
  | space
  /-- A text or a tag. -/
  | word
  /-- The output of some code. -/
  | value
  | other
  deriving DecidableEq

def Node.role : Node → Role
  | newline => .lineEnd
  | static _ => .space
  | interpolate _ | tag .. | voidTag .. => .word
  | output .. => .value
  | multi _ | doctype _ | comment _ | conditional .. | embedded .. | control .. => .other

/-- The roles of some nodes in order, without line ends. -/
def rowOf (nodes : List Node) : List Role := (nodes.map Node.role).filter (· ≠ .lineEnd)

/-- Puts a role in front of a row, unless it is that of a line end. -/
def Role.onto (role : Role) (row : List Role) : List Role :=
  if role = .lineEnd then row else role :: row

theorem rowOf_cons (node : Node) (nodes : List Node) :
    rowOf (node :: nodes) = node.role.onto (rowOf nodes) := by
  unfold rowOf Role.onto
  split <;> simp_all

theorem rowOf_reverse (nodes : List Node) : rowOf nodes.reverse = (rowOf nodes).reverse := by
  simp [rowOf]

/-- A row, newest role first, in which each space is followed by a word and `P` holds of what stands
before it. -/
inductive Parted (P : List Role → Prop) : List Role → Prop
  | nil : Parted P []
  | cons {row : List Role} (role : Role) (filled : role ≠ .space) (older : Parted P row) :
      Parted P (role :: row)
  | space {row : List Role} (older : Parted P row) (before : P row) :
      Parted P (.word :: .space :: row)

/-- A row that may end with a space, as long as a word is due. -/
inductive Pending (P : List Role → Prop) (due : Bool) : List Role → Prop
  | parted {row : List Role} (whole : Parted P row) : Pending P due row
  | space {row : List Role} (word : due = true) (older : Parted P row) (before : P row) :
      Pending P due (.space :: row)

section Rows

variable {P : List Role → Prop} {due : Bool} {row : List Role}

theorem Parted.onto (h : Parted P row) {role : Role} (filled : role ≠ .space) :
    Parted P (role.onto row) := by
  unfold Role.onto
  split
  · exact h
  · exact .cons role filled h

theorem Pending.word (h : Pending P due row) : Parted P (.word :: row) := by
  cases h with
  | parted whole => exact .cons .word (by decide) whole
  | space _ older before => exact .space older before

theorem Pending.parted_of_not_due (h : Pending P false row) : Parted P row := by
  cases h with
  | parted whole => exact whole
  | space word => cases word

theorem Parted.at_space (h : Parted P row) {newer older : List Role}
    (split : row = newer ++ .space :: older) : newer.getLast? = some .word ∧ P older := by
  induction h generalizing newer with
  | nil => simp at split
  | cons role filled _ ih =>
    cases newer with
    | nil => exact absurd (List.cons.inj split).1 filled
    | cons first newer =>
      obtain ⟨-, rest⟩ := List.cons.inj split
      obtain ⟨last, before⟩ := ih rest
      exact ⟨by rw [List.getLast?_cons, last]; rfl, before⟩
  | space _ before ih =>
    match newer with
    | [] => cases split
    | [_] =>
      cases split
      exact ⟨rfl, before⟩
    | first :: second :: newer =>
      obtain ⟨-, rest⟩ := List.cons.inj (List.cons.inj split).2
      obtain ⟨last, before⟩ := ih rest
      exact ⟨by rw [List.getLast?_cons, List.getLast?_cons, last]; rfl, before⟩

theorem Pending.of_not_due (h : Pending P false row) : Pending P due row :=
  .parted h.parted_of_not_due

end Rows

/-- All rows in a finished node are parted. -/
def Node.HasRows (P : List Role → Prop) (node : Node) : Prop :=
  ∀ nodes, multi nodes ∈ node.preorder → Parted P (rowOf nodes.reverse)

theorem Node.mem_preorderList {node : Node} {nodes : List Node} :
    node ∈ preorderList nodes ↔ ∃ outer ∈ nodes, node ∈ outer.preorder := by
  induction nodes with
  | nil => simp [preorderList]
  | cons first nodes ih => simp [preorderList, ih]

theorem Node.hasRows_multi {P : List Role → Prop} {nodes : List Node}
    (row : Parted P (rowOf nodes.reverse)) (inside : ∀ node ∈ nodes, node.HasRows P) :
    (multi nodes).HasRows P := by
  intro inner mem
  simp only [preorder, List.mem_cons, mem_preorderList] at mem
  obtain same | ⟨node, among, within⟩ := mem
  · exact Node.multi.inj same ▸ row
  · exact inside node among inner within

theorem Node.IsLeaf.hasRows {P : List Role → Prop} {node : Node} (leaf : node.IsLeaf) :
    node.HasRows P := by
  cases leaf <;> simp [Node.HasRows, Node.preorder]

namespace Owner

/-- The role that the owner of a block will have. -/
def role : Owner → Role
  | tag .. | outputTag .. => .word
  | output .. => .value
  | control _ | comment | conditional _ | embedded _ => .other

theorem role_enclose (owner : Owner) (nodes : List Node) :
    (owner.enclose nodes).role = owner.role := by
  cases owner <;> rfl

theorem role_ne_space (owner : Owner) : owner.role ≠ .space := by
  cases owner <;> simp [role]

theorem role_ne_lineEnd (owner : Owner) : owner.role ≠ .lineEnd := by
  cases owner <;> simp [role]

theorem hasRows_enclose {P : List Role → Prop} {nodes : List Node} (owner : Owner)
    (inside : (Node.multi nodes).HasRows P) : (owner.enclose nodes).HasRows P := by
  intro inner mem
  have within : .multi inner ∈ (Node.multi nodes).preorder := by
    cases owner <;> simpa [enclose, Node.preorder] using mem
  exact inside inner within

end Owner

namespace Builder

/-- The rows of the levels and of the root around what stands in `front`, innermost first. -/
def rowsFrom (root : List Node) : List Role → List Level → List (List Role)
  | front, [] => [front ++ rowOf root]
  | front, level :: levels =>
    (front ++ rowOf level.block.nodes) :: rowsFrom root [level.block.owner.role] levels

/-- The rows of all blocks but the one that awaits its width, which has its place in the first. -/
def settledRows (b : Builder) : List (List Role) :=
  rowsFrom b.root (b.awaiting.elim [] ([·.owner.role])) b.levels

/-- The rows of all open blocks, innermost first and each newest first. -/
def rows (b : Builder) : List (List Role) :=
  match b.awaiting with
  | none => b.settledRows
  | some block => rowOf block.nodes :: b.settledRows

/-- All nodes that were put into open blocks. -/
def nodes (b : Builder) : List Node :=
  b.root ++ b.levels.flatMap (·.block.nodes) ++ b.awaiting.elim [] Block.nodes

variable {b : Builder} {top row : List Role} {outer : List (List Role)}

/-- What is put in front stands in the first row. -/
theorem rowsFrom_cons {root : List Node} {front : List Role} {levels : List Level} (role : Role)
    (rows : rowsFrom root front levels = top :: outer) :
    rowsFrom root (role :: front) levels = (role :: top) :: outer := by
  cases levels <;> cases rows <;> rfl

theorem rows_ne_nil (b : Builder) : ∃ top outer, b.rows = top :: outer := by
  obtain ⟨root, levels, awaiting, log⟩ := b
  cases awaiting <;> cases levels <;> exact ⟨_, _, rfl⟩

theorem rows_of_idle (idle : b.awaiting = none) : b.rows = b.settledRows := by
  simp [rows, idle]

theorem rows_of_pending {block : Block} (pending : b.awaiting = some block) :
    b.rows = rowOf block.nodes :: b.settledRows := by
  simp [rows, pending]

theorem rows_add (h : b.rows = top :: outer) (node : Node) :
    (b.add node).rows = node.role.onto top :: outer := by
  obtain ⟨root, levels, awaiting, log⟩ := b
  cases awaiting with
  | some block =>
    obtain ⟨rfl, rfl⟩ := List.cons.inj h
    rw [← rowOf_cons]
    rfl
  | none =>
    cases levels with
    | nil =>
      cases h
      simp [add, rows, settledRows, rowsFrom, rowOf_cons]
    | cons level levels =>
      cases h
      simp [add, rows, settledRows, rowsFrom, rowOf_cons]

theorem rows_begin (idle : b.awaiting = none) (h : b.rows = top :: outer) (owner : Owner) :
    (b.begin owner).rows = [] :: (owner.role :: top) :: outer := by
  rw [rows_of_idle idle, settledRows, idle] at h
  exact congrArg ([] :: ·) (rowsFrom_cons owner.role h)

theorem rows_confirm {block : Block} (pending : b.awaiting = some block) (width : Nat) :
    (b.confirm width block).rows = b.rows := by
  rw [rows_of_pending pending, settledRows, pending]
  rfl

/-- A block that ends takes its row with it, -/
theorem settledRows_closeAwaiting {block : Block} (pending : b.awaiting = some block) :
    b.closeAwaiting.rows = b.settledRows := by
  obtain ⟨root, levels, awaiting, log⟩ := b
  cases pending
  cases levels <;>
    simp [closeAwaiting, finish, record, add, rows, settledRows, rowsFrom, rowOf_cons,
      Owner.role_enclose, Role.onto, Owner.role_ne_lineEnd]

/-- and leaves all others as they are. -/
theorem rows_closeLevel (idle : b.awaiting = none) {level : Level} {levels : List Level}
    (top : b.levels = level :: levels) : b.rows = rowOf level.block.nodes :: b.closeLevel.rows := by
  obtain ⟨root, _, awaiting, log⟩ := b
  cases idle
  cases top
  cases levels <;>
    simp [closeLevel, finish, record, add, rows, settledRows, rowsFrom, rowOf_cons,
      Owner.role_enclose, Role.onto, Owner.role_ne_lineEnd]

theorem mem_nodes_add {node other : Node} :
    other ∈ (b.add node).nodes ↔ other = node ∨ other ∈ b.nodes := by
  obtain ⟨root, levels, awaiting, log⟩ := b
  cases awaiting with
  | some block => simp [add, nodes, or_left_comm]
  | none => cases levels <;> simp [add, nodes, or_left_comm]

theorem mem_nodes_finish {block : Block} {other : Node} : other ∈ (b.finish block).nodes ↔
    other = block.owner.enclose block.nodes.reverse ∨ other ∈ b.nodes :=
  mem_nodes_add

/-- All rows of a tree under construction are parted, and the innermost is if no word is due. -/
structure HasRows (P : List Role → Prop) (due : Bool) (b : Builder) : Prop where
  inner : ∀ node ∈ b.nodes, node.HasRows P
  rows : ∃ top outer, b.rows = top :: outer ∧ Pending P due top ∧ ∀ row ∈ outer, Parted P row

namespace HasRows

variable {P : List Role → Prop} {due : Bool}

theorem start : HasRows P due {} := by
  refine ⟨by simp [nodes], [], [], rfl, .parted .nil, by simp⟩

theorem of_not_due (h : HasRows P false b) : HasRows P due b := by
  obtain ⟨top, outer, rows, pending, others⟩ := h.rows
  exact ⟨h.inner, top, outer, rows, pending.of_not_due, others⟩

theorem record (h : HasRows P due b) (event : Event) : HasRows P due (b.record event) :=
  ⟨h.inner, h.rows⟩

/-- What is put into the innermost block is put in front of its row. -/
theorem add (h : HasRows P due b) {node : Node} (inside : node.HasRows P) {due' : Bool}
    (grow : ∀ {row}, Pending P due row → Pending P due' (node.role.onto row)) :
    HasRows P due' (b.add node) := by
  obtain ⟨top, outer, rows, pending, others⟩ := h.rows
  refine ⟨?_, _, outer, rows_add rows node, grow pending, others⟩
  intro other mem
  obtain rfl | mem := mem_nodes_add.1 mem
  · exact inside
  · exact h.inner other mem

theorem breakLine (h : HasRows P due b) : HasRows P due (b.place .newline) :=
  (h.add Node.IsLeaf.newline.hasRows id).record _

theorem placeBreaks (h : HasRows P due b) (n : Nat) : HasRows P due (placeBreaks n b) := by
  induction n generalizing b with
  | zero => exact h
  | succ n ih => exact ih h.breakLine

/-- The word that may be due, -/
theorem placeWord (h : HasRows P due b) {node : Node} (leaf : node.IsLeaf)
    (word : node.role = .word) : HasRows P false (b.place node) :=
  (h.add leaf.hasRows fun pending => word ▸ .parted pending.word).record _

/-- something that is no space, where no word is due, -/
theorem placeOther (h : HasRows P false b) {node : Node} (leaf : node.IsLeaf)
    (other : node.role ≠ .space) : HasRows P false (b.place node) :=
  (h.add leaf.hasRows fun pending => .parted (pending.parted_of_not_due.onto other)).record _

/-- or a space. -/
theorem placeSpace (h : HasRows P false b) (before : ∀ top ∈ b.rows.head?, P top) (text : String) :
    HasRows P true (b.place (.static text)) := by
  obtain ⟨top, outer, rows, pending, others⟩ := h.rows
  refine HasRows.record ⟨?_, _, outer, rows_add rows _, ?_, others⟩ _
  · intro other mem
    obtain rfl | mem := mem_nodes_add.1 mem
    · exact (Node.IsLeaf.static text).hasRows
    · exact h.inner other mem
  · exact .space rfl pending.parted_of_not_due (before top (by rw [rows]; rfl))

theorem begin (h : HasRows P due b) (idle : b.awaiting = none) {owner : Owner}
    (word : due = true → owner.role = .word) : HasRows P false (b.begin owner) := by
  obtain ⟨top, outer, rows, pending, others⟩ := h.rows
  have nodes : (b.begin owner).nodes = b.nodes := by simp [Builder.begin, Builder.record, nodes, idle]
  refine ⟨nodes ▸ h.inner, _, _, rows_begin idle rows owner, .parted .nil, ?_⟩
  refine List.forall_mem_cons.2 ⟨?_, others⟩
  cases due with
  | true => exact word rfl ▸ pending.word
  | false => exact .cons _ owner.role_ne_space pending.parted_of_not_due

theorem confirm (h : HasRows P due b) {block : Block} (pending : b.awaiting = some block)
    (width : Nat) : HasRows P due (b.confirm width block) := by
  obtain ⟨top, outer, rows, last, others⟩ := h.rows
  refine ⟨?_, top, outer, (rows_confirm pending width).trans rows, last, others⟩
  intro node mem
  refine h.inner node ?_
  simpa [nodes, pending, or_comm, or_left_comm] using mem

/-- Where no word is due, a block that ends makes a node whose rows are parted. -/
theorem ended (h : HasRows P false b) {c : Builder} {block : Block}
    (rows : b.rows = rowOf block.nodes :: c.rows) (own : ∀ node ∈ block.nodes, node ∈ b.nodes)
    (kept : ∀ node ∈ c.nodes, node = block.owner.enclose block.nodes.reverse ∨ node ∈ b.nodes) :
    HasRows P false c := by
  obtain ⟨top, outer, split, last, others⟩ := h.rows
  obtain ⟨rfl, rfl⟩ := List.cons.inj (rows.symm.trans split)
  obtain ⟨next, rest, left⟩ := c.rows_ne_nil
  rw [left] at others
  obtain ⟨first, others⟩ := List.forall_mem_cons.1 others
  refine ⟨?_, next, rest, left, .parted first, others⟩
  intro node mem
  obtain rfl | mem := kept node mem
  · refine Owner.hasRows_enclose _ (Node.hasRows_multi ?_ ?_)
    · rw [List.reverse_reverse]
      exact last.parted_of_not_due
    · intro node among
      exact h.inner node (own node (List.mem_reverse.1 among))
  · exact h.inner node mem

theorem closeAwaiting (h : HasRows P false b) : HasRows P false b.closeAwaiting := by
  cases pending : b.awaiting with
  | none => rwa [closeAwaiting_of_none pending]
  | some block =>
    have rows : b.rows = rowOf block.nodes :: b.closeAwaiting.rows := by
      rw [rows_of_pending pending, settledRows_closeAwaiting pending]
    refine h.ended rows ?_ ?_
    · intro node mem
      simp [nodes, pending, mem]
    · intro node mem
      simp only [Builder.closeAwaiting, pending, mem_nodes_finish] at mem
      refine mem.imp_right fun mem => ?_
      simp only [nodes, Option.elim_none, List.append_nil] at mem
      exact List.mem_append_left _ mem

theorem closeLevel (h : HasRows P false b) (idle : b.awaiting = none) :
    HasRows P false b.closeLevel := by
  cases levels : b.levels with
  | nil => simpa only [Builder.closeLevel, levels] using h
  | cons level below =>
    refine h.ended (rows_closeLevel idle levels) ?_ ?_
    · intro node mem
      simp [nodes, levels, mem]
    · intro node mem
      simp only [Builder.closeLevel, levels, mem_nodes_finish] at mem
      refine mem.imp_right fun mem => ?_
      simp only [nodes, levels, List.flatMap_cons, List.mem_append] at mem ⊢
      exact mem.imp_left (Or.imp_right .inr)

theorem closeLevels (h : HasRows P false b) (idle : b.awaiting = none) (n : Nat) :
    HasRows P false (closeLevels n b) := by
  induction n generalizing b with
  | zero => exact h
  | succ n ih => exact ih (h.closeLevel idle) (awaiting_closeLevel idle)

theorem align (h : HasRows P false b) {c : Builder} {width : Nat} {moved : Bool}
    (fit : b.align width = .ok (c, moved)) : HasRows P false c := by
  obtain ⟨block, -, pending, -, rfl⟩ | ⟨-, rfl, -, -⟩ := align_cases fit
  · exact h.confirm pending width
  · exact h.closeAwaiting.closeLevels (awaiting_closeAwaiting b) _

theorem tree (h : HasRows P false b) : b.closeAll.tree.HasRows P := by
  have closed : HasRows P false b.closeAll :=
    h.closeAwaiting.closeLevels (awaiting_closeAwaiting b) _
  obtain ⟨top, outer, rows, last, -⟩ := closed.rows
  rw [rows_of_idle (awaiting_closeAll b), settledRows, levels_closeAll, awaiting_closeAll] at rows
  obtain ⟨rfl, -⟩ := List.cons.inj rows
  refine Node.hasRows_multi ?_ ?_
  · rw [List.reverse_reverse]
    exact last.parted_of_not_due
  · intro node mem
    refine closed.inner node ?_
    simpa [nodes] using mem

end HasRows

end Builder

end TemplateMarkup
