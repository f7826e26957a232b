import TemplateMarkup.Proofs.Builder.Align

/-! A tree in which one block alone is open, and awaits its width, and one that holds line ends
only. -/
namespace TemplateMarkup
namespace Builder

/-- Behind the nodes of the root, newest first, one block is open. -/
structure Sole (root : List Node) (block : Block) (b : Builder) : Prop where
  root : b.root = root
  levels : b.levels = []
  awaiting : b.awaiting = some block

theorem sole_begin {b : Builder} (flat : b.levels = []) (owner : Owner) :
    Sole b.root ⟨owner, []⟩ (b.begin owner) :=
  ⟨rfl, flat, rfl⟩

namespace Sole

variable {root : List Node} {block : Block} {b : Builder}

theorem place (h : Sole root block b) (node : Node) :
    Sole root { block with nodes := node :: block.nodes } (b.place node) := by
  unfold Builder.place Builder.add
  rw [h.awaiting]
  exact ⟨h.root, h.levels, rfl⟩

theorem placeBreaks (h : Sole root block b) (n : Nat) :
    Sole root { block with nodes := List.replicate n .newline ++ block.nodes }
      (Builder.placeBreaks n b) := by
  induction n generalizing block b with
  | zero => exact h
  | succ n ih =>
    have more := ih (h.place .newline)
    rwa [List.append_cons, ← List.replicate_succ'] at more

theorem width (h : Sole root block b) : b.width = 0 := by
  unfold Builder.width
  rw [h.levels]

/-- Once it is ended, the block is the last node of the tree. -/
theorem tree_closeAll (h : Sole root block b) :
    b.closeAll.tree = .multi (root.reverse ++ [block.owner.enclose block.nodes.reverse]) := by
  have closed : b.closeAll = { b with awaiting := none }.finish block := by
    unfold Builder.closeAll Builder.closeAwaiting
    rw [h.awaiting, h.levels]
    rfl
  rw [closed, tree, finish, root_record, Builder.add]
  simp only [h.levels, h.root, List.reverse_cons]

end Sole

/-- So many line ends are placed and nothing else is, and no block is open. -/
structure Margin (b : Builder) (n : Nat) : Prop where
  root : b.root = List.replicate n .newline
  levels : b.levels = []
  awaiting : b.awaiting = none

namespace Margin

variable {n : Nat} {b : Builder}

theorem place (h : b.Margin n) : (b.place .newline).Margin (n + 1) := by
  unfold Builder.place Builder.add
  rw [h.awaiting, h.levels, h.root]
  exact ⟨rfl, rfl, rfl⟩

theorem sole (h : b.Margin n) (owner : Owner) :
    Sole (List.replicate n .newline) ⟨owner, [.newline]⟩ ((b.begin owner).place .newline) := by
  have opened := sole_begin h.levels owner
  rw [h.root] at opened
  exact opened.place .newline

end Margin

end Builder

end TemplateMarkup
