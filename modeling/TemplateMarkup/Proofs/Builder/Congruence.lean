import TemplateMarkup.Proofs.Builder.Align

/-! Two trees built side by side. A relation that is kept when both are moved alike is kept when
both are fitted to a line, and when all their blocks are ended. -/
namespace TemplateMarkup
namespace Builder

/-- A relation between trees of the same open blocks that is kept when both are moved alike. -/
structure Congruence (R : Builder → Builder → Prop) : Prop where
  widths {b c} : R b c → c.levels.map Level.width = b.levels.map Level.width
  pending {b c} : R b c → c.awaiting.isSome = b.awaiting.isSome
  place {b c} : R b c → ∀ node, R (b.place node) (c.place node)
  begin {b c} : R b c → ∀ owner, R (b.begin owner) (c.begin owner)
  confirm {b c} : R b c → ∀ width {x y}, b.awaiting = some x → c.awaiting = some y →
    R (b.confirm width x) (c.confirm width y)
  closeAwaiting {b c} : R b c → R b.closeAwaiting c.closeAwaiting
  closeLevel {b c} : R b c → R b.closeLevel c.closeLevel
  dispatch {b c} : R b c → ∀ n m width text,
    R (b.record (.dispatched n width text)) (c.record (.dispatched m width text))

/-- Two attempts to fit a line that come to the same. -/
inductive Fits (R : Builder → Builder → Prop) :
    Except Misfit (Builder × Bool) → Except Misfit (Builder × Bool) → Prop
  | ok {b c} (moved) (related : R b c) : Fits R (.ok (b, moved)) (.ok (c, moved))
  | error {m m' : Misfit} (cause : m'.cause = m.cause) : Fits R (.error m) (.error m')

namespace Congruence

variable {R : Builder → Builder → Prop} (kept : Congruence R) {b c : Builder}
include kept

theorem width (h : R b c) : c.width = b.width := by
  have heads := congrArg List.head? (kept.widths h)
  unfold Builder.width
  cases hb : b.levels <;> cases hc : c.levels <;> simp_all

theorem deeper (h : R b c) (width : Nat) :
    (c.levels.takeWhile (width < ·.width)).length =
      (b.levels.takeWhile (width < ·.width)).length := by
  rw [length_deeper, length_deeper, kept.widths h]

theorem placeBreaks (h : R b c) (n : Nat) : R (Builder.placeBreaks n b) (Builder.placeBreaks n c) := by
  induction n generalizing b c with
  | zero => exact h
  | succ n ih => exact ih (kept.place h .newline)

theorem closeLevels (h : R b c) (n : Nat) : R (Builder.closeLevels n b) (Builder.closeLevels n c) := by
  induction n generalizing b c with
  | zero => exact h
  | succ n ih => exact ih (kept.closeLevel h)

theorem cutTo (h : R b c) (width : Nat) : R (b.cutTo width) (c.cutTo width) := by
  unfold Builder.cutTo
  rw [kept.deeper h]
  exact kept.closeLevels (kept.closeAwaiting h) _

theorem closeAll (h : R b c) : R b.closeAll c.closeAll := by
  have count : c.levels.length = b.levels.length := by
    simpa using congrArg List.length (kept.widths h)
  unfold Builder.closeAll
  rw [count]
  exact kept.closeLevels (kept.closeAwaiting h) _

theorem align (h : R b c) (width : Nat) : Fits R (b.align width) (c.align width) := by
  have cut := kept.cutTo h width
  unfold Builder.align
  rw [kept.width h]
  split
  · have pending := kept.pending h
    cases hb : b.awaiting with
    | none =>
      cases hc : c.awaiting with
      | none => exact .error rfl
      | some y => simp [hb, hc] at pending
    | some x =>
      cases hc : c.awaiting with
      | none => simp [hb, hc] at pending
      | some y => exact .ok true (kept.confirm h width hb hc)
  · simp only
    rw [← Builder.cutTo, ← Builder.cutTo, kept.width cut]
    split
    · exact .ok _ cut
    · exact .error rfl

end Congruence

/-- The second tree has `base` in front of the first one's nodes, newest first like all nodes under
construction, and the same open blocks. -/
structure Over (base : List Node) (b c : Builder) : Prop where
  root : c.root = b.root ++ base
  levels : c.levels = b.levels
  awaiting : c.awaiting = b.awaiting

namespace Over

variable {base : List Node} {b c : Builder}

theorem record (h : Over base b c) (e e' : Event) : Over base (b.record e) (c.record e') :=
  ⟨h.root, h.levels, h.awaiting⟩

theorem add (h : Over base b c) (node : Node) : Over base (b.add node) (c.add node) := by
  unfold Builder.add
  rw [h.awaiting, h.levels]
  split
  · exact ⟨h.root, rfl, rfl⟩
  · exact ⟨congrArg (node :: ·) h.root, rfl, rfl⟩
  · exact ⟨h.root, rfl, rfl⟩

/-- The log may tell of a node or leave it out. -/
theorem place (h : Over base b c) (node : Node) : Over base (b.add node) (c.place node) :=
  ⟨(h.add node).root, (h.add node).levels, (h.add node).awaiting⟩

theorem finish (h : Over base b c) (block : Block) : Over base (b.finish block) (c.finish block) :=
  (h.add _).record _ _

theorem closeAwaiting (h : Over base b c) : Over base b.closeAwaiting c.closeAwaiting := by
  unfold Builder.closeAwaiting
  rw [h.awaiting]
  split
  · exact h
  · refine finish ?_ _
    exact ⟨h.root, h.levels, rfl⟩

theorem closeLevel (h : Over base b c) : Over base b.closeLevel c.closeLevel := by
  unfold Builder.closeLevel
  rw [h.levels]
  split
  · exact h
  · refine finish ?_ _
    exact ⟨h.root, rfl, h.awaiting⟩

theorem confirm (h : Over base b c) (width : Nat) {x y : Block} (hx : b.awaiting = some x)
    (hy : c.awaiting = some y) :
    Over base (b.confirm width x) (c.confirm width y) := by
  obtain rfl : y = x := Option.some.inj (hy.symm.trans (h.awaiting.trans hx))
  refine ⟨h.root, ?_, rfl⟩
  rw [levels_confirm, levels_confirm, h.levels]

end Over

theorem over_congruence (base : List Node) : Congruence (Over base) where
  widths h := congrArg (·.map Level.width) h.levels
  pending h := congrArg Option.isSome h.awaiting
  place h node := (h.add node).record _ _
  begin h _ := ⟨h.root, h.levels, rfl⟩
  confirm h width _ _ hx hy := h.confirm width hx hy
  closeAwaiting h := h.closeAwaiting
  closeLevel h := h.closeLevel
  dispatch h _ _ _ _ := h.record _ _

/-- A tree without open blocks, above the empty tree. -/
theorem over_of_closed {c : Builder} (idle : c.awaiting = none) (flat : c.levels = [])
    (log : List Event) : Over c.root { log := log } c :=
  ⟨rfl, flat, idle⟩

theorem Over.children {base : List Node} {b c : Builder} (h : Over base b c) :
    c.tree.children = base.reverse ++ b.tree.children := by
  simp [tree, Node.children, h.root]

end Builder

end TemplateMarkup
