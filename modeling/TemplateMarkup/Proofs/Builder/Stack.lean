import Mathlib.Data.List.Induction
import TemplateMarkup.Proofs.Builder.Acts

/-! The open blocks of a tree kept on two stacks, of widths and of blocks, by a machine that checks
its assertions. It replays the log of a tree without failing one, and arrives at the blocks that the
tree has open. -/
namespace TemplateMarkup

/-- A block on a stack; the root block has no owner. Its nodes are held newest first. -/
structure Frame where
  owner : Option Owner
  nodes : List Node

/-- What a block becomes for the block around it. -/
def Frame.node (frame : Frame) : Node :=
  match frame.owner with
  | none => .multi frame.nodes.reverse
  | some owner => owner.enclose frame.nodes.reverse

/-- The widths that lines have shown and the blocks that are open, both innermost first. -/
structure Stack where
  indents : List Nat := [0]
  blocks : List Frame := [⟨none, []⟩]

namespace Stack

def width (s : Stack) : Nat := s.indents.headD 0

/-- Whether the innermost block still awaits its width. -/
def expecting (s : Stack) : Bool := s.indents.length < s.blocks.length

def push (s : Stack) (node : Node) : Stack :=
  match s.blocks with
  | [] => s
  | top :: below => { s with blocks := { top with nodes := node :: top.nodes } :: below }

/-- Opens a block. It is asserted that none awaits its width. -/
def enter (s : Stack) (owner : Owner) : Option Stack :=
  if s.expecting then none else some { s with blocks := ⟨some owner, []⟩ :: s.blocks }

/-- Takes the width of the innermost block off its stack, if the block has one. -/
def dropWidth (s : Stack) : Stack :=
  if s.expecting then s else { s with indents := s.indents.tail }

/-- Closes the innermost block, whose width is off its stack. It is asserted that this is not the
root, and that no width stays behind without a block. -/
def close (s : Stack) : Option Stack :=
  match s.blocks with
  | top :: around :: below =>
    let t := { s with blocks := around :: below }.push top.node
    if t.indents.length ≤ t.blocks.length then some t else none
  | _ => none

/-- Puts the width of a deeper line on its stack. -/
def deepen (s : Stack) (width : Nat) : Stack :=
  if s.width < width then { s with indents := width :: s.indents } else s

/-- Fits a line to the stacks, once the blocks that it ends are closed. It is asserted that every
block has a width then, and the innermost one that of the line. -/
def meet (s : Stack) (width : Nat) : Option Stack :=
  let t := s.deepen width
  if t.width = width ∧ t.blocks.length = t.indents.length then some t else none

/-- Replays one event, and checks the number of open blocks if the event states it. -/
def step (s : Stack) : Event → Option Stack
  | .placed node => some (s.push node)
  | .opened owner depth => (s.enter owner).filter (·.blocks.length = depth)
  | .closed depth => s.dropWidth.close.filter (·.blocks.length = depth)
  | .dispatched _ width _ => s.meet width

/-- Replays a log from its start; there is no result if some assertion fails. -/
def replay (log : List Event) : Option Stack := log.foldlM step {}

/-- From the root inwards the widths grow from zero. Every block has one, but perhaps the innermost.
The root block, and no other, has no owner. -/
structure Sound (s : Stack) : Prop where
  bottom : s.indents.getLast? = some 0
  sorted : s.indents.Pairwise (· > ·)
  lengths : s.blocks.length = s.indents.length ∨ s.blocks.length = s.indents.length + 1
  root : ∃ inner nodes, s.blocks = inner ++ [⟨none, nodes⟩] ∧ ∀ frame ∈ inner, frame.owner ≠ none

variable {s t : Stack}

@[simp] theorem indents_push (s : Stack) (node : Node) : (s.push node).indents = s.indents := by
  unfold push
  split <;> rfl

@[simp] theorem length_push (s : Stack) (node : Node) :
    (s.push node).blocks.length = s.blocks.length := by
  unfold push
  split <;> simp_all

theorem root_push {inner : List Frame} {nodes : List Node}
    (root : s.blocks = inner ++ [⟨none, nodes⟩]) (owned : ∀ frame ∈ inner, frame.owner ≠ none)
    (node : Node) : ∃ inner nodes, (s.push node).blocks = inner ++ [⟨none, nodes⟩] ∧
      ∀ frame ∈ inner, frame.owner ≠ none := by
  cases inner with
  | nil => exact ⟨[], node :: nodes, by simp [push, root], by simp⟩
  | cons top inner =>
    refine ⟨{ top with nodes := node :: top.nodes } :: inner, nodes, by simp [push, root], ?_⟩
    simpa using owned

theorem Sound.push (sound : s.Sound) (node : Node) : (s.push node).Sound := by
  obtain ⟨inner, nodes, root, owned⟩ := sound.root
  refine ⟨?_, ?_, ?_, root_push root owned node⟩
  · rw [indents_push]
    exact sound.bottom
  · rw [indents_push]
    exact sound.sorted
  · rw [indents_push, length_push]
    exact sound.lengths

theorem Sound.enter (sound : s.Sound) {owner : Owner} (h : s.enter owner = some t) : t.Sound := by
  unfold Stack.enter at h
  split at h
  · cases h
  · next complete =>
    cases h
    obtain ⟨inner, nodes, root, owned⟩ := sound.root
    have lengths := sound.lengths
    simp only [expecting, decide_eq_true_eq] at complete
    refine ⟨sound.bottom, sound.sorted, ?_, ⟨some owner, []⟩ :: inner, nodes, ?_, ?_⟩
    · simp only [List.length_cons]
      omega
    · simp [root]
    · simpa using owned

@[simp] theorem blocks_dropWidth (s : Stack) : s.dropWidth.blocks = s.blocks := by
  unfold dropWidth
  split <;> rfl

/-- Above the root there is a width to take off, unless the innermost block has none. -/
theorem Sound.dropWidth (sound : s.Sound) (inside : 2 ≤ s.blocks.length) :
    s.dropWidth.Sound ∧ s.blocks.length = s.dropWidth.indents.length + 1 := by
  have lengths := sound.lengths
  by_cases awaiting : s.expecting = true
  · rw [Stack.dropWidth, if_pos awaiting]
    simp only [expecting, decide_eq_true_eq] at awaiting
    exact ⟨sound, by omega⟩
  · rw [Stack.dropWidth, if_neg awaiting]
    simp only [expecting, decide_eq_true_eq] at awaiting
    have bottom := sound.bottom
    have sorted := sound.sorted
    cases hi : s.indents with
    | nil => simp [hi] at bottom
    | cons w ws =>
      rw [hi] at bottom sorted lengths awaiting
      simp only [List.length_cons] at lengths awaiting
      have more : ws ≠ [] := by
        rintro rfl
        simp only [List.length_nil] at lengths awaiting
        omega
      rw [List.getLast?_cons_of_ne_nil more] at bottom
      have count : s.blocks.length = ws.length + 1 := by omega
      exact ⟨⟨bottom, (List.pairwise_cons.1 sorted).2, .inr count, sound.root⟩, count⟩

theorem Sound.close (sound : s.Sound) (short : s.blocks.length = s.indents.length + 1)
    (h : s.close = some t) : t.Sound := by
  obtain ⟨inner, nodes, root, owned⟩ := sound.root
  unfold Stack.close at h
  split at h
  · next top around below hblocks =>
    simp only [length_push, indents_push] at h
    split at h
    · cases h
      cases inner with
      | nil => simp [root] at hblocks
      | cons frame inner =>
        have rest : around :: below = inner ++ [⟨none, nodes⟩] := by
          rw [root, List.cons_append] at hblocks
          exact (List.cons.inj hblocks).2.symm
        have left : Sound { s with blocks := around :: below } := by
          refine ⟨sound.bottom, sound.sorted, .inl ?_, inner, nodes, rest, ?_⟩
          · simpa [hblocks] using short
          · intro frame hframe
            exact owned frame (by simp [hframe])
        exact left.push top.node
    · cases h
  · cases h

theorem two_le_of_close (h : s.close = some t) : 2 ≤ s.blocks.length := by
  unfold Stack.close at h
  split at h
  · next hblocks => simp [hblocks]
  · cases h

/-- The innermost width is the greatest. -/
theorem Sound.le_width (sound : s.Sound) {w : Nat} (hw : w ∈ s.indents) : w ≤ s.width := by
  have sorted := sound.sorted
  unfold Stack.width
  cases hi : s.indents with
  | nil => simp [hi] at hw
  | cons v ws =>
    rw [hi] at hw sorted
    obtain rfl | hw := List.mem_cons.1 hw
    · exact Nat.le_refl _
    · exact Nat.le_of_lt ((List.pairwise_cons.1 sorted).1 w hw)

theorem Sound.meet (sound : s.Sound) {width : Nat} (h : s.meet width = some t) :
    t.Sound ∧ t.width = width ∧ t.blocks.length = t.indents.length := by
  unfold Stack.meet at h
  simp only at h
  split at h
  · next fits =>
    cases h
    refine ⟨?_, fits⟩
    have lengths := fits.2
    unfold deepen at lengths ⊢
    split
    · next deeper =>
      rw [if_pos deeper] at lengths
      refine ⟨?_, List.pairwise_cons.2 ⟨?_, sound.sorted⟩, .inl lengths, sound.root⟩
      · rw [List.getLast?_cons, sound.bottom]
        rfl
      · intro w hw
        exact Nat.lt_of_le_of_lt (sound.le_width hw) deeper
    · exact sound
  · cases h

/-- Every event that passes its assertions keeps the stacks sound. -/
theorem Sound.step (sound : s.Sound) {event : Event} (h : s.step event = some t) : t.Sound := by
  cases event with
  | placed node =>
    cases h
    exact sound.push node
  | opened owner depth => exact sound.enter (Option.filter_eq_some_iff.1 h).1
  | closed depth =>
    have hclose := (Option.filter_eq_some_iff.1 h).1
    have inside := two_le_of_close hclose
    rw [blocks_dropWidth] at inside
    obtain ⟨dropped, short⟩ := sound.dropWidth inside
    exact dropped.close (by rw [blocks_dropWidth, short]) hclose
  | dispatched number width text => exact (sound.meet h).1

theorem sound_start : Sound {} := by
  refine ⟨rfl, List.pairwise_singleton _ _, .inl rfl, [], [], rfl, by simp⟩

theorem replay_concat (log : List Event) (event : Event) :
    replay (log ++ [event]) = (replay log).bind (step · event) := by
  rw [replay, List.foldlM_append]
  cases h : log.foldlM step {} with
  | none => simp [replay, h]
  | some s => simp [replay, h]

theorem sound_replay {log : List Event} (h : replay log = some s) : s.Sound := by
  induction log using List.reverseRecOn generalizing s with
  | nil =>
    cases h
    exact sound_start
  | append_singleton log event ih =>
    rw [replay_concat] at h
    obtain ⟨r, hr, hs⟩ := Option.bind_eq_some_iff.1 h
    exact (ih hr).step hs

/-- Whenever a log passes, so does every part of it from its start. -/
theorem replay_prefix {before after : List Event} (h : replay (before ++ after) = some s) :
    ∃ r, replay before = some r := by
  rw [replay, List.foldlM_append] at h
  obtain ⟨r, hr, -⟩ := Option.bind_eq_some_iff.1 h
  exact ⟨r, hr⟩

end Stack

/-! The stacks of a tree. -/

def Block.frame (block : Block) : Frame := ⟨some block.owner, block.nodes⟩

namespace Builder

/-- The widths and the blocks that a tree has open. -/
def stack (b : Builder) : Stack where
  indents := b.indents
  blocks := (b.awaiting.map Block.frame).toList ++
    (b.levels.map (·.block.frame) ++ [⟨none, b.root⟩])

variable {b c : Builder}

@[simp] theorem width_stack (b : Builder) : b.stack.width = b.width := by
  unfold Stack.width stack indents width
  cases b.levels <;> rfl

theorem length_blocks (b : Builder) : b.stack.blocks.length = b.depth := by
  unfold stack depth
  cases b.awaiting <;> simp

theorem length_indents (b : Builder) : b.stack.indents.length = b.levels.length + 1 := by
  simp [stack, indents]

theorem expecting_stack (b : Builder) : b.stack.expecting = b.awaiting.isSome := by
  rw [Stack.expecting, length_blocks, length_indents, depth]
  cases b.awaiting <;> simp

theorem stack_add (b : Builder) (node : Node) : (b.add node).stack = b.stack.push node := by
  unfold add
  split
  · next h => simp [stack, h, Stack.push, Block.frame, indents]
  · next h hl => simp [stack, h, hl, Stack.push, indents]
  · next h hl => simp [stack, h, hl, Stack.push, Block.frame, indents]

theorem enter_stack (idle : b.awaiting = none) (owner : Owner) :
    b.stack.enter owner = some (b.begin owner).stack := by
  rw [Stack.enter, expecting_stack, idle]
  simp [stack, idle, begin, record, Block.frame, indents]

/-- A finished block becomes a node of the block around it. -/
theorem close_stack {s : Stack} (indents : s.indents = b.stack.indents) (block : Block)
    (blocks : s.blocks = block.frame :: b.stack.blocks) :
    s.close = some (b.finish block).stack := by
  have count : b.stack.indents.length ≤ b.stack.blocks.length := by
    rw [length_indents, length_blocks, depth]
    split <;> omega
  have finished : (b.finish block).stack = b.stack.push block.frame.node := by
    change (b.add (block.owner.enclose block.nodes.reverse)).stack = _
    rw [stack_add]
    rfl
  have same : b.stack = { s with blocks := b.stack.blocks } := by rw [indents]
  unfold Stack.close
  rw [blocks]
  cases hb : b.stack.blocks with
  | nil => simp [stack] at hb
  | cons around below =>
    rw [hb] at same count
    simp only [Stack.length_push, Stack.indents_push]
    rw [if_pos (indents ▸ count), finished, ← same]

theorem close_awaiting {block : Block} (pending : b.awaiting = some block) :
    b.stack.dropWidth.close = some b.closeAwaiting.stack := by
  have awaits : b.stack.expecting = true := by rw [expecting_stack, pending]; rfl
  rw [Stack.dropWidth, if_pos awaits]
  simp only [closeAwaiting, pending]
  apply close_stack
  · rfl
  · simp [stack, pending]

theorem close_level {level : Level} {levels : List Level} (idle : b.awaiting = none)
    (top : b.levels = level :: levels) : b.stack.dropWidth.close = some b.closeLevel.stack := by
  have complete : ¬ b.stack.expecting = true := by rw [expecting_stack, idle]; simp
  rw [Stack.dropWidth, if_neg complete]
  simp only [closeLevel, top]
  apply close_stack
  · simp [stack, indents, top]
  · simp [stack, idle, top]

/-- The replay of the log arrives at the stacks of the tree. -/
def Replayed (b : Builder) : Prop := Stack.replay b.log.reverse = some b.stack

theorem replayed_cons {event : Event} (replayed : b.Replayed) (hlog : c.log = event :: b.log)
    (step : b.stack.step event = some c.stack) : c.Replayed := by
  rw [Replayed, hlog, List.reverse_cons, Stack.replay_concat, replayed]
  exact step

theorem replayed_closeAwaiting {block : Block} (pending : b.awaiting = some block)
    (replayed : b.Replayed) : b.closeAwaiting.Replayed := by
  refine replayed_cons replayed (log_closeAwaiting pending) ?_
  rw [Stack.step, close_awaiting pending, Option.filter_some, length_blocks]
  simp

theorem replayed_closeLevel {level : Level} {levels : List Level} (idle : b.awaiting = none)
    (top : b.levels = level :: levels) (replayed : b.Replayed) : b.closeLevel.Replayed := by
  refine replayed_cons replayed (log_closeLevel top) ?_
  rw [Stack.step, close_level idle top, Option.filter_some, length_blocks]
  simp

theorem replayed_shut (replayed : b.Replayed) (n : Nat) : (b.shut n).Replayed :=
  shut_invariant replayed_closeAwaiting replayed_closeLevel replayed n

theorem meet_confirm {block : Block} (pending : b.awaiting = some block) {width : Nat}
    (deeper : b.width < width) : b.stack.meet width = some (b.confirm width block).stack := by
  have confirmed : (b.confirm width block).stack =
      { b.stack with indents := width :: b.stack.indents } := by
    simp [stack, pending, indents]
  have lengths : (b.confirm width block).stack.blocks.length =
      (b.confirm width block).stack.indents.length := by
    rw [length_blocks, length_indents, depth]
    simp
  have deepened : b.stack.deepen width = (b.confirm width block).stack := by
    rw [Stack.deepen, width_stack, if_pos deeper, confirmed]
  rw [Stack.meet, deepened, if_pos ⟨width_stack _, lengths⟩]

theorem meet_level (idle : b.awaiting = none) : b.stack.meet b.width = some b.stack := by
  have lengths : b.stack.blocks.length = b.stack.indents.length := by
    rw [length_blocks, length_indents, depth, idle]
    simp
  have kept : b.stack.deepen b.width = b.stack := by
    rw [Stack.deepen, width_stack, if_neg (Nat.lt_irrefl _)]
  rw [Stack.meet, kept, if_pos ⟨width_stack _, lengths⟩]

theorem replayed_place (replayed : b.Replayed) (node : Node) : (b.place node).Replayed := by
  refine replayed_cons replayed (log_place b node) ?_
  rw [Stack.step, ← stack_add]
  rfl

theorem replayed_begin (idle : b.awaiting = none) (replayed : b.Replayed) (owner : Owner) :
    (b.begin owner).Replayed := by
  refine replayed_cons replayed (log_begin b owner) ?_
  rw [Stack.step, enter_stack idle, Option.filter_some, length_blocks]
  simp

/-- The log states the width that a line was fitted with, so the fitting is replayed with the line. -/
theorem replayed_dispatch {width : Nat} {moved : Bool} (fit : b.align width = .ok (c, moved))
    (replayed : b.Replayed) (number : Nat) (text : List Char) :
    (c.record (.dispatched number width text)).Replayed := by
  obtain ⟨block, deeper, pending, -, rfl⟩ | ⟨-, rfl, level, -⟩ := align_cases fit
  · exact replayed_cons replayed rfl (meet_confirm pending deeper)
  · have cut : (b.cutTo width).Replayed := replayed_shut replayed _
    have fits := meet_level (awaiting_cutTo b width)
    rw [level] at fits
    exact replayed_cons cut rfl fits

theorem replayed_of_act (act : Act b c) (replayed : b.Replayed) : c.Replayed := by
  cases act with
  | fill fill =>
    cases fill with
    | place node leaf => exact replayed_place replayed node
    | begin owner idle => exact replayed_begin idle replayed owner
  | dispatch width fit number text => exact replayed_dispatch fit replayed number text

theorem replayed_of_acts (acts : Acts {} b) : b.Replayed := acts.invariant replayed_of_act rfl

/-- Every log that a reading may leave passes all assertions. -/
theorem Tells.replay {log : List Event} (acts : Acts {} b) (tells : b.Tells log) :
    ∃ s, Stack.replay log.reverse = some s := by
  cases tells with
  | whole => exact ⟨_, replayed_of_acts acts⟩
  | shut n => exact ⟨_, replayed_shut (replayed_of_acts acts) n⟩

end Builder

end TemplateMarkup
