import TemplateMarkup.Proofs.Builder.Stack

/-! Fitting a line to the open blocks, told on the stacks of widths and of blocks. It succeeds just
where the line may stand, and what it leaves on either stack is told by the width of the line. -/
namespace TemplateMarkup

namespace Stack

/-- The blocks once so many of the innermost ones are closed. Each becomes the last node of the block
around it, and keeps its own nodes. -/
def closed : Nat → List Frame → List Frame
  | 0, blocks => blocks
  | n + 1, inner :: outer :: blocks =>
    closed n ({ outer with nodes := inner.node :: outer.nodes } :: blocks)
  | _ + 1, blocks => blocks

theorem closed_singleton (n : Nat) (frame : Frame) : closed n [frame] = [frame] := by
  cases n <;> rfl

theorem closed_closed (m n : Nat) (blocks : List Frame) :
    closed n (closed m blocks) = closed (m + n) blocks := by
  induction m generalizing blocks with
  | zero => rw [Nat.zero_add, closed]
  | succ m ih =>
    match blocks with
    | [] => cases n <;> simp [closed]
    | [frame] => simp only [closed_singleton]
    | inner :: outer :: blocks => rw [Nat.succ_add, closed, closed, ih]

theorem blocks_close {s t : Stack} (h : s.close = some t) : t.blocks = closed 1 s.blocks := by
  unfold close at h
  split at h
  · next top around below blocks =>
    simp only at h
    split at h
    · cases h
      rw [blocks]
      rfl
    · cases h
  · cases h

end Stack

namespace Builder

variable {b c : Builder}

/-- All that can be done to a tree: nodes of any kind are placed, blocks are opened where none awaits
its width, and lines are fitted. -/
inductive Built : Builder → Prop
  | start : Built {}
  | place {b : Builder} (built : Built b) (node : Node) : Built (b.place node)
  | begin {b : Builder} (built : Built b) (idle : b.awaiting = none) (owner : Owner) :
      Built (b.begin owner)
  | dispatch {b c : Builder} {width : Nat} {moved : Bool} (built : Built b)
      (fit : b.align width = .ok (c, moved)) (number : Nat) (text : List Char) :
      Built (c.record (.dispatched number width text))

theorem Built.replayed (built : b.Built) : b.Replayed := by
  induction built with
  | start => rfl
  | place _ node ih => exact replayed_place ih node
  | begin _ idle owner ih => exact replayed_begin idle ih owner
  | dispatch _ fit number text ih => exact replayed_dispatch fit ih number text

/-! What is closed, on either stack. -/

theorem blocks_closeAwaiting (b : Builder) :
    b.closeAwaiting.stack.blocks = Stack.closed (if b.awaiting.isSome then 1 else 0) b.stack.blocks := by
  cases pending : b.awaiting with
  | none => rw [closeAwaiting_of_none pending]; rfl
  | some block => simpa using Stack.blocks_close (close_awaiting pending)

theorem blocks_closeLevel (idle : b.awaiting = none) :
    b.closeLevel.stack.blocks = Stack.closed 1 b.stack.blocks := by
  cases top : b.levels with
  | nil => simp [closeLevel, top, stack, idle, Stack.closed]
  | cons level levels => simpa using Stack.blocks_close (close_level idle top)

theorem blocks_closeLevels (idle : b.awaiting = none) (n : Nat) :
    (closeLevels n b).stack.blocks = Stack.closed n b.stack.blocks := by
  induction n generalizing b with
  | zero => rfl
  | succ n ih =>
    rw [closeLevels, ih (awaiting_closeLevel idle), blocks_closeLevel idle, Stack.closed_closed,
      Nat.add_comm]

/-- Among widths that fall, those greater than some width come first. -/
theorem dropWhile_eq_filter {widths : List Nat} (sorted : widths.Pairwise (· > ·)) (width : Nat) :
    widths.dropWhile (width < ·) = widths.filter (· ≤ width) := by
  induction widths with
  | nil => rfl
  | cons w widths ih =>
    obtain ⟨below, sorted⟩ := List.pairwise_cons.1 sorted
    by_cases deeper : width < w
    · have beyond : ¬ w ≤ width := by omega
      simp [deeper, beyond, ih sorted]
    · have within : ∀ v ∈ w :: widths, decide (v ≤ width) = true := by
        intro v hv
        obtain rfl | hv := List.mem_cons.1 hv
        · simpa using deeper
        · have := below v hv
          rw [decide_eq_true_eq]
          omega
      rw [List.dropWhile_cons_of_neg (by simpa using deeper), List.filter_eq_self.2 within]

theorem indents_cutTo (sorted : b.indents.Pairwise (· > ·)) (width : Nat) :
    (b.cutTo width).indents = b.indents.filter (· ≤ width) := by
  have levels := (List.pairwise_append.1 sorted).1
  rw [indents, widths_cutTo, dropWhile_eq_filter levels, indents, List.filter_append]
  simp

/-- As many blocks are closed as it takes to leave one for each width. -/
theorem blocks_cutTo (b : Builder) (width : Nat) :
    (b.cutTo width).stack.blocks.length = (b.cutTo width).stack.indents.length ∧
      (b.cutTo width).stack.blocks =
        Stack.closed (b.stack.blocks.length - (b.cutTo width).stack.indents.length)
          b.stack.blocks := by
  have count : (b.cutTo width).levels.length + (b.levels.takeWhile (width < ·.width)).length =
      b.levels.length := by
    have widths := congrArg List.length (widths_cutTo b width)
    have all := congrArg List.length (List.takeWhile_append_dropWhile
      (p := (width < ·)) (l := b.levels.map Level.width))
    rw [List.length_append, List.length_map] at all
    rw [List.length_map] at widths
    rw [length_deeper]
    omega
  constructor
  · rw [length_blocks, length_indents, depth, awaiting_cutTo]
    simp
  · rw [length_blocks, length_indents]
    have closings : b.depth - ((b.cutTo width).levels.length + 1) =
        (if b.awaiting.isSome then 1 else 0) + (b.levels.takeWhile (width < ·.width)).length := by
      unfold depth
      split <;> omega
    rw [closings, ← Stack.closed_closed, ← blocks_closeAwaiting,
      ← blocks_closeLevels (awaiting_closeAwaiting b)]
    rfl

/-- The innermost width that is left is that of the line just if the line stands at some width. -/
theorem width_cutTo_iff (sorted : b.indents.Pairwise (· > ·)) (width : Nat) :
    (b.cutTo width).width = width ↔ width ∈ b.indents := by
  have left := indents_cutTo sorted width
  have head : (b.cutTo width).width ∈ (b.cutTo width).indents :=
    List.mem_of_mem_head? (head_indents (b.cutTo width))
  have inside := head
  rw [left, List.mem_filter, decide_eq_true_eq] at inside
  constructor
  · intro same
    rw [← same]
    exact inside.1
  · intro mem
    have sorted' : (b.cutTo width).indents.Pairwise (· > ·) := left ▸ sorted.filter _
    refine Nat.le_antisymm inside.2 (le_width_of_sorted sorted' ?_)
    rw [left, List.mem_filter]
    exact ⟨mem, by simp⟩

/-- Lines are fitted just where they may stand. A line deeper than the innermost width puts its own
width on top if a block awaits one; otherwise it is refused and the stacks are as they were. Any
other line has to stand at a width that some line has shown. Then the widths up to it are left, with
a block for each, and every block inside is closed into the one around it; the flag tells whether a
width has gone. -/
theorem align_exact (built : b.Built) (width : Nat) :
    (b.stack.width < width →
      (b.stack.expecting = true → ∃ c, b.align width = .ok (c, true) ∧
        c.stack = { b.stack with indents := width :: b.stack.indents }) ∧
      (b.stack.expecting = false → b.align width = .error ⟨.unexpectedIndentation, b.log⟩ ∧
        Stack.replay b.log.reverse = some b.stack)) ∧
    (width ≤ b.stack.width →
      (width ∈ b.stack.indents → ∃ c, b.align width = .ok (c, decide (width < b.stack.width)) ∧
        c.stack.indents = b.stack.indents.filter (· ≤ width) ∧
        c.stack.blocks.length = c.stack.indents.length ∧
        c.stack.blocks =
          Stack.closed (b.stack.blocks.length - c.stack.indents.length) b.stack.blocks) ∧
      (width ∉ b.stack.indents → ∃ log, b.align width = .error ⟨.malformedIndentation, log⟩)) := by
  have replayed := built.replayed
  have sorted : b.indents.Pairwise (· > ·) := (Stack.sound_replay replayed).sorted
  simp only [width_stack, expecting_stack]
  constructor
  · intro deeper
    constructor
    · intro pending
      obtain ⟨block, pending⟩ := Option.isSome_iff_exists.1 pending
      refine ⟨b.confirm width block, ?_, ?_⟩
      · unfold align
        rw [if_pos deeper, pending]
        rfl
      · simp [stack, indents, pending]
    · intro idle
      have idle : b.awaiting = none := by simpa using idle
      refine ⟨?_, replayed⟩
      unfold align
      rw [if_pos deeper, idle]
  · intro level
    constructor
    · intro shown
      refine ⟨b.cutTo width, align_of_le level ((width_cutTo_iff sorted width).2 shown), ?_,
        blocks_cutTo b width⟩
      exact indents_cutTo sorted width
    · intro hidden
      refine ⟨(b.cutTo width).log, ?_⟩
      have misfit : ¬ (b.cutTo width).width = width := fun same =>
        hidden ((width_cutTo_iff sorted width).1 same)
      unfold align
      rw [if_neg (Nat.not_lt.2 level)]
      simp only
      rw [← cutTo, if_neg misfit]

/-- Below a tree with a level of width 2 and a block that awaits its width, a line may be deeper, or
end both blocks, but it may not stand between the widths. -/
theorem align_exact_nested :
    let b : Builder := ((((({} : Builder).begin (.control "a")).place .newline).confirm 2
      ⟨.control "a", [.newline]⟩).record (.dispatched 2 2 "= y".toList)).begin (.output true "y")
    b.stack.indents = [2, 0] ∧ b.stack.blocks.length = 3 ∧
    (∃ c, b.align 4 = .ok (c, true) ∧ c.stack = { b.stack with indents := [4, 2, 0] }) ∧
    (∃ c, b.align 0 = .ok (c, true) ∧ c.stack.indents = [0] ∧
      c.stack.blocks = Stack.closed 2 b.stack.blocks) ∧
    ∃ log, b.align 1 = .error ⟨.malformedIndentation, log⟩ := by
  intro b
  have built : b.Built := by
    have opened : ((({} : Builder).begin (.control "a")).place .newline).Built :=
      .place (.begin .start rfl _) _
    have fit : ((({} : Builder).begin (.control "a")).place .newline).align 2 =
      .ok (((({} : Builder).begin (.control "a")).place .newline).confirm 2
        ⟨.control "a", [.newline]⟩, true) := rfl
    exact .begin (.dispatch opened fit 2 _) rfl _
  refine ⟨rfl, rfl, ?_, ?_, ?_⟩
  · exact ((align_exact built 4).1 (by decide)).1 rfl
  · obtain ⟨c, fit, indents, count, blocks⟩ := ((align_exact built 0).2 (by decide)).1 (by decide)
    have widths : c.stack.indents = [0] := indents
    rw [widths] at blocks
    exact ⟨c, fit, widths, blocks⟩
  · exact ((align_exact built 1).2 (by decide)).2 (by decide)

end Builder

end TemplateMarkup
