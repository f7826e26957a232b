import TemplateMarkup.Proofs.Builder.Congruence
import TemplateMarkup.Proofs.Layout.Lines

/-! Reading back a layout. After the lines of some items the tree is one into which a line of their
width still fits, and which holds their nodes where that line would go. -/
namespace TemplateMarkup
open Builder

namespace Builder

/-- Adds nodes to the innermost block, in order. -/
def addAll (b : Builder) (nodes : List Node) : Builder := nodes.foldl add b

theorem addAll_append (b : Builder) (nodes more : List Node) :
    b.addAll (nodes ++ more) = (b.addAll nodes).addAll more :=
  List.foldl_append

theorem addAll_confirm (b : Builder) (width : Nat) (owner : Owner) (nodes more : List Node) :
    (b.confirm width ⟨owner, nodes⟩).addAll more =
      b.confirm width ⟨owner, more.reverse ++ nodes⟩ := by
  induction more generalizing nodes with
  | nil => rfl
  | cons node more ih =>
    change (b.confirm width ⟨owner, node :: nodes⟩).addAll more = _
    rw [ih, List.reverse_cons, List.append_assoc, List.singleton_append]

theorem addAll_root (root : List Node) (log : List Event) (more : List Node) :
    addAll ⟨root, [], none, log⟩ more = ⟨more.reverse ++ root, [], none, log⟩ := by
  induction more generalizing root with
  | nil => rfl
  | cons node more ih =>
    change addAll ⟨node :: root, [], none, log⟩ more = _
    rw [ih, List.reverse_cons, List.append_assoc, List.singleton_append]

theorem width_finish (b : Builder) (block : Block) : (b.finish block).width = b.width := by
  rw [finish, width_record, width_add]

theorem not_deeper_than_width (b : Builder) :
    b.levels.takeWhile (b.width < ·.width) = [] := by
  unfold width
  cases b.levels <;> simp

/-- A line of the width of the innermost level ends nothing. -/
theorem align_self {b : Builder} (idle : b.awaiting = none) : b.align b.width = .ok (b, false) := by
  have uncut : b.cutTo b.width = b := by
    rw [cutTo, not_deeper_than_width, closeAwaiting_of_none idle]
    rfl
  rw [align_of_le (Nat.le_refl _) (by rw [uncut]), uncut]
  simp

/-- Back at the width of the level around a block, that block is finished. -/
theorem cutTo_level {b : Builder} (idle : b.awaiting = none) {v : Nat} (deeper : b.width < v)
    (block : Block) :
    (b.confirm v block).cutTo b.width = b.finish block := by
  rw [cutTo, closeAwaiting_confirm, levels_confirm,
    List.takeWhile_cons_of_pos (by simpa using deeper), not_deeper_than_width]
  simp only [List.length_cons, List.length_nil, closeLevels, closeLevel, levels_confirm]
  rw [confirm, ← idle]

theorem Over.trans {b c d : Builder} (h : Over [] b c) (h' : Over [] c d) : Over [] b d :=
  ⟨by simpa [h.root] using h'.root, h'.levels.trans h.levels, h'.awaiting.trans h.awaiting⟩

end Builder

namespace State

/-- Nothing is under way and no space is due. -/
structure Idle (s : State) : Prop where
  phase : s.phase = .start ∨ s.phase = .ready
  gap : s.gap = false

theorem idle_takeCode (s : State) {owner : CodeOwner} (noGap : owner.leavesGap = false)
    (line : Line) (code : Layout.Code) :
    (s.takeCode owner [] line (' ' :: code.chars)).Idle ∧
      (s.takeCode owner [] line (' ' :: code.chars)).builder =
        (s.builder.begin (owner.withCode code.text)).place .newline := by
  have trimmed : trim (' ' :: code.chars) = code.chars := (trim_space_cons _).trans code.trimmed
  have single : joinCode [code.chars] = code.text := by simp [joinCode, Layout.Phrase.text]
  unfold takeCode
  simp only [trimmed, continues, code.complete, decide_false, single]
  exact ⟨⟨.inr rfl, noGap⟩, rfl⟩

/-- A tag with nothing behind its name. -/
theorem takeTag_nil (s : State) (tab : Nat) (name : String) (line : Line) :
    s.takeTag tab name line [] =
      .ok (s.takeTail tab ⟨name, [], s.number, line⟩ line .block) := by
  simp [takeTag, readShortcuts, takeAttributes, readAttributes, readName, readListEnd, Tail.read]

/-- A tag that closes itself right behind its name. -/
theorem takeTag_void (s : State) (tab : Nat) (name : String) (line : Line) :
    s.takeTag tab name line ['/', '>'] =
      .ok (s.takeTail tab ⟨name, [], s.number, line⟩ line .void) := by
  have noShortcuts : readShortcuts ['/', '>'] = ([], ['/', '>']) := by
    rw [readShortcuts]
    rfl
  have noAttributes : readAttributes none ['/', '>'] = .ok ([], ['/', '>']) := by
    rw [readAttributes]
    rfl
  simp [takeTag, noShortcuts, closingBracket, takeAttributes, noAttributes, readListEnd, Tail.read,
    trimLeft, isWhite, isRemarkOnly]

end State

namespace Layout

variable (settings : Settings) {s : State}

theorem takeHead_header (idle : s.gap = false) (line : Line) (header : Header) :
    ∃ t, State.takeHead settings s line (Head.read header.print) = .ok t ∧ t.Idle ∧
      t.builder = (s.builder.begin header.owner).place .newline := by
  cases header with
  | tag name =>
    have read := read_name name stops_nil
    rw [List.append_nil] at read
    refine ⟨s.takeTail settings.tabSize ⟨name.text, [], s.number, line⟩ line .block, ?_,
      ⟨.inr rfl, rfl⟩, rfl⟩
    rw [Header.print, read]
    simp only [State.takeHead, State.separate_of_no_gap idle, State.takeTag_nil]
    rfl
  | control code =>
    have quiet : CodeOwner.control.leavesGap = false := rfl
    exact ⟨_, rfl, State.idle_takeCode s quiet line code⟩
  | output escape code =>
    have quiet : (CodeOwner.output ⟨escape, false⟩).leavesGap = false := rfl
    cases escape <;> exact ⟨_, rfl, State.idle_takeCode s quiet line code⟩
  | conditional condition =>
    have read : Head.read (Header.conditional condition).print = .conditional condition.chars := by
      have inner := Head.condition?_eq condition.trimmed
      simp [Header.print, Head.read, Head.ofHash, inner]
    rw [read]
    exact ⟨_, rfl, ⟨.inr rfl, rfl⟩, rfl⟩

theorem takeHead_void (idle : s.gap = false) (line : Line) (name : Name) :
    ∃ t, State.takeHead settings s line (Head.read name.printVoid) = .ok t ∧ t.Idle ∧
      t.builder = (s.builder.place (.voidTag name.text [])).place .newline := by
  have stop : Stops isNameTail ['/', '>'] := stops_cons.2 rfl
  have read := read_name name stop
  refine ⟨s.takeTail settings.tabSize ⟨name.text, [], s.number, line⟩ line .void, ?_,
    ⟨.inr rfl, rfl⟩, rfl⟩
  rw [Name.printVoid, read]
  simp only [State.takeHead, State.separate_of_no_gap idle, State.takeTag_void]
  rfl

/-- A line of width `width` would go where `c` tells, if the logs are left out of account. -/
structure Fitting (width : Nat) (s : State) (c : Builder) : Prop where
  idle : s.Idle
  fit : ∃ d moved, s.builder.align width = .ok (d, moved) ∧ Over [] c d

/-- A printed line is taken for what its text says, with the tree fitted to its width. -/
theorem feed_printed {width : Nat} {c : Builder} (h : Fitting width s c) {cs : List Char}
    (printed : Printed cs) :
    ∃ u : State, s.feed settings (indent width cs) =
        State.takeHead settings u (indent width cs) (Head.read cs) ∧
      u.gap = false ∧ u.builder.awaiting = none ∧ u.builder.width = width ∧ Over [] c u.builder := by
  obtain ⟨d, moved, fit, above⟩ := h.fit
  have before : s.beforeDispatch? settings (indent width cs) = some s := by
    obtain start | ready := h.idle.phase
    · simp [State.beforeDispatch?, start]
    · simp [State.beforeDispatch?, ready]
  have filled := printed.indent_filled width
  have fit' : { s with number := s.number + 1 }.builder.align
      (indentWidth settings.tabSize (indent width cs)) = .ok (d, moved) := by
    rw [printed.indentWidth_indent]
    exact fit
  have fed := (State.feed_eq_dispatch before filled (printed.indent_noHeader width)).trans
    (State.dispatch_fit filled fit')
  rw [printed.trimLeft_indent] at fed
  have idle : d.awaiting = none := awaiting_align fit
  have width : d.width = width := width_align fit
  refine ⟨_, fed, ?_, idle, width, above.root, above.levels, above.awaiting⟩
  simp [State.fitted, h.idle.gap]

/-- Once the items of a block are read, a line of the block's own width finds the block finished. -/
theorem Fitting.of_block {v : Nat} {c d : Builder} {owner : Owner} {nodes : List Node}
    (above : Over [] c d) (idle : d.awaiting = none) (deeper : d.width < v)
    (h : Fitting v s (d.confirm v ⟨owner, nodes⟩))
    (floor : d.width ≤ s.builder.width) :
    Fitting d.width s (c.add (owner.enclose nodes.reverse)) := by
  obtain ⟨e, moved, fit, same⟩ := h.fit
  have closed := (over_congruence []).cutTo same d.width
  rw [cutTo_level idle deeper, cutTo_align fit deeper] at closed
  have width : (s.builder.cutTo d.width).width = d.width := by
    rw [(over_congruence []).width closed, width_finish]
  have finished : Over [] (c.add (owner.enclose nodes.reverse)) (d.finish ⟨owner, nodes⟩) := by
    have added := above.add (owner.enclose nodes.reverse)
    exact ⟨added.root, added.levels, added.awaiting⟩
  exact ⟨h.idle, _, _, align_of_le floor width, finished.trans closed⟩

/-- A block has been opened with its line end; a line that is any deeper goes into it. -/
theorem fitting_inside {d : Builder} {owner : Owner} {v : Nat} (idle : s.Idle)
    (opened : s.builder = (d.begin owner).place .newline) (deeper : d.width < v) :
    Fitting v s (d.confirm v ⟨owner, [.newline]⟩) := by
  have lower : s.builder.width < v := by rwa [opened, width_place, width_begin]
  have fit : s.builder.align v = .ok (s.builder.confirm v ⟨owner, [.newline]⟩, true) := by
    rw [align, if_pos lower, opened]
    rfl
  refine ⟨idle, _, true, fit, ?_⟩
  rw [opened]
  exact ⟨(List.append_nil d.root).symm, rfl, rfl⟩

mutual

/-- The lines of an item are taken, and a line of their width goes behind its nodes. -/
theorem feed_item (item : Item) {s : State} {w : Nat} {c : Builder} (h : Fitting w s c) :
    ∃ t, (item.print w).foldlM (State.feed settings) s = .ok t ∧
      Fitting w t (c.addAll item.nodes) ∧ w ≤ t.builder.width := by
  cases item with
  | block header step items =>
    obtain ⟨u, fed, gap, pending, width, above⟩ :=
      feed_printed settings h (printed_header header)
    obtain ⟨t, taken, idle, opened⟩ :=
      takeHead_header settings gap (indent w header.print) header
    have deeper : u.builder.width < w + step + 1 := by omega
    obtain ⟨t', rest, inside, floor⟩ := feed_items items (fitting_inside idle opened deeper)
    have outer : u.builder.width ≤ t'.builder.width := by
      rw [opened, width_place, width_begin] at floor
      omega
    rw [addAll_confirm] at inside
    have behind := Fitting.of_block above pending deeper inside outer
    refine ⟨t', ?_, ?_, ?_⟩
    · rw [Item.print, List.foldlM_cons, fed, taken]
      exact rest
    · rw [width, header.enclose_owner, List.reverse_append, List.reverse_reverse] at behind
      exact behind
    · omega
  | void name =>
    obtain ⟨u, fed, gap, pending, width, above⟩ :=
      feed_printed settings h (printed_void name)
    obtain ⟨t, taken, idle, placed⟩ :=
      takeHead_void settings gap (indent w name.printVoid) name
    have level : t.builder.width = w := by rw [placed, width_place, width_place, width]
    have still : t.builder.awaiting = none := by
      rw [placed]
      exact awaiting_place_eq_none (awaiting_place_eq_none pending _) _
    have fit := align_self still
    rw [level] at fit
    refine ⟨t, ?_, ⟨idle, _, _, fit, ?_⟩, Nat.le_of_eq level.symm⟩
    · rw [Item.print, List.foldlM_cons, fed, taken]
      rfl
    · rw [placed, Item.nodes]
      exact (above.place (.voidTag name.text [])).place .newline

/-- So are the lines of several items, one item after the other. -/
theorem feed_items (items : List Item) {s : State} {w : Nat} {c : Builder} (h : Fitting w s c) :
    ∃ t, (printItems w items).foldlM (State.feed settings) s = .ok t ∧
      Fitting w t (c.addAll (nodesOf items)) ∧ min w s.builder.width ≤ t.builder.width := by
  cases items with
  | nil => exact ⟨s, rfl, h, Nat.min_le_right _ _⟩
  | cons item items =>
    obtain ⟨t, first, fitting, level⟩ := feed_item item h
    obtain ⟨t', rest, fitting', level'⟩ := feed_items items fitting
    refine ⟨t', ?_, ?_, ?_⟩
    · rw [printItems, List.foldlM_append, first]
      exact rest
    · rw [nodesOf, addAll_append]
      exact fitting'
    · omega

end

theorem readLines_print (settings : Settings) (items : List Item) :
    ∃ b, readLines settings (printItems 0 items) = .ok b ∧ b.tree = .multi (nodesOf items) := by
  have start : Fitting 0 {} {} := ⟨⟨.inl rfl, rfl⟩, {}, false, rfl, rfl, rfl, rfl⟩
  obtain ⟨t, fed, fitting, -⟩ := feed_items settings items start
  obtain ⟨d, moved, fit, above⟩ := fitting.fit
  have finished : t.finish = .ok t.builder.closeAll := by
    obtain start | ready := fitting.idle.phase
    · simp [State.finish, start]
    · simp [State.finish, ready]
  refine ⟨t.builder.closeAll, ?_, ?_⟩
  · rw [readLines, fed]
    exact finished
  · have closed := (over_congruence []).closeAll above
    rw [closeAll_align fit, addAll_root, closeAll_of_closed rfl rfl] at closed
    rw [tree, closed.root]
    simp

mutual

theorem plain_item (item : Item) (width : Nat) :
    ∀ line ∈ item.print width, line.IsPlain ∧ line ≠ [] := by
  intro line hline
  cases item with
  | block header step items =>
    obtain rfl | hline := List.mem_cons.1 hline
    · exact ⟨(printed_header header).indent_line width, (printed_header header).indent_ne_nil width⟩
    · exact plain_items items (width + step + 1) line hline
  | void name =>
    obtain rfl := List.mem_singleton.1 hline
    exact ⟨(printed_void name).indent_line width, (printed_void name).indent_ne_nil width⟩

theorem plain_items (items : List Item) (width : Nat) :
    ∀ line ∈ printItems width items, line.IsPlain ∧ line ≠ [] := by
  intro line hline
  cases items with
  | nil => cases hline
  | cons item items =>
    obtain hline | hline := List.mem_append.1 hline
    · exact plain_item item width line hline
    · exact plain_items items width line hline

end

/-- Layout round trip. Every forest of blocks and void tags, printed with its blocks' items at any
deeper widths, is parsed back to just its nodes, whether or not its last line is ended. -/
theorem parse_layout (settings : Settings) (items : List Item) :
    parse settings (String.ofList (printLines (printItems 0 items))) = .ok (.multi (nodesOf items)) ∧
    parse settings (String.ofList (List.intercalate ['\n'] (printItems 0 items))) =
      .ok (.multi (nodesOf items)) := by
  obtain ⟨b, read, tree⟩ := readLines_print settings items
  have plain := plain_items items 0
  have clean : ∀ line ∈ printItems 0 items, line.IsPlain := by
    intro line hline
    exact (plain line hline).1
  have filled : ∀ line ∈ printItems 0 items, line ≠ [] := by
    intro line hline
    exact (plain line hline).2
  have ended := linesOf_printLines clean
  have joined := linesOf_intercalate clean filled
  rw [← tree]
  constructor
  · apply parse_of_ok
    rw [String.toList_ofList, ended, read]
  · apply parse_of_ok
    rw [String.toList_ofList, joined, read]

/-- The last line ends two blocks at once. -/
example : parse {} "#[if IE]\n   - f\n     =' g\n- h" = .ok (.multi
    [.conditional "if IE" (.multi [.newline, .control "f" (.multi [.newline,
      .output true "g" (.multi [.newline])])]), .control "h" (.multi [.newline])]) := rfl

end Layout

end TemplateMarkup
