import TemplateMarkup.Proofs.Reading.Gap
import TemplateMarkup.Proofs.Reading.Simulation
import TemplateMarkup.Proofs.Text.Lines

/-! Sections of a template. A line at the left edge ends every block before it, so what stands in
front of it and what starts with it are read as if each stood alone, but for one space. -/
namespace TemplateMarkup
open Builder

/-- Whether the last line that was dispatched in a template stands at the left edge and is set apart
from what follows. -/
def leavesGap (settings : Settings) (source : String) : Bool :=
  let last := ((readTemplate settings source).log.filterMap Event.dispatched?).getLast?
  widthLeft last = 0 && gapLeft (linesOf source.toList) last

/-- What stands between a template and a section that starts with the line `first`. -/
def seam (settings : Settings) (source : String) (first : Line) : List Node :=
  if leavesGap settings source && (Head.read (trimLeft first)).isSpaced then [.static " "] else []

namespace State

variable {settings : Settings} {s t : State} {first : Line}

/-- A filled line at the left edge belongs to nothing that a template could end with, and ends it
as the end of the template would. -/
theorem beforeDispatch_of_flush {b : Builder} (hb : s.finish = .ok b)
    (filled : isBlankText first = false) (flush : indentWidth settings.tabSize first = 0) :
    ∃ t, s.beforeDispatch? settings first = some t ∧ t.builder.closeAll = b ∧ t.gap = s.gap ∧
      t.number = s.number ∧ Fills s.builder t.builder := by
  have notBlank := isBlank_of_isBlankText filled
  obtain ⟨number, builder, gap, phase⟩ := s
  cases phase with
  | start => cases hb; exact ⟨_, rfl, rfl, rfl, rfl, .refl⟩
  | ready => cases hb; exact ⟨_, rfl, rfl, rfl, rfl, .refl⟩
  | code owner segments last => cases hb
  | attributes tag close => cases hb
  | text block =>
    cases hb
    have passed : block.takes settings.tabSize builder.width first = false := by
      simp only [TextBlock.takes, TextBlock.isBlankLine, flush]
      split <;> simp [filled, notBlank]
    refine ⟨_, ?_, rfl, gap_settle _ block, number_settle _ block, fills_settle _ block⟩
    simp [beforeDispatch?, passed]
  | remark =>
    cases hb
    refine ⟨⟨number, builder, gap, .ready⟩, ?_, rfl, rfl, rfl, .refl⟩
    simp [beforeDispatch?, notBlank, flush]

/-- Such a line is taken with every block ended. -/
theorem feed_flush {b : Builder} (run : Moves {} s.builder) (hb : s.finish = .ok b)
    (filled : isBlankText first = false) (flush : indentWidth settings.tabSize first = 0)
    (plain : doctypeHeader? first = none) :
    ∃ u : State, s.feed settings first = takeHead settings u first (Head.read (trimLeft first)) ∧
      u.number = s.number + 1 ∧ u.gap = (s.gap && !decide (0 < s.builder.width)) ∧
      u.builder = b.record (.dispatched (s.number + 1) 0 (trimLeft first)) := by
  have notBlank := isBlank_of_isBlankText filled
  obtain ⟨t, ht, rfl, gap, number, fills⟩ := beforeDispatch_of_flush hb filled flush
  have fit := align_zero (indents_sorted (run.trans fills.moves))
  rw [← flush] at fit
  have next : { t with number := t.number + 1 }.builder.align (indentWidth settings.tabSize first) =
      .ok (t.builder.closeAll, decide (0 < t.builder.width)) := by
    rw [fit, flush]
  refine ⟨_, (feed_eq_dispatch ht notBlank plain).trans (dispatch_fit notBlank next), ?_, ?_, ?_⟩
  · exact congrArg (· + 1) number
  · simp only [fitted, gap, width_fills fills]
  · simp only [fitted, flush, number]

theorem spacedFor_of_no_gap (h : s.gap = false) (head : Head) : s.spacedFor head = s := by
  unfold spacedFor
  split
  · exact separate_of_no_gap h
  · rfl

/-- A line that finds nothing before it, and one that finds finished nodes and perhaps a gap. -/
theorem over_spacedFor {c : Builder} (idle : c.awaiting = none) (flat : c.levels = [])
    {log : List Event} {event : Event} {head : Head} {space : List Node} (nogap : s.gap = false)
    (hs : s.builder = { log := log }) (ht : t.builder = c.record event)
    (due : space = if t.gap && head.isSpaced then [.static " "] else []) :
    Over (space ++ c.root) (s.spacedFor head).builder (t.spacedFor head).builder := by
  have above := over_of_closed (c := c.record event) idle flat log
  rw [spacedFor_of_no_gap nogap, hs, due]
  unfold spacedFor separate
  cases spaced : head.isSpaced with
  | false => simpa [spaced, ht] using above
  | true =>
    cases gap : t.gap with
    | false => simpa [spaced, ht] using above
    | true =>
      have placed := place_of_closed (b := c.record event) idle flat (.static " ")
      simp only [if_true, builder_place, ht, placed]
      exact ⟨rfl, flat, idle⟩

end State

variable {settings : Settings} {a b : String}

/-- The gap that a template leaves is the one its last state has, unless a block is open there. -/
theorem leavesGap_eq {s : State} {c : Builder}
    (hs : (linesOf a.toList).foldlM (State.feed settings) {} = .ok s) (hc : s.finish = .ok c)
    (log : (readTemplate settings a).log = c.log.reverse) :
    leavesGap settings a = (s.gap && !decide (0 < s.builder.width)) := by
  have traced : State.Traced (linesOf a.toList) [] s := by
    have whole := State.traced_foldlM [] hs
    rwa [List.append_nil] at whole
  have complete : s.phase.isMidway = false := by
    unfold State.finish at hc
    split at hc <;> simp_all [Phase.isMidway]
  have last : ((readTemplate settings a).log.filterMap Event.dispatched?).getLast? =
      s.builder.dispatches.head? := by
    obtain ⟨d, fills, rfl⟩ := State.fills_finish hc
    rw [log, List.filterMap_reverse, List.getLast?_reverse, ← dispatches_fills fills,
      ← dispatches_closeAll d]
    rfl
  have gap := traced.gap
  rw [State.gapAfter_of_not_midway complete] at gap
  unfold leavesGap
  simp only [last]
  rw [← traced.width, ← gap, Bool.and_comm]
  congr 1
  cases s.builder.width <;> simp

/-- Reading goes on behind a template as it starts in front of one. -/
theorem agree_section {s : State} {c : Builder} {first : Line} (rest : List Line)
    (run : Moves {} s.builder) (hc : s.finish = .ok c) (filled : isBlankText first = false)
    (flush : indentWidth settings.tabSize first = 0) (plain : doctypeHeader? first = none)
    {space : List Node}
    (due : space = if (s.gap && !decide (0 < s.builder.width)) &&
      (Head.read (trimLeft first)).isSpaced then [.static " "] else []) :
    Agree (Over (space ++ c.root)) s.number (readLines settings (first :: rest))
      ((first :: rest).foldlM (State.feed settings) s >>= State.finish) := by
  have kept := over_congruence (space ++ c.root)
  obtain ⟨u, hu, unumber, ugap, ubuilder⟩ := State.feed_flush run hc filled flush plain
  obtain ⟨v, hv, vnumber, vgap, vbuilder⟩ :=
    State.feed_flush (s := {}) .refl rfl filled flush plain
  have number : u.number = v.number + s.number := by
    rw [unumber, vnumber]
    exact Nat.add_comm _ _
  have related : Over (space ++ c.root) (v.spacedFor (Head.read (trimLeft first))).builder
      (u.spacedFor (Head.read (trimLeft first))).builder := by
    obtain ⟨d, -, rfl⟩ := State.fills_finish hc
    refine State.over_spacedFor (awaiting_closeAll d) (levels_closeAll d) vgap vbuilder ubuilder ?_
    rw [due, ugap]
  have taken := State.agree_takeHead kept number settings first _ related
  rw [← hu, ← hv] at taken
  unfold readLines
  rw [List.foldlM_cons, List.foldlM_cons, bind_assoc, bind_assoc]
  exact taken.bind fun _ _ alike => State.agree_rest kept alike settings rest

/-- Parsing is compositional at the left edge. Behind a template whose last line is ended, a template
whose first line is filled, stands at the left edge and is no doctype header adds its own nodes, or
its own fault, to those in front of it; nothing else passes from one to the other but one space. -/
theorem parse_append {nodes : List Node} {first : Line} {rest : List Line}
    (ended : ∀ c ∈ a.toList.getLast?, c = '\n') (ha : parse settings a = .ok (.multi nodes))
    (hb : linesOf b.toList = first :: rest) (filled : isBlankText first = false)
    (flush : indentWidth settings.tabSize first = 0) (plain : doctypeHeader? first = none) :
    (∀ more, parse settings b = .ok (.multi more) →
      parse settings (a ++ b) = .ok (.multi (nodes ++ seam settings a first ++ more))) ∧
    ∀ d, parse settings b = .error d →
      parse settings (a ++ b) =
        .error { d with number := d.number + (linesOf a.toList).length } := by
  obtain ⟨c, read, htree, log⟩ := readLines_of_parse ha
  obtain ⟨s, hs, hc⟩ := run_of_readLines read
  have all : linesOf (a ++ b).toList = linesOf a.toList ++ first :: rest := by
    rw [String.toList_append, linesOf_append_of_ended _ ended, hb]
  have whole : readLines settings (linesOf (a ++ b).toList) =
      ((first :: rest).foldlM (State.feed settings) s >>= State.finish) := by
    rw [all, readLines, List.foldlM_append, hs]
    rfl
  have due : seam settings a first = if (s.gap && !decide (0 < s.builder.width)) &&
      (Head.read (trimLeft first)).isSpaced then [.static " "] else [] := by
    rw [seam, leavesGap_eq hs hc log]
  have count : s.number = (linesOf a.toList).length := by
    simpa using State.number_foldlM State.steady_start hs
  have run := State.outcome_foldlM settings (linesOf a.toList) State.steady_start
  rw [hs] at run
  cases run with
  | ok moves _ _ =>
    have agree := agree_section rest moves hc filled flush plain due
    rw [← whole, ← hb, count] at agree
    generalize hx : readLines settings (linesOf b.toList) = x at agree
    generalize hy : readLines settings (linesOf (a ++ b).toList) = y at agree
    cases agree with
    | ok above =>
      have front : c.root.reverse = nodes := (Node.multi.inj htree).symm
      rw [parse_of_ok hx, parse_of_ok hy]
      constructor
      · intro more hmore
        have back : more = _ := (Node.multi.inj (Except.ok.inj hmore)).symm
        have space : (seam settings a first).reverse = seam settings a first := by
          unfold seam
          split <;> rfl
        rw [tree, above.root, back, ← front]
        simp [space]
      · intro d hd
        cases hd
    | error fault =>
      rw [parse_of_error hx, parse_of_error hy]
      constructor
      · intro more hmore
        cases hmore
      · intro d hd
        cases hd
        rw [fault]
        rfl

/-- A text ends where another one starts at the left edge, and the two are set apart. -/
theorem parse_append_texts :
    parse {} ("one\n  two\n" ++ "three") =
      .ok (.multi ([.interpolate "one\n  two", .newline, .newline] ++
        seam {} "one\n  two\n" "three".toList ++ [.interpolate "three", .newline])) ∧
    seam {} "one\n  two\n" "three".toList = [.static " "] := by
  have front : parse {} "one\n  two\n" =
      .ok (.multi [.interpolate "one\n  two", .newline, .newline]) := rfl
  have back : parse {} "three" = .ok (.multi [.interpolate "three", .newline]) := rfl
  have lines : linesOf "three".toList = ["three".toList] := by decide
  have last : "one\n  two\n".toList.getLast? = some '\n' := by decide
  have ended : ∀ c ∈ "one\n  two\n".toList.getLast?, c = '\n' := by
    intro c hc
    rw [last] at hc
    exact (Option.mem_some.1 hc).symm
  have main := parse_append (b := "three") ended front lines (by decide) (by decide) (by decide)
  exact ⟨main.1 _ back, rfl⟩

end TemplateMarkup
