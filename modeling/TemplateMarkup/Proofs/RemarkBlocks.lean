import TemplateMarkup.Proofs.Reading.Dispatched

/-! Remarks leak nothing. A remark and the lines below it that are blank or deeper leave one line
end each, whatever is written on them. -/
namespace TemplateMarkup
open Builder

/-- A text that starts with a hash sign and neither with a splice nor as a condition in brackets. -/
def IsRemark (text : List Char) : Prop :=
  ∃ rest, text = '#' :: rest ∧ rest.head? ≠ some '{' ∧ Head.condition? rest = none

theorem IsRemark.read {text : List Char} (h : IsRemark text) : Head.read text = .remark := by
  obtain ⟨rest, rfl, plain, free⟩ := h
  change Head.ofHash rest = .remark
  unfold Head.ofHash
  split
  · exact absurd rfl plain
  · rw [free]

/-- Whether a line belongs to a remark of some width above it. -/
def isBelow (tab width : Nat) (line : Line) : Bool := isBlank line || width < indentWidth tab line

variable {settings : Settings} {line : Line}

theorem IsRemark.isBlankText (h : IsRemark (trimLeft line)) : isBlankText line = false := by
  obtain ⟨rest, text, -⟩ := h
  simp [TemplateMarkup.isBlankText, text]

theorem IsRemark.noHeader (h : IsRemark (trimLeft line)) : doctypeHeader? line = none := by
  obtain ⟨rest, text, -⟩ := h
  unfold doctypeHeader?
  split
  · next cs => cases text
  · rfl

namespace State

variable {s t u : State} {other : Line}

/-- Where a line is dispatched, so is any other filled line of the same width. -/
theorem beforeDispatch_of_filled (before : s.beforeDispatch? settings line = some t)
    (same : indentWidth settings.tabSize other = indentWidth settings.tabSize line)
    (filled : isBlankText other = false) : s.beforeDispatch? settings other = some t := by
  have notBlank := isBlank_of_isBlankText filled
  obtain ⟨number, builder, gap, phase⟩ := s
  cases phase with
  | start => exact before
  | ready => exact before
  | code owner segments last => exact before
  | attributes tag close => exact before
  | text block =>
    simp only [beforeDispatch?] at before ⊢
    split at before
    · cases before
    · next passed =>
      have level := (passed_of_takes passed).2
      have passed' : block.takes settings.tabSize builder.width other = false := by
        simp only [TextBlock.takes, TextBlock.isBlankLine, same]
        split <;> simp_all
      simpa [passed'] using before
  | remark =>
    simp only [beforeDispatch?] at before ⊢
    split at before
    · cases before
    · next passed =>
      rw [Bool.or_eq_true, not_or] at passed
      simpa [same, notBlank, passed.2] using before

/-- The lines below a remark leave a line end each. -/
theorem foldlM_below {lines : List Line} (under : s.phase = .remark)
    (below : ∀ line ∈ lines, isBelow settings.tabSize s.builder.width line = true) :
    lines.foldlM (feed settings) s = .ok { s with
      number := s.number + lines.length, builder := placeBreaks lines.length s.builder } := by
  induction lines generalizing s with
  | nil => rfl
  | cons line lines ih =>
    obtain ⟨first, rest⟩ := List.forall_mem_cons.1 below
    have fed : s.feed settings line = .ok { s with number := s.number + 1 }.breakLine := by
      unfold isBelow at first
      simp [feed, under, first]
    rw [List.foldlM_cons, fed]
    have onward := ih (s := { s with number := s.number + 1 }.breakLine) under
      (by simpa [breakLine, place] using rest)
    refine onward.trans ?_
    simp [breakLine, place, placeBreaks, Nat.add_assoc, Nat.add_comm 1]

/-- Where a reading stands behind a remark and some of the lines below it. -/
def underRemark (number : Nat) (builder : Builder) : State :=
  { number := number, builder := builder, gap := false, phase := .remark }

/-- A remark is dispatched where any remark of the same width is, and finds the same tree. With the
lines below it, it leaves just their line ends there, and nothing of its text but in the log. -/
theorem foldlM_remark {c : Builder} {moved : Bool}
    (before : s.beforeDispatch? settings line = some t)
    (fit : t.builder.align (indentWidth settings.tabSize line) = .ok (c, moved))
    (same : indentWidth settings.tabSize other = indentWidth settings.tabSize line)
    (remark : IsRemark (trimLeft other)) {lines : List Line}
    (below : ∀ l ∈ lines,
      isBelow settings.tabSize (indentWidth settings.tabSize line) l = true) :
    (other :: lines).foldlM (feed settings) s = .ok (underRemark (s.number + 1 + lines.length)
      (placeBreaks (lines.length + 1) (c.record
        (.dispatched (s.number + 1) (indentWidth settings.tabSize line) (trimLeft other))))) := by
  have width : c.width = indentWidth settings.tabSize line := width_align fit
  obtain ⟨-, number, -, -⟩ := fills_beforeDispatch before
  have before' := beforeDispatch_of_filled before same remark.isBlankText
  rw [← same] at fit
  have here := Dispatches.intro before' (isBlank_of_isBlankText remark.isBlankText)
    (fun _ => remark.noHeader) fit
  rw [List.foldlM_cons, here.feed_eq, remark.read, ← number, ← same]
  refine foldlM_below rfl ?_
  simpa [breakLine, fitted, width] using below

/-- What the log tells of a remark does not matter to the lines behind it. -/
theorem alike_underRemark (c : Builder) (event event' : Event) (number breaks : Nat) :
    Alike (Over []) 0 (underRemark number (placeBreaks breaks (c.record event)))
      (underRemark number (placeBreaks breaks (c.record event'))) := by
  have start : Over [] c c := ⟨(List.append_nil _).symm, rfl, rfl⟩
  exact ⟨rfl, (over_congruence []).placeBreaks (start.record _ _) _, rfl, fun _ => rfl⟩

end State

/-- Readings whose trees differ in their logs alone come to the same. -/
theorem parse_eq_of_agree {source other : String}
    (h : Agree (Over []) 0 (readLines settings (linesOf source.toList))
      (readLines settings (linesOf other.toList))) :
    parse settings other = parse settings source := by
  generalize hx : readLines settings (linesOf source.toList) = x at h
  generalize hy : readLines settings (linesOf other.toList) = y at h
  cases h with
  | ok above =>
    rw [parse_of_ok hx, parse_of_ok hy, tree, tree, above.root, List.append_nil]
  | error fault =>
    rw [parse_of_error hx, parse_of_error hy, fault]
    rfl

/-- A remark and what is below it can be written in any way. Where a template has a remark of some
width and lines that are blank or deeper, any other remark of that width and any other such lines,
as many, come to the same tree or the same fault; and all that the block adds to the tree, as it
stands where the remark is fitted to it, is a line end for each of its lines. -/
theorem remark_block_silent {source other : String} {before inside inside' after : List Line}
    {line line' : Line} {width : Nat} {text : List Char}
    (split : linesOf source.toList = before ++ line :: (inside ++ after))
    (told : .dispatched (before.length + 1) width text ∈ (readTemplate settings source).log)
    (remark : IsRemark text) (below : ∀ l ∈ inside, isBelow settings.tabSize width l = true)
    (split' : linesOf other.toList = before ++ line' :: (inside' ++ after))
    (same : indentWidth settings.tabSize line' = width) (remark' : IsRemark (trimLeft line'))
    (below' : ∀ l ∈ inside', isBelow settings.tabSize width l = true)
    (count : inside'.length = inside.length) :
    parse settings other = parse settings source ∧
    ∃ s t c moved u, before.foldlM (State.feed settings) {} = .ok s ∧
      s.beforeDispatch? settings line = some t ∧ t.builder.align width = .ok (c, moved) ∧
      (before ++ line :: inside).foldlM (State.feed settings) {} = .ok u ∧
      u.builder = placeBreaks (inside.length + 1)
        (c.record (.dispatched (before.length + 1) width text)) ∧
      ∀ next ∈ after.head?, isBelow settings.tabSize width next = false →
        u.beforeDispatch? settings next = some { u with phase := .ready } := by
  obtain ⟨_, _, s, u, lines, rfl, rfl, hs, here⟩ := dispatches_of_told split told
  obtain ⟨rfl, -⟩ := List.cons.inj lines
  obtain @⟨t, c, moved, found, filled, plain, fit⟩ := here
  have number : s.number = before.length := by
    simpa using State.number_foldlM State.steady_start hs
  have own := State.foldlM_remark found fit rfl remark below
  have replaced := State.foldlM_remark found fit same remark' below'
  rw [number] at own replaced
  refine ⟨?_, s, t, c, moved, State.underRemark (before.length + 1 + inside.length)
    (placeBreaks (inside.length + 1) (c.record (.dispatched (before.length + 1)
      (indentWidth settings.tabSize line) (trimLeft line)))), hs, found, fit, ?_, rfl, ?_⟩
  · apply parse_eq_of_agree
    rw [split, split', readLines, readLines, ← List.cons_append, ← List.cons_append,
      List.foldlM_append, List.foldlM_append, hs]
    change Agree _ _ ((line :: inside ++ after).foldlM (State.feed settings) s >>= State.finish)
      ((line' :: inside' ++ after).foldlM (State.feed settings) s >>= State.finish)
    rw [List.foldlM_append, List.foldlM_append, own, replaced, count]
    exact State.agree_rest (over_congruence []) (State.alike_underRemark c _ _ _ _) settings after
  · rw [List.foldlM_append, hs]
    exact own
  · intro next _ outside
    have width : (placeBreaks (inside.length + 1) (c.record (.dispatched (before.length + 1)
        (indentWidth settings.tabSize line) (trimLeft line)))).width =
        indentWidth settings.tabSize line := by
      rw [width_fills (fills_placeBreaks _ _), width_record, width_align fit]
    unfold isBelow at outside
    simp [State.beforeDispatch?, State.underRemark, width, outside]

/-- A tag that is never finished may stand below a remark; so may code that goes on, below a remark
with an open quote. -/
theorem remark_block_silent_code :
    parse {} "- f\n  # 'x\n      - y \\\n\n  c" = parse {} "- f\n  # a\n   b\n    <(\n  c" := by
  have log : (readTemplate {} "- f\n  # a\n   b\n    <(\n  c").log =
      [.dispatched 1 0 "- f".toList, .opened (.control "f") 2, .placed .newline] ++
      .dispatched 2 2 "# a".toList ::
      [.placed .newline, .placed .newline, .placed .newline, .dispatched 5 2 "c".toList,
        .placed (.interpolate "c"), .placed .newline, .closed 1] := rfl
  have told : .dispatched (["- f".toList].length + 1) 2 "# a".toList ∈
      (readTemplate {} "- f\n  # a\n   b\n    <(\n  c").log := by
    rw [log]
    simp
  have split : linesOf "- f\n  # a\n   b\n    <(\n  c".toList = ["- f".toList] ++
      "  # a".toList :: (["   b".toList, "    <(".toList] ++ ["  c".toList]) := by decide
  have split' : linesOf "- f\n  # 'x\n      - y \\\n\n  c".toList = ["- f".toList] ++
      "  # 'x".toList :: (["      - y \\".toList, []] ++ ["  c".toList]) := by decide
  exact (remark_block_silent split told ⟨" a".toList, rfl, by decide, rfl⟩ (by decide) split'
    (by decide) ⟨" 'x".toList, rfl, by decide, rfl⟩ (by decide) rfl).1

end TemplateMarkup
