import Mathlib.Data.List.TakeWhile
import TemplateMarkup.Proofs.Text.Blank
import TemplateMarkup.Reading.Basic

/-! How one line is taken: when it belongs to something before it, and how it is fitted to the open
blocks when it does not. And what all lines of a template come to. -/
namespace TemplateMarkup

/-- Whether nothing is under way that is still to be put into the tree. -/
def Phase.isFree : Phase → Bool
  | start | ready | remark => true
  | code .. | attributes .. | text .. => false

namespace State

@[simp] theorem builder_place (s : State) (node : Node) :
    (s.place node).builder = s.builder.place node := rfl

theorem separate_of_no_gap {s : State} (h : s.gap = false) : s.separate = s := by
  simp [separate, h]

@[simp] theorem builder_breakLine (s : State) : s.breakLine.builder = s.builder.place .newline := rfl

/-- A tag is taken by the attributes behind its shortcuts, or behind the bracket that follows them.
Where they start does not depend on the state. -/
theorem takeTag_eq (tab : Nat) (name : String) (line : Line) (cs : List Char) :
    ∃ close inner, inner <:+ (readShortcuts cs).2 ∧ ∀ s : State,
      s.takeTag tab name line cs = s.takeAttributes tab
        ⟨name, (readShortcuts cs).1, s.number, line⟩ close line inner := by
  cases h : (readShortcuts cs).2 with
  | nil =>
    refine ⟨none, [], List.suffix_rfl, ?_⟩
    intro s
    simp [takeTag, h]
  | cons c inner =>
    cases hb : closingBracket c with
    | some bracket =>
      refine ⟨some bracket, inner, List.suffix_cons c inner, ?_⟩
      intro s
      simp [takeTag, h, hb]
    | none =>
      refine ⟨none, c :: inner, List.suffix_rfl, ?_⟩
      intro s
      simp [takeTag, h, hb]

/-- What taking a line's part of an attribute list comes to: the list goes on, or its tail is
taken. -/
theorem takeAttributes_cases {s t : State} {tab : Nat} {tag : TagHead} {close : Option Char}
    {line : Line} {cs : List Char} (h : s.takeAttributes tab tag close line cs = .ok t) :
    ∃ attrs rest, readAttributes close cs = .ok (attrs, rest) ∧
      ((∃ bracket, readListEnd close rest = .ok (.continued bracket) ∧
        t = { s.breakLine with
          phase := .attributes { tag with attrs := tag.attrs ++ attrs } bracket }) ∨
      ∃ angle behind tail, readListEnd close rest = .ok (.closed angle behind) ∧
        Tail.read angle behind = .ok tail ∧
        t = s.takeTail tab { tag with attrs := tag.attrs ++ attrs } line tail) := by
  unfold takeAttributes at h
  split at h
  · cases h
  · next attrs rest hattrs =>
    refine ⟨attrs, rest, hattrs, ?_⟩
    simp only at h
    split at h
    · cases h
    · next bracket hend =>
      cases h
      exact .inl ⟨bracket, hend, rfl⟩
    · next angle behind hend =>
      split at h
      · cases h
      · next tail htail =>
        cases h
        exact .inr ⟨angle, behind, tail, hend, htail, rfl⟩

/-- The state that takes a line once it is fitted to the open blocks. -/
def fitted (s : State) (settings : Settings) (line : Line) (builder : Builder) (moved : Bool) :
    State :=
  { s with
    builder := builder.record
      (.dispatched s.number (indentWidth settings.tabSize line) (trimLeft line))
    gap := s.gap && !moved }

theorem dispatch_blank {settings : Settings} {s : State} {line : Line}
    (blank : isBlank line = true) :
    s.dispatch settings line = .ok { s.breakLine with phase := .ready } := by
  simp [dispatch, blank]

theorem dispatch_misfit {settings : Settings} {s : State} {line : Line} {misfit : Builder.Misfit}
    (blank : isBlank line = false)
    (fit : s.builder.align (indentWidth settings.tabSize line) = .error misfit) :
    s.dispatch settings line =
      .error ⟨.before misfit.cause s.number line (trimLeft line), misfit.log⟩ := by
  simp [dispatch, blank, fit]

theorem dispatch_fit {settings : Settings} {s : State} {line : Line} {builder : Builder}
    {moved : Bool} (blank : isBlank line = false)
    (fit : s.builder.align (indentWidth settings.tabSize line) = .ok (builder, moved)) :
    s.dispatch settings line =
      takeHead settings (s.fitted settings line builder moved) line (Head.read (trimLeft line)) := by
  simp [dispatch, blank, fit, fitted]

/-- What taking a line that belongs to nothing before it comes to. -/
theorem dispatch_cases {settings : Settings} {s t : State} {line : Line}
    (h : s.dispatch settings line = .ok t) :
    (isBlank line = true ∧ t = { s.breakLine with phase := .ready }) ∨
    ∃ builder moved, isBlank line = false ∧
      s.builder.align (indentWidth settings.tabSize line) = .ok (builder, moved) ∧
      takeHead settings (s.fitted settings line builder moved) line (Head.read (trimLeft line)) =
        .ok t := by
  cases blank : isBlank line with
  | true =>
    rw [dispatch_blank blank] at h
    cases h
    exact .inl ⟨rfl, rfl⟩
  | false =>
    cases fit : s.builder.align (indentWidth settings.tabSize line) with
    | error misfit =>
      rw [dispatch_misfit blank fit] at h
      cases h
    | ok result =>
      rw [dispatch_fit blank fit] at h
      exact .inr ⟨result.1, result.2, rfl, rfl, h⟩

/-- The state that a line finds if it belongs to nothing before it. Code and attribute lists take
every line, a text the lines that are blank or deeper, and so does a remark. -/
def beforeDispatch? (settings : Settings) (s : State) (line : Line) : Option State :=
  match s.phase with
  | .start | .ready => some s
  | .code .. | .attributes .. => none
  | .text block =>
    if block.takes settings.tabSize s.builder.width line then none else some (s.settle block)
  | .remark =>
    if isBlank line || s.builder.width < indentWidth settings.tabSize line then none
    else some { s with phase := .ready }

/-- A line that a text does not take is neither blank nor deeper than the level around it. -/
theorem passed_of_takes {block : TextBlock} {tab outer : Nat} {line : Line}
    (h : ¬ block.takes tab outer line = true) :
    isBlank line = false ∧ ¬ outer < indentWidth tab line := by
  rw [TextBlock.takes, Bool.or_eq_true, not_or, decide_eq_true_eq] at h
  refine ⟨?_, h.2⟩
  have filled := eq_false_of_ne_true h.1
  unfold TextBlock.isBlankLine at filled
  split at filled
  · exact filled
  · exact isBlank_of_isBlankText filled

theorem breaks_add {tab : Nat} {block more : TextBlock} {line : Line}
    (h : block.add tab line = .ok more) : more.breaks = block.breaks + 1 := by
  unfold TextBlock.add at h
  split at h
  · cases h; rfl
  · simp only at h
    split at h
    · cases h; rfl
    · cases h

theorem settle_number (s : State) (n : Nat) (block : TextBlock) :
    { s with number := n }.settle block = { s.settle block with number := n } := by
  unfold settle
  simp only
  split <;> rfl

theorem number_settle (s : State) (block : TextBlock) : (s.settle block).number = s.number := by
  unfold settle
  simp only
  split <;> rfl

/-- What such a line finds: the state as it was, or with its text ended. -/
theorem beforeDispatch_cases {settings : Settings} {s t : State} {line : Line}
    (h : s.beforeDispatch? settings line = some t) :
    (s.phase.isFree = true ∧ ∃ phase, t = { s with phase := phase }) ∨
    ∃ block, s.phase = .text block ∧ ¬ block.takes settings.tabSize s.builder.width line = true ∧
      t = s.settle block := by
  obtain ⟨number, builder, gap, phase⟩ := s
  cases phase with
  | start | ready =>
    cases h
    exact .inl ⟨rfl, _, rfl⟩
  | code owner segments last => cases h
  | attributes tag close => cases h
  | text block =>
    simp only [beforeDispatch?] at h
    split at h
    · cases h
    · next passed =>
      cases h
      exact .inr ⟨block, rfl, passed, rfl⟩
  | remark =>
    simp only [beforeDispatch?] at h
    split at h
    · cases h
    · cases h
      exact .inl ⟨rfl, _, rfl⟩

/-- The end of a template finds the same. -/
theorem finish_cases {s : State} {b : Builder} (h : s.finish = .ok b) :
    (s.phase.isFree = true ∧ b = s.builder.closeAll) ∨
    ∃ block, s.phase = .text block ∧ b = (s.settle block).builder.closeAll := by
  obtain ⟨number, builder, gap, phase⟩ := s
  cases phase with
  | start | ready | remark =>
    cases h
    exact .inl ⟨rfl, rfl⟩
  | code owner segments last => cases h
  | attributes tag close => cases h
  | text block =>
    cases h
    exact .inr ⟨block, rfl, rfl⟩

/-- Such a line is dispatched, unless it may be a doctype header. -/
theorem feed_of_beforeDispatch {settings : Settings} {s t : State} {line : Line}
    (h : s.beforeDispatch? settings line = some t) (started : s.phase ≠ .start) :
    s.feed settings line = dispatch settings { t with number := t.number + 1 } line := by
  obtain ⟨number, builder, gap, phase⟩ := s
  cases phase with
  | start => exact absurd rfl started
  | ready => cases h; rfl
  | code owner segments last => cases h
  | attributes tag close => cases h
  | text block =>
    simp only [beforeDispatch?, feed] at h ⊢
    split at h
    · cases h
    · next passed =>
      cases h
      have settled := settle_number ⟨number, builder, gap, .text block⟩ (number + 1) block
      simp only at settled
      rw [if_neg passed, settled, number_settle]
  | remark =>
    simp only [beforeDispatch?, feed] at h ⊢
    split at h
    · cases h
    · next passed =>
      cases h
      rw [if_neg passed]

theorem feed_of_start {settings : Settings} {s : State} (line : Line) (start : s.phase = .start) :
    s.feed settings line = takeFirst settings { s with number := s.number + 1 } line := by
  simp [feed, start]

/-- A line that is not blank and no doctype header is dispatched wherever a template stands. -/
theorem feed_eq_dispatch {settings : Settings} {s t : State} {line : Line}
    (h : s.beforeDispatch? settings line = some t) (filled : isBlank line = false)
    (plain : doctypeHeader? line = none) :
    s.feed settings line = dispatch settings { t with number := t.number + 1 } line := by
  by_cases start : s.phase = .start
  · have same : s = t := by simpa [beforeDispatch?, start] using h
    rw [feed_of_start line start, ← same]
    simp [takeFirst, filled, plain]
  · exact feed_of_beforeDispatch h start

/-- What one line can do to the state of a reading that takes it. -/
inductive Step (settings : Settings) (line : Line) (s : State) : State → Prop
  | blank (start : s.phase = .start) (blank : isBlank line = true) :
      Step settings line s { s with number := s.number + 1 }.breakLine
  | header (value rest : List Char) (start : s.phase = .start)
      (found : doctypeHeader? line = some (value, rest)) (clean : isRemarkOnly rest = true) :
      Step settings line s { ({ s with number := s.number + 1 }.place
        (.doctype (String.ofList value))).breakLine with phase := .ready }
  | code (owner : CodeOwner) (segments : List (List Char)) (last : Line)
      (under : s.phase = .code owner segments last) :
      Step settings line s ({ s with number := s.number + 1 }.takeCode owner segments line line)
  | attributes (t : State) (tag : TagHead) (close : Char)
      (under : s.phase = .attributes tag close)
      (taken : takeAttributes { s with number := s.number + 1 } settings.tabSize tag (some close)
        line line = .ok t) : Step settings line s t
  | text (block more : TextBlock) (under : s.phase = .text block)
      (joined : block.takes settings.tabSize s.builder.width line = true)
      (taken : block.add settings.tabSize line = .ok more) :
      Step settings line s { s with number := s.number + 1, phase := .text more }
  | remark (under : s.phase = .remark)
      (inside : isBlank line = true ∨ s.builder.width < indentWidth settings.tabSize line) :
      Step settings line s { s with number := s.number + 1 }.breakLine
  | dispatch (u t : State) (before : s.beforeDispatch? settings line = some u)
      (taken : dispatch settings { u with number := u.number + 1 } line = .ok t) :
      Step settings line s t

theorem step_of_takeFirst {settings : Settings} {s t : State} {line : Line}
    (start : s.phase = .start)
    (h : takeFirst settings { s with number := s.number + 1 } line = .ok t) :
    Step settings line s t := by
  unfold takeFirst at h
  split at h
  · next blank =>
    cases h
    exact .blank start blank
  · split at h
    · exact .dispatch s t (by simp [beforeDispatch?, start]) h
    · next value rest found =>
      split at h
      · next clean =>
        cases h
        exact .header value rest start found clean
      · cases h

theorem step_of_feed {settings : Settings} {s t : State} {line : Line}
    (h : s.feed settings line = .ok t) : Step settings line s t := by
  cases before : s.beforeDispatch? settings line with
  | some u =>
    by_cases start : s.phase = .start
    · rw [feed_of_start line start] at h
      exact step_of_takeFirst start h
    · rw [feed_of_beforeDispatch before start] at h
      exact .dispatch u t before h
  | none =>
    obtain ⟨number, builder, gap, phase⟩ := s
    cases phase with
    | start => cases before
    | ready => cases before
    | code owner segments last =>
      cases h
      exact .code owner segments last rfl
    | attributes tag close => exact .attributes t tag close rfl h
    | text block =>
      simp only [beforeDispatch?, feed] at before h
      split at before
      · next joined =>
        rw [if_pos joined] at h
        split at h
        · next more taken =>
          cases h
          exact .text block more rfl joined taken
        · cases h
      · cases before
    | remark =>
      simp only [beforeDispatch?, feed] at before h
      split at before
      · next inside =>
        rw [if_pos inside] at h
        cases h
        exact .remark rfl (by simpa using inside)
      · cases before

end State

variable {settings : Settings} {source : String}

theorem parse_of_ok {b : Builder} (h : readLines settings (linesOf source.toList) = .ok b) :
    parse settings source = .ok b.tree := by
  simp only [parse, readTemplate, h]
  rfl

theorem parse_of_error {halt : Halt}
    (h : readLines settings (linesOf source.toList) = .error halt) :
    parse settings source = .error ⟨halt.fault, settings.shownFile⟩ := by
  simp only [parse, readTemplate, h]
  rfl

theorem error_of_parse {d : Diagnostic} (h : parse settings source = .error d) :
    ∃ halt, readLines settings (linesOf source.toList) = .error halt ∧
      d = ⟨halt.fault, settings.shownFile⟩ := by
  cases read : readLines settings (linesOf source.toList) with
  | error halt =>
    rw [parse_of_error read] at h
    cases h
    exact ⟨halt, rfl, rfl⟩
  | ok b =>
    rw [parse_of_ok read] at h
    cases h

/-- A reading that succeeds has a last state. -/
theorem run_of_readLines {lines : List Line} {b : Builder} (h : readLines settings lines = .ok b) :
    ∃ s, lines.foldlM (State.feed settings) {} = .ok s ∧ s.finish = .ok b := by
  unfold readLines at h
  cases hs : lines.foldlM (State.feed settings) {} with
  | error halt =>
    rw [hs] at h
    cases h
  | ok s =>
    rw [hs] at h
    exact ⟨s, rfl, h⟩

/-- Behind lines that are read, a reading goes on from their last state. -/
theorem readLines_append {above : List Line} {s : State}
    (run : above.foldlM (State.feed settings) {} = .ok s) (below : List Line) :
    readLines settings (above ++ below) = below.foldlM (State.feed settings) s >>= State.finish := by
  rw [readLines, List.foldlM_append, run]
  rfl

/-- The tree of a template is the one that its lines are read to, and so is its log. -/
theorem readLines_of_parse {tree : Node} (h : parse settings source = .ok tree) :
    ∃ b, readLines settings (linesOf source.toList) = .ok b ∧ tree = b.tree ∧
      (readTemplate settings source).log = b.log.reverse := by
  cases hb : readLines settings (linesOf source.toList) with
  | error halt =>
    rw [parse_of_error hb] at h
    cases h
  | ok b =>
    rw [parse_of_ok hb] at h
    cases h
    have log : (readTemplate settings source).log = b.log.reverse := by simp [readTemplate, hb]
    exact ⟨b, rfl, rfl, log⟩

end TemplateMarkup
