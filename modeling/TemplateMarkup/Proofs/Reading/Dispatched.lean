import Mathlib.Data.List.Induction
import TemplateMarkup.Proofs.Reading.Faults
import TemplateMarkup.Proofs.Reading.Quiet

/-! The lines that a reading dispatches. A line is one of them, and then its own head says what it
is, or it is taken quietly; so every dispatch that a log tells of is a moment of the reading. -/
namespace TemplateMarkup
open Builder

namespace State

/-- The line belongs to nothing before it, is filled, no doctype header, and fits the open blocks;
the last state is the one that takes it by its head. -/
inductive Dispatches (settings : Settings) (s : State) (line : Line) : State → Prop
  | intro {t : State} {builder : Builder} {moved : Bool}
      (before : s.beforeDispatch? settings line = some t) (filled : isBlank line = false)
      (plain : s.phase = .start → doctypeHeader? line = none)
      (fit : t.builder.align (indentWidth settings.tabSize line) = .ok (builder, moved)) :
      Dispatches settings s line ({ t with number := t.number + 1 }.fitted settings line builder moved)

variable {settings : Settings} {s t u : State} {line : Line}

theorem feed_of_filled (before : s.beforeDispatch? settings line = some t)
    (filled : isBlank line = false) (plain : s.phase = .start → doctypeHeader? line = none) :
    s.feed settings line = dispatch settings { t with number := t.number + 1 } line := by
  by_cases start : s.phase = .start
  · exact feed_eq_dispatch before filled (plain start)
  · exact feed_of_beforeDispatch before start

theorem Dispatches.feed_eq (h : s.Dispatches settings line u) :
    s.feed settings line = takeHead settings u line (Head.read (trimLeft line)) := by
  obtain @⟨t, builder, moved, before, filled, plain, fit⟩ := h
  rw [feed_of_filled before filled plain]
  exact dispatch_fit (s := { t with number := t.number + 1 }) filled fit

theorem Dispatches.number (h : s.Dispatches settings line u) : u.number = s.number + 1 := by
  obtain ⟨before, -, -, -⟩ := h
  exact congrArg (· + 1) (fills_beforeDispatch before).2.1

theorem Dispatches.filled (h : s.Dispatches settings line u) : trimLeft line ≠ [] := by
  obtain ⟨-, filled, -, -⟩ := h
  rw [Ne, trimLeft_eq_nil_iff, filled]
  exact Bool.false_ne_true

/-- Such a line finds no block that awaits its width. -/
theorem Dispatches.idle (h : s.Dispatches settings line u) : u.builder.awaiting = none := by
  obtain @⟨t, builder, moved, -, -, -, fit⟩ := h
  change builder.awaiting = none
  exact awaiting_align fit

/-- What stood before such a line has come about quietly, and then the line is recorded. -/
theorem Dispatches.log_eq (h : s.Dispatches settings line u) :
    ∃ old, Grows s.builder.log old ∧
      u.builder.log = .dispatched (s.number + 1) (indentWidth settings.tabSize line)
        (trimLeft line) :: old := by
  obtain @⟨t, builder, moved, before, filled, plain, fit⟩ := h
  obtain ⟨-, number, -, -⟩ := fills_beforeDispatch before
  refine ⟨builder.log, (grows_beforeDispatch before).trans (grows_align fit), ?_⟩
  rw [← number]
  rfl

theorem dispatches_spacedFor (s : State) (head : Head) :
    (s.spacedFor head).builder.dispatches = s.builder.dispatches := by
  unfold spacedFor separate
  split
  · split
    · exact dispatches_place _ _
    · rfl
  · rfl

/-- The line is then the one dispatched last, whether or not it is refused by its head. -/
theorem Dispatches.dispatches (h : s.Dispatches settings line u) :
    (logAfter (s.feed settings line)).filterMap Event.dispatched? =
      ⟨s.number + 1, indentWidth settings.tabSize line, trimLeft line⟩ :: s.builder.dispatches := by
  obtain ⟨old, grown, log⟩ := h.log_eq
  have taken := (grows_takeHead u settings line (Head.read (trimLeft line))).dispatches
  have front : u.builder.dispatches =
      ⟨s.number + 1, indentWidth settings.tabSize line, trimLeft line⟩ :: s.builder.dispatches := by
    rw [Builder.dispatches, log, List.filterMap_cons]
    exact congrArg _ grown.dispatches
  rw [h.feed_eq, taken, ← front]
  exact dispatches_spacedFor u _

/-- A line that belongs to what is before it is taken quietly, -/
theorem grows_joined (joined : s.beforeDispatch? settings line = none) :
    Grows s.builder.log (logAfter (s.feed settings line)) := by
  obtain ⟨number, builder, gap, phase⟩ := s
  cases phase with
  | start => cases joined
  | ready => cases joined
  | code owner segments last =>
    exact grows_takeCode ⟨number + 1, builder, gap, _⟩ owner segments line line
  | attributes tag close =>
    exact grows_takeAttributes ⟨number + 1, builder, gap, _⟩ _ tag _ line line
  | text block =>
    simp only [beforeDispatch?, feed] at joined ⊢
    split at joined
    · next inside =>
      rw [if_pos inside]
      split <;> exact .refl
    · cases joined
  | remark =>
    simp only [beforeDispatch?, feed] at joined ⊢
    split at joined
    · next inside =>
      rw [if_pos inside]
      exact grows_place builder .newline rfl
    · cases joined

/-- and so is a blank line or a doctype header that a template opens with. -/
theorem grows_opening (start : s.phase = .start)
    (opening : isBlank line = true ∨ doctypeHeader? line ≠ none) :
    Grows s.builder.log (logAfter (s.feed settings line)) := by
  rw [feed_of_start line start, takeFirst]
  split
  · exact grows_breakLine s
  · next filled =>
    split
    · next none => exact absurd none (opening.resolve_left filled)
    · split
      · exact (grows_place s.builder _ rfl).trans (grows_breakLine (s.place _))
      · exact .refl

/-- A line is dispatched, or it is taken quietly. -/
theorem dispatches_or_grows (settings : Settings) (s : State) (line : Line) :
    (∃ u, s.Dispatches settings line u) ∨ Grows s.builder.log (logAfter (s.feed settings line)) := by
  cases before : s.beforeDispatch? settings line with
  | none => exact .inr (grows_joined before)
  | some t =>
    have quiet := grows_beforeDispatch before
    by_cases opening : s.phase = .start ∧ (isBlank line = true ∨ doctypeHeader? line ≠ none)
    · exact .inr (grows_opening opening.1 opening.2)
    · cases blank : isBlank line with
      | true =>
        have started : s.phase ≠ .start := fun start => opening ⟨start, .inl blank⟩
        rw [feed_of_beforeDispatch before started, dispatch_blank blank]
        exact .inr (quiet.trans (grows_breakLine t))
      | false =>
        have plain : s.phase = .start → doctypeHeader? line = none := by
          intro start
          by_contra found
          exact opening ⟨start, .inr found⟩
        cases fit : t.builder.align (indentWidth settings.tabSize line) with
        | ok result => exact .inl ⟨_, .intro before blank plain fit⟩
        | error misfit =>
          rw [feed_of_filled before blank plain,
            dispatch_misfit (s := { t with number := t.number + 1 }) blank fit]
          exact .inr (quiet.trans (tells_align_error fit).grows)

/-- So the log tells of no dispatch but those before the line and perhaps its own. -/
theorem dispatches_feed {d : Dispatched}
    (told : d ∈ (logAfter (s.feed settings line)).filterMap Event.dispatched?) :
    d ∈ s.builder.dispatches ∨
      d = ⟨s.number + 1, indentWidth settings.tabSize line, trimLeft line⟩ ∧
        ∃ u, s.Dispatches settings line u := by
  obtain ⟨u, dispatched⟩ | quiet := dispatches_or_grows settings s line
  · rw [dispatched.dispatches] at told
    obtain last | older := List.mem_cons.1 told
    · exact .inr ⟨last, u, dispatched⟩
    · exact .inl older
  · rw [quiet.dispatches] at told
    exact .inl told

/-- The last line of a reading is taken by the state that the lines before it lead to. -/
theorem foldlM_concat {lines : List Line} (h : (lines ++ [line]).foldlM (feed settings) s = .ok t) :
    ∃ u, lines.foldlM (feed settings) s = .ok u ∧ u.feed settings line = .ok t := by
  rw [List.foldlM_append] at h
  cases hu : lines.foldlM (feed settings) s with
  | error halt =>
    rw [hu] at h
    cases h
  | ok u =>
    rw [hu] at h
    change (u.feed settings line >>= pure) = .ok t at h
    rw [bind_pure] at h
    exact ⟨u, rfl, h⟩

/-- What a log tells of was dispatched at some moment. -/
theorem dispatches_foldlM {lines : List Line} (ht : lines.foldlM (feed settings) {} = .ok t)
    {d : Dispatched} (told : d ∈ t.builder.dispatches) :
    ∃ before line after s u, lines = before ++ line :: after ∧
      d = ⟨before.length + 1, indentWidth settings.tabSize line, trimLeft line⟩ ∧
      before.foldlM (feed settings) {} = .ok s ∧ s.Dispatches settings line u := by
  induction lines using List.reverseRecOn generalizing t with
  | nil =>
    cases ht
    cases told
  | append_singleton lines line ih =>
    obtain ⟨s, hs, hline⟩ := foldlM_concat ht
    have fed : d ∈ (logAfter (s.feed settings line)).filterMap Event.dispatched? := by
      rw [hline]
      exact told
    obtain older | ⟨last, u, here⟩ := dispatches_feed fed
    · obtain ⟨before, other, after, r, v, split, rest⟩ := ih hs older
      refine ⟨before, other, after ++ [line], r, v, ?_, rest⟩
      rw [split]
      simp
    · have count : s.number = lines.length := by simpa using number_foldlM steady_start hs
      exact ⟨lines, line, [], s, u, rfl, count ▸ last, hs, here⟩

end State

variable {settings : Settings} {source : String}

/-- However a reading ends, what its log tells of was dispatched at some moment. -/
theorem dispatches_readTemplate {d : Dispatched}
    (told : d ∈ (readTemplate settings source).log.filterMap Event.dispatched?) :
    ∃ before line after s u, linesOf source.toList = before ++ line :: after ∧
      d = ⟨before.length + 1, indentWidth settings.tabSize line, trimLeft line⟩ ∧
      before.foldlM (State.feed settings) {} = .ok s ∧ s.Dispatches settings line u := by
  unfold readTemplate at told
  cases read : readLines settings (linesOf source.toList) with
  | ok b =>
    obtain ⟨s, hs, hb⟩ := run_of_readLines read
    simp only [read, List.filterMap_reverse, List.mem_reverse] at told
    rw [(State.grows_finish hb).dispatches] at told
    exact State.dispatches_foldlM hs told
  | error halt =>
    simp only [read, List.filterMap_reverse, List.mem_reverse] at told
    cases failedRead_of_readLines read with
    | refused before line after s split hs failed _ =>
      have fed : d ∈ (State.logAfter (s.feed settings line)).filterMap Event.dispatched? := by
        rw [failed]
        exact told
      obtain older | ⟨last, u, here⟩ := State.dispatches_feed fed
      · obtain ⟨front, other, back, r, v, same, rest⟩ := State.dispatches_foldlM hs older
        refine ⟨front, other, back ++ line :: after, r, v, ?_, rest⟩
        rw [split, same]
        simp
      · have count : s.number = before.length := by
          simpa using State.number_foldlM State.steady_start hs
        exact ⟨before, line, after, s, u, split, count ▸ last, hs, here⟩
    | unfinished s hs failed =>
      rw [State.log_finish_error failed] at told
      exact State.dispatches_foldlM hs told

/-- A line whose dispatch is told of was dispatched behind the lines before it. -/
theorem dispatches_of_told {before after : List Line} {width : Nat} {text : List Char}
    (split : linesOf source.toList = before ++ after)
    (told : .dispatched (before.length + 1) width text ∈ (readTemplate settings source).log) :
    ∃ line rest s u, after = line :: rest ∧ width = indentWidth settings.tabSize line ∧
      text = trimLeft line ∧ before.foldlM (State.feed settings) {} = .ok s ∧
      s.Dispatches settings line u := by
  have mem : ⟨before.length + 1, width, text⟩ ∈
      (readTemplate settings source).log.filterMap Event.dispatched? :=
    List.mem_filterMap.2 ⟨_, told, rfl⟩
  obtain ⟨front, line, rest, s, u, same, last, hs, here⟩ := dispatches_readTemplate mem
  obtain ⟨number, rfl, rfl⟩ := Dispatched.mk.inj last
  obtain ⟨rfl, rfl⟩ := List.append_inj (same.symm.trans split) (Nat.succ.inj number).symm
  exact ⟨line, rest, s, u, rfl, rfl, rfl, hs, here⟩

end TemplateMarkup
