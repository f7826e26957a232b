import TemplateMarkup.Proofs.Reading.Dispatched

/-! The separating space. A tag or a text is set apart from what stands before it just if the line
that was dispatched last has the same width and leaves a gap, and nothing else places a space. -/
namespace TemplateMarkup
open Builder

/-- Whether a line is a tag or a text. -/
def Head.isInline : Head → Bool
  | tag .. | text .. => true
  | _ => false

theorem Head.isSpaced_ofAngle (cs : List Char) : (ofAngle cs).isSpaced = (ofAngle cs).isInline := by
  unfold ofAngle
  split
  · rfl
  · split
    · rfl
    · rfl
    · split
      · rfl
      · split <;> rfl
    · rfl

theorem Head.isSpaced_ofHash (cs : List Char) : (ofHash cs).isSpaced = (ofHash cs).isInline := by
  unfold ofHash
  split
  · rfl
  · split <;> rfl

/-- A text is glued just if it starts with a marker. -/
theorem Head.isSpaced_read (cs : List Char) :
    (read cs).isSpaced = true ↔ (read cs).isInline = true ∧ cs.head? ≠ some '>' := by
  unfold read
  split
  · simp [isSpaced, isInline]
  · simp [isSpaced, isInline]
  · simp [isSpaced_ofAngle]
  · simp [isSpaced_ofHash]
  · simp [isSpaced]
  · next other =>
    have unmarked : cs.head? ≠ some '>' := by
      intro marked
      obtain ⟨rest, rfl⟩ := List.head?_eq_some_iff.1 marked
      exact other rest rfl
    split
    · simp [isSpaced, isInline]
    · simpa [isSpaced, isInline] using unmarked

/-- Whether the line dispatched last in a log, newest first, has some width and leaves a gap. -/
def GapBefore (lines : List Line) (log : List Event) (width : Nat) : Prop :=
  ∃ d, (log.filterMap Event.dispatched?).head? = some d ∧ d.width = width ∧
    (Head.read d.text).leavesGap (lines.drop d.number) = true

/-- Whether a line of some width and text is to be set apart from what a log tells. -/
def Due (lines : List Line) (log : List Event) (width : Nat) (text : List Char) : Prop :=
  (Head.read text).isSpaced = true ∧ GapBefore lines log width

/-- A log, newest first, in which every space stands right behind a line that is to be set apart,
and every such line has its space. -/
structure Ruled (lines : List Line) (log : List Event) : Prop where
  placed : ∀ space older, .placed (.static space) :: older <:+ log → space = " " ∧
    ∃ number width text rest, older = .dispatched number width text :: rest ∧
      Due lines rest width text
  given : ∀ number width text rest, .dispatched number width text :: rest <:+ log →
    Due lines rest width text →
    .placed (.static " ") :: .dispatched number width text :: rest <:+ log

namespace Ruled

variable {lines : List Line} {log new : List Event}

theorem grow (ruled : Ruled lines log) (grown : Grows log new) : Ruled lines new := by
  induction grown with
  | refl => exact ruled
  | cons _ event quiet ih =>
    refine ⟨?_, ?_⟩
    · intro space older suffix
      rw [List.suffix_cons_iff] at suffix
      obtain heq | suffix := suffix
      · obtain ⟨rfl, -⟩ := List.cons.inj heq
        cases quiet
      · exact ih.placed space older suffix
    · intro number width text rest suffix due
      rw [List.suffix_cons_iff] at suffix
      obtain heq | suffix := suffix
      · obtain ⟨rfl, -⟩ := List.cons.inj heq
        cases quiet
      · exact (ih.given number width text rest suffix due).trans (List.suffix_cons _ _)

/-- A line that is dispatched and not to be set apart. -/
theorem dispatch (ruled : Ruled lines log) (number : Nat) {width : Nat} {text : List Char}
    (plain : ¬ Due lines log width text) : Ruled lines (.dispatched number width text :: log) := by
  refine ⟨?_, ?_⟩
  · intro space older suffix
    rw [List.suffix_cons_iff] at suffix
    obtain heq | suffix := suffix
    · cases heq
    · exact ruled.placed space older suffix
  · intro n w cs rest suffix due
    rw [List.suffix_cons_iff] at suffix
    obtain heq | suffix := suffix
    · cases heq
      exact absurd due plain
    · exact (ruled.given n w cs rest suffix due).trans (List.suffix_cons _ _)

/-- A line that is set apart. -/
theorem space (ruled : Ruled lines log) (number : Nat) {width : Nat} {text : List Char}
    (due : Due lines log width text) :
    Ruled lines (.placed (.static " ") :: .dispatched number width text :: log) := by
  refine ⟨?_, ?_⟩
  · intro space older suffix
    rw [List.suffix_cons_iff, List.suffix_cons_iff] at suffix
    obtain heq | heq | suffix := suffix
    · cases heq
      exact ⟨rfl, number, width, text, log, rfl, due⟩
    · cases heq
    · exact ruled.placed space older suffix
  · intro n w cs rest suffix due'
    rw [List.suffix_cons_iff, List.suffix_cons_iff] at suffix
    obtain heq | heq | suffix := suffix
    · cases heq
    · exact heq ▸ List.suffix_rfl
    · have kept := ruled.given n w cs rest suffix due'
      exact kept.trans ((List.suffix_cons _ _).trans (List.suffix_cons _ _))

end Ruled

namespace State

variable {settings : Settings} {lines more : List Line} {line : Line} {s : State}

/-- The innermost block is another one just if the width has changed. -/
theorem moved_align {b c : Builder} {width : Nat} {moved : Bool}
    (fit : b.align width = .ok (c, moved)) : moved = false ↔ b.width = width := by
  obtain ⟨block, deeper, -, rfl, -⟩ | ⟨level, -, -, rfl⟩ := align_cases fit
  · simp only [Bool.true_eq_false, false_iff]
    omega
  · rw [decide_eq_false_iff_not]
    omega

/-- The gap that a line finds is left by the line dispatched last, if their widths agree. -/
theorem gap_fitted (width : s.builder.width = widthLeft s.builder.dispatches.head?)
    (gap : s.gap = gapLeft lines s.builder.dispatches.head?) {c : Builder} {moved : Bool}
    (fit : s.builder.align (indentWidth settings.tabSize line) = .ok (c, moved)) :
    (s.gap && !moved) = true ↔ GapBefore lines c.log (indentWidth settings.tabSize line) := by
  have same := (grows_align fit).dispatches
  rw [Bool.and_eq_true, Bool.not_eq_true', moved_align fit, width, gap]
  unfold GapBefore
  rw [same]
  change _ ↔ ∃ d, s.builder.dispatches.head? = some d ∧ _
  cases s.builder.dispatches.head? with
  | none => simp [gapLeft]
  | some d => simp [gapLeft, widthLeft, and_comm]

/-- A line that is dispatched keeps the rule, whether or not it is refused, -/
theorem ruled_dispatches (ruled : Ruled lines s.builder.log) (traced : Traced lines (line :: more) s)
    {t : State} (here : s.Dispatches settings line t) :
    Ruled lines (logAfter (s.feed settings line)) := by
  rw [here.feed_eq]
  refine Ruled.grow ?_ (grows_takeHead t settings line _)
  obtain @⟨u, builder, moved, before, -, -, fit⟩ := here
  obtain ⟨fills, -, same, complete⟩ := fills_beforeDispatch before
  have width : u.builder.width = widthLeft u.builder.dispatches.head? := by
    rw [width_fills fills, dispatches_fills fills, traced.width]
  have gap : u.gap = gapLeft lines u.builder.dispatches.head? := by
    rw [same, dispatches_fills fills, ← traced.gap, gapAfter_of_not_midway complete]
  have fitted := (ruled.grow (grows_beforeDispatch before)).grow (grows_align fit)
  have found := gap_fitted width gap fit
  unfold spacedFor separate
  split
  · next spaced =>
    split
    · next open_ =>
      rw [builder_place, log_place]
      exact fitted.space (u.number + 1) ⟨spaced, found.1 open_⟩
    · next shut => exact fitted.dispatch (u.number + 1) fun due => shut (found.2 due.2)
  · next glued => exact fitted.dispatch (u.number + 1) fun due => glued due.1

/-- and so does any other. -/
theorem ruled_feed (settings : Settings) (ruled : Ruled lines s.builder.log)
    (traced : Traced lines (line :: more) s) :
    Ruled lines (logAfter (s.feed settings line)) := by
  obtain ⟨t, here⟩ | quiet := dispatches_or_grows settings s line
  · exact ruled_dispatches ruled traced here
  · exact ruled.grow quiet

theorem ruled_start (lines : List Line) : Ruled lines [] := ⟨by simp, by simp⟩

/-- At every moment of a reading the log keeps the rule. -/
theorem ruled_foldlM (before more : List Line) {t : State}
    (ht : before.foldlM (feed settings) {} = .ok t) : Ruled (before ++ more) t.builder.log := by
  induction before using List.reverseRecOn generalizing more t with
  | nil =>
    cases ht
    exact ruled_start _
  | append_singleton before line ih =>
    obtain ⟨s, hs, fed⟩ := foldlM_concat ht
    have ruled := ruled_feed settings (ih (line :: more) hs) (traced_foldlM _ hs)
    rw [fed] at ruled
    rw [List.append_assoc]
    exact ruled

end State

/-- However a reading ends, its log keeps the rule. -/
theorem ruled_readTemplate (settings : Settings) (source : String) :
    Ruled (linesOf source.toList) (readTemplate settings source).log.reverse := by
  unfold readTemplate
  cases read : readLines settings (linesOf source.toList) with
  | ok b =>
    obtain ⟨s, hs, hb⟩ := run_of_readLines read
    have ruled := State.ruled_foldlM _ [] hs
    rw [List.append_nil] at ruled
    simpa using ruled.grow (State.grows_finish hb)
  | error halt =>
    rw [List.reverse_reverse]
    cases failedRead_of_readLines read with
    | refused before line after s split hs failed _ =>
      have fed := State.ruled_feed settings (State.ruled_foldlM before (line :: after) hs)
        (State.traced_foldlM _ hs)
      rw [failed, ← split] at fed
      exact fed
    | unfinished s hs failed =>
      have ruled := State.ruled_foldlM _ [] hs
      rw [List.append_nil] at ruled
      rw [State.log_finish_error failed]
      exact ruled

/-- The separating space. Behind the dispatch of a line its space is placed at once just if the line
is a tag or a text that starts with no marker, and the line dispatched last before it has the same
width and was a text, a tag with text behind its attributes, or an output without an apostrophe,
its own or in a tag. Nothing else that is placed is a space. -/
theorem space_placed_iff (settings : Settings) (source : String) :
    (∀ (before : List Event) (number width : Nat) (text : List Char) (after : List Event),
      (readTemplate settings source).log = before ++ .dispatched number width text :: after →
      (after.head? = some (.placed (.static " ")) ↔
        (Head.read text).isInline = true ∧ text.head? ≠ some '>' ∧
        ∃ d, (before.filterMap Event.dispatched?).getLast? = some d ∧ d.width = width ∧
          (Head.read d.text).leavesGap ((linesOf source.toList).drop d.number) = true)) ∧
    ∀ (before : List Event) (space : String) (after : List Event),
      (readTemplate settings source).log = before ++ .placed (.static space) :: after →
      space = " " ∧ ∃ number width text, before.getLast? = some (.dispatched number width text) ∧
        (Head.read text).isInline = true := by
  have ruled := ruled_readTemplate settings source
  have newest {before after : List Event} {event : Event}
      (hlog : (readTemplate settings source).log = before ++ event :: after) :
      (readTemplate settings source).log.reverse = after.reverse ++ event :: before.reverse := by
    rw [hlog]
    simp
  constructor
  · intro before number width text after hlog
    have due : Due (linesOf source.toList) before.reverse width text ↔
        (Head.read text).isInline = true ∧ text.head? ≠ some '>' ∧
        ∃ d, (before.filterMap Event.dispatched?).getLast? = some d ∧ d.width = width ∧
          (Head.read d.text).leavesGap ((linesOf source.toList).drop d.number) = true := by
      rw [Due, Head.isSpaced_read, GapBefore, List.filterMap_reverse, List.head?_reverse, and_assoc]
    rw [← due]
    constructor
    · intro first
      obtain ⟨rest, rfl⟩ := List.head?_eq_some_iff.1 first
      have suffix : .placed (.static " ") :: .dispatched number width text :: before.reverse <:+
          (readTemplate settings source).log.reverse := by
        refine ⟨rest.reverse, ?_⟩
        rw [newest hlog]
        simp
      obtain ⟨-, n, w, cs, older, same, due⟩ := ruled.placed _ _ suffix
      cases same
      exact due
    · intro due
      have suffix : .dispatched number width text :: before.reverse <:+
          (readTemplate settings source).log.reverse :=
        ⟨after.reverse, (newest hlog).symm⟩
      obtain ⟨rest, hrest⟩ := ruled.given _ _ _ _ suffix due
      -- The event behind the dispatch is told by the length of what is before it.
      rw [newest hlog, List.append_cons] at hrest
      have front := List.append_cancel_right hrest
      have last : after.reverse.getLast? = some (.placed (.static " ")) := by
        rw [← front, List.getLast?_concat]
      rwa [List.getLast?_reverse] at last
  · intro before space after hlog
    obtain ⟨rfl, number, width, text, older, same, due⟩ :=
      ruled.placed space before.reverse ⟨after.reverse, (newest hlog).symm⟩
    refine ⟨rfl, number, width, text, ?_, ((Head.isSpaced_read text).1 due.1).1⟩
    rw [← List.head?_reverse, same]
    rfl

/-- A tag is set apart from an output; a marker keeps a text from being set apart from the tag. -/
theorem space_placed_iff_output :
    (∃ older newer : List Event, (readTemplate {} "= x\n<i>y\n> z").log =
      older ++ .dispatched 2 0 "<i>y".toList :: newer ∧
      newer.head? = some (.placed (.static " "))) ∧
    (∃ older newer : List Event, (readTemplate {} "= x\n<i>y\n> z").log =
      older ++ .dispatched 3 0 "> z".toList :: newer ∧
      newer.head? ≠ some (.placed (.static " "))) ∧
    (Head.read "<i>y".toList).isInline = true := by
  let front : List Event :=
    [.dispatched 1 0 "= x".toList, .opened (.output true "x") 2, .placed .newline, .closed 1]
  let line : List Event := [.dispatched 2 0 "<i>y".toList]
  let tag : List Event :=
    [.opened (.tag "i" []) 2, .placed (.interpolate "y"), .placed .newline, .closed 1]
  let back : List Event := [.placed (.interpolate " z"), .placed .newline]
  have log : (readTemplate {} "= x\n<i>y\n> z").log = front ++ line ++
      .placed (.static " ") :: tag ++ .dispatched 3 0 "> z".toList :: back := by
    with_unfolding_all rfl
  have output := log.trans (show _ = front ++ .dispatched 2 0 "<i>y".toList ::
    (.placed (.static " ") :: (tag ++ .dispatched 3 0 "> z".toList :: back)) from rfl)
  have space := log.trans (show _ = front ++ line ++ .placed (.static " ") ::
    (tag ++ .dispatched 3 0 "> z".toList :: back) from rfl)
  have main := space_placed_iff {} "= x\n<i>y\n> z"
  refine ⟨⟨_, _, output, ?_⟩, ⟨_, _, log, ?_⟩, ?_⟩
  · exact (main.1 _ _ _ _ _ output).2 ⟨rfl, by decide, ⟨1, 0, "= x".toList⟩, rfl, rfl, rfl⟩
  · intro spaced
    exact ((main.1 _ _ _ _ _ log).1 spaced).2.1 rfl
  · obtain ⟨-, number, width, text, last, inline⟩ := main.2 _ _ _ space
    obtain ⟨-, -, rfl⟩ := Event.dispatched.inj (Option.some.inj last)
    exact inline

end TemplateMarkup
