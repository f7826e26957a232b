import TemplateMarkup.Proofs.Reading.Moves

/-! Where a space is due. Whether the next line is set apart is told by the last line that was
dispatched, and by the lines its attribute list goes on over if it is a tag with one. -/
namespace TemplateMarkup
open Builder

/-- A line that belonged to nothing before it, as the log tells of it. -/
structure Dispatched where
  number : Nat
  width : Nat
  text : List Char

def Event.dispatched? : Event → Option Dispatched
  | .dispatched number width text => some ⟨number, width, text⟩
  | _ => none

/-- Whether what a tag's line ends with is set apart from what follows. -/
def Tail.leavesGap : Tail → Bool
  | .text _ => true
  | .output mark _ => mark.spaced
  | .void | .block => false

/-- What follows an attribute list that may go on over the lines below. -/
def tailAfter? (close : Option Char) (cs : List Char) (below : List Line) : Option Tail :=
  match readAttributes close cs with
  | .error _ => none
  | .ok (_, rest) =>
    match readListEnd close rest with
    | .error _ => none
    | .ok (.closed angle rest) => (Tail.read angle rest).toOption
    | .ok (.continued bracket) =>
      match below with
      | [] => none
      | line :: below => tailAfter? (some bracket) line below
termination_by structural below

/-- What follows the attributes of a tag, from the end of its name. -/
def tagTail? (cs : List Char) (below : List Line) : Option Tail :=
  match (readShortcuts cs).2 with
  | [] => tailAfter? none [] below
  | c :: inner =>
    match closingBracket c with
    | some bracket => tailAfter? (some bracket) inner below
    | none => tailAfter? none (c :: inner) below

/-- Whether a line of some kind, with the lines below it, is set apart from what follows. -/
def Head.leavesGap (below : List Line) : Head → Bool
  | .text .. => true
  | .output mark _ => mark.spaced
  | .tag _ cs => (tagTail? cs below).any Tail.leavesGap
  | _ => false

/-- Whether the last line that was dispatched is set apart from what follows. -/
def gapLeft (lines : List Line) : Option Dispatched → Bool
  | none => false
  | some d => (Head.read d.text).leavesGap (lines.drop d.number)

/-- The width of the last line that was dispatched. -/
def widthLeft : Option Dispatched → Nat
  | none => 0
  | some d => d.width

namespace Builder

/-- The lines that were dispatched, newest first. -/
def dispatches (b : Builder) : List Dispatched := b.log.filterMap Event.dispatched?

@[simp] theorem dispatches_place (b : Builder) (node : Node) :
    (b.place node).dispatches = b.dispatches := by
  rw [dispatches, log_place]
  rfl

@[simp] theorem dispatches_begin (b : Builder) (owner : Owner) :
    (b.begin owner).dispatches = b.dispatches := rfl

theorem dispatches_finish (b : Builder) (block : Block) :
    (b.finish block).dispatches = b.dispatches := by
  rw [dispatches, log_finish]
  rfl

@[simp] theorem dispatches_closeAwaiting (b : Builder) :
    b.closeAwaiting.dispatches = b.dispatches := by
  unfold closeAwaiting
  split
  · rfl
  · exact dispatches_finish _ _

@[simp] theorem dispatches_closeLevels (b : Builder) (n : Nat) :
    (closeLevels n b).dispatches = b.dispatches := by
  induction n generalizing b with
  | zero => rfl
  | succ n ih =>
    rw [closeLevels, ih, closeLevel]
    split
    · rfl
    · exact dispatches_finish _ _

theorem dispatches_closeAll (b : Builder) : b.closeAll.dispatches = b.dispatches := by
  rw [closeAll, dispatches_closeLevels, dispatches_closeAwaiting]

theorem dispatches_fills {b c : Builder} (h : Fills b c) : c.dispatches = b.dispatches := by
  induction h with
  | refl => rfl
  | tail _ fill ih =>
    cases fill with
    | place node leaf => rw [dispatches_place, ih]
    | begin owner idle => rw [dispatches_begin, ih]

end Builder

namespace State

/-- The gap that a reading will find once the construct under way is complete. -/
def gapAfter (below : List Line) (s : State) : Bool :=
  match s.phase, below with
  | .code owner _ _, _ => owner.leavesGap
  | .attributes _ close, line :: below => (tailAfter? (some close) line below).any Tail.leavesGap
  | .attributes _ _, [] => false
  | _, _ => s.gap

theorem gapAfter_of_not_midway {s : State} (complete : s.phase.isMidway = false)
    (below : List Line) : s.gapAfter below = s.gap := by
  unfold gapAfter
  cases h : s.phase <;> simp_all [Phase.isMidway]

theorem gapAfter_takeCode (s : State) (owner : CodeOwner) (segments : List (List Char)) (line : Line)
    (cs : List Char) (below : List Line) :
    (s.takeCode owner segments line cs).gapAfter below = owner.leavesGap := by
  unfold takeCode
  simp only
  split <;> rfl

theorem gapAfter_takeTail (s : State) (tab : Nat) (tag : TagHead) (line : Line) (tail : Tail)
    (below : List Line) : (s.takeTail tab tag line tail).gapAfter below = tail.leavesGap := by
  cases tail with
  | output mark cs => exact gapAfter_takeCode s _ _ _ _ _
  | void => rfl
  | block => rfl
  | text inline => rfl

theorem gapAfter_takeAttributes {s t : State} {tab : Nat} {tag : TagHead} {close : Option Char}
    {line : Line} {cs : List Char} (ht : s.takeAttributes tab tag close line cs = .ok t)
    (below : List Line) :
    t.gapAfter below = (tailAfter? close cs below).any Tail.leavesGap := by
  obtain ⟨attrs, rest, hattrs, taken⟩ := takeAttributes_cases ht
  unfold tailAfter?
  obtain ⟨bracket, hend, rfl⟩ | ⟨angle, behind, tail, hend, htail, rfl⟩ := taken
  · simp only [hattrs, hend]
    cases below <;> rfl
  · simp only [hattrs, hend, htail]
    exact gapAfter_takeTail s tab _ line tail below

theorem gapAfter_takeTag {s t : State} {tab : Nat} {name : String} {line : Line} {cs : List Char}
    (ht : s.takeTag tab name line cs = .ok t) (below : List Line) :
    t.gapAfter below = (tagTail? cs below).any Tail.leavesGap := by
  unfold takeTag at ht
  unfold tagTail?
  cases h : (readShortcuts cs).2 with
  | nil =>
    simp only [h] at ht ⊢
    exact gapAfter_takeAttributes ht below
  | cons c inner =>
    cases hb : closingBracket c with
    | some bracket =>
      simp only [h, hb] at ht ⊢
      exact gapAfter_takeAttributes ht below
    | none =>
      simp only [h, hb] at ht ⊢
      exact gapAfter_takeAttributes ht below

/-- The gap behind a line is told by the line and, for an attribute list, by those below. -/
theorem gapAfter_takeHead {settings : Settings} {s t : State} {line : Line} {head : Head}
    (ht : takeHead settings s line head = .ok t) (below : List Line) :
    t.gapAfter below = head.leavesGap below := by
  cases head with
  | control cs =>
    cases ht
    exact gapAfter_takeCode s _ _ _ _ _
  | output mark cs =>
    cases ht
    exact gapAfter_takeCode s _ _ _ _ _
  | tag name cs => exact gapAfter_takeTag ht below
  | unknown rest => cases ht
  | embedded engine => cases ht; rfl
  | comment spaced cs => cases ht; rfl
  | conditional condition => cases ht; rfl
  | remark => cases ht; rfl
  | doctype value => cases ht; rfl
  | text glued cs => cases ht; rfl

/-- The state agrees with the last line that was dispatched; `more` are the lines still to come. -/
structure Traced (lines more : List Line) (s : State) : Prop where
  rest : lines.drop s.number = more
  width : s.builder.width = widthLeft s.builder.dispatches.head?
  gap : s.gapAfter more = gapLeft lines s.builder.dispatches.head?

variable {lines more : List Line} {s t : State}

/-- A line that only fills the innermost block is not dispatched. -/
theorem Traced.of_fills {line : Line} (h : Traced lines (line :: more) s)
    (number : t.number = s.number + 1) (fills : Fills s.builder t.builder)
    (gap : t.gapAfter more = s.gapAfter (line :: more)) : Traced lines more t := by
  refine ⟨?_, ?_, ?_⟩
  · rw [number, ← List.drop_drop, h.rest, List.drop_one, List.tail_cons]
  · rw [width_fills fills, dispatches_fills fills, h.width]
  · rw [gap, dispatches_fills fills, h.gap]

theorem traced_dispatch {settings : Settings} {line : Line} (rest : lines.drop s.number = more)
    (width : s.builder.width = widthLeft s.builder.dispatches.head?)
    (gap : s.gap = gapLeft lines s.builder.dispatches.head?)
    (ht : s.dispatch settings line = .ok t) : Traced lines more t := by
  obtain ⟨-, rfl⟩ | ⟨builder, moved, -, fit, taken⟩ := dispatch_cases ht
  · refine ⟨rest, ?_, ?_⟩
    · simpa using width
    · change s.gap = gapLeft lines (s.builder.place .newline).dispatches.head?
      rw [dispatches_place, gap]
  · have idle : builder.awaiting = none := awaiting_align fit
    have outcome := outcome_takeHead (s := s.fitted settings line builder moved) idle settings line
      (Head.read (trimLeft line))
    rw [taken] at outcome
    cases outcome with
    | ok fills number steady =>
      have last : t.builder.dispatches.head? =
          some ⟨s.number, indentWidth settings.tabSize line, trimLeft line⟩ := by
        rw [dispatches_fills fills]
        rfl
      refine ⟨?_, ?_, ?_⟩
      · rw [number]
        exact rest
      · rw [last, width_fills fills]
        change builder.width = indentWidth settings.tabSize line
        exact width_align fit
      · rw [last, gapAfter_takeHead taken]
        exact congrArg (Head.leavesGap · _) rest.symm

/-- Whatever a line is for, the state goes on to agree with the last line that was dispatched. -/
theorem traced_step {settings : Settings} {line : Line} (steady : s.Steady)
    (h : Traced lines (line :: more) s) (step : Step settings line s t) : Traced lines more t := by
  cases step with
  | blank start _ =>
    refine h.of_fills rfl (.single (.place _ _ .newline)) ?_
    simp [gapAfter, breakLine, place, start]
  | header value rest start _ _ =>
    refine h.of_fills rfl (fills_place_breakLine s.builder (.doctype _)) ?_
    simp [gapAfter, breakLine, place, start]
  | code owner segments last under =>
    have idle := steady (by rw [under]; rfl)
    have outcome := outcome_takeCode (s := { s with number := s.number + 1 }) idle owner segments
      line line
    cases outcome with
    | ok fills number _ =>
      refine h.of_fills number fills ?_
      rw [gapAfter_takeCode]
      simp [gapAfter, under]
  | attributes t tag close under taken =>
    have idle := steady (by rw [under]; rfl)
    have outcome := outcome_takeAttributes (s := { s with number := s.number + 1 }) idle
      settings.tabSize tag (some close) line line
    rw [taken] at outcome
    cases outcome with
    | ok fills number _ =>
      refine h.of_fills number fills ?_
      rw [gapAfter_takeAttributes taken]
      simp [gapAfter, under]
  | text block more under _ _ =>
    refine h.of_fills rfl .refl ?_
    simp [gapAfter, under]
  | remark under _ =>
    refine h.of_fills rfl (.single (.place _ _ .newline)) ?_
    simp [gapAfter, breakLine, place, under]
  | dispatch u t before taken =>
    obtain ⟨fills, number, same, complete⟩ := fills_beforeDispatch before
    refine traced_dispatch ?_ ?_ ?_ taken
    · change lines.drop (u.number + 1) = more
      rw [number, ← List.drop_drop, h.rest, List.drop_one, List.tail_cons]
    · change u.builder.width = widthLeft u.builder.dispatches.head?
      rw [width_fills fills, dispatches_fills fills, h.width]
    · change u.gap = gapLeft lines u.builder.dispatches.head?
      rw [same, dispatches_fills fills, ← h.gap, gapAfter_of_not_midway complete]

theorem traced_start (lines : List Line) : Traced lines lines {} := ⟨rfl, rfl, rfl⟩

/-- At every moment of a reading the last line that was dispatched tells whether a space is due. -/
theorem traced_foldlM {settings : Settings} {before : List Line} (more : List Line)
    (ht : before.foldlM (feed settings) {} = .ok t) : Traced (before ++ more) more t :=
  run_induction traced_step steady_start (traced_start _) ht

end State

end TemplateMarkup
