import TemplateMarkup.Proofs.Reading.Gap
import TemplateMarkup.Proofs.Reading.Simulation

/-! What a reading adds to its log. Whatever a line is taken for, it dispatches no further line, and
once the space is placed that sets it apart, it places no other. -/
namespace TemplateMarkup
open Builder

/-- Whether an event neither dispatches a line nor places a space. -/
def Event.isQuiet : Event → Bool
  | dispatched .. | placed (.static _) => false
  | _ => true

/-- The second log is the first one with quiet events added; logs are held newest first. -/
inductive Grows (old : List Event) : List Event → Prop
  | refl : Grows old old
  | cons {new : List Event} (grown : Grows old new) (event : Event)
      (quiet : event.isQuiet = true) : Grows old (event :: new)

theorem Grows.trans {old mid new : List Event} (h : Grows old mid) (h' : Grows mid new) :
    Grows old new := by
  induction h' with
  | refl => exact h
  | cons _ event quiet ih => exact ih.cons event quiet

/-- Quiet events dispatch nothing. -/
theorem Grows.dispatches {old new : List Event} (h : Grows old new) :
    new.filterMap Event.dispatched? = old.filterMap Event.dispatched? := by
  induction h with
  | refl => rfl
  | cons _ event quiet ih =>
    cases event with
    | dispatched number width text => cases quiet
    | placed node => exact ih
    | opened owner depth => exact ih
    | closed depth => exact ih

namespace Builder

theorem grows_place (b : Builder) (node : Node) (quiet : (Event.placed node).isQuiet = true) :
    Grows b.log (b.place node).log := by
  rw [log_place]
  exact .cons .refl _ quiet

theorem grows_begin (b : Builder) (owner : Owner) : Grows b.log (b.begin owner).log :=
  .cons .refl _ rfl

theorem grows_placeBreaks (b : Builder) (n : Nat) : Grows b.log (placeBreaks n b).log := by
  induction n generalizing b with
  | zero => exact .refl
  | succ n ih => exact (grows_place b .newline rfl).trans (ih _)

theorem grows_shut (b : Builder) (n : Nat) : Grows b.log (b.shut n).log := by
  refine shut_invariant (P := fun c => Grows b.log c.log) ?_ ?_ .refl n
  · intro c block pending grown
    rw [log_closeAwaiting pending]
    exact grown.cons _ rfl
  · intro c level levels _ top grown
    rw [log_closeLevel top]
    exact grown.cons _ rfl

theorem grows_align {b c : Builder} {width : Nat} {moved : Bool}
    (fit : b.align width = .ok (c, moved)) : Grows b.log c.log := by
  obtain ⟨block, -, -, -, rfl⟩ | ⟨-, rfl, -, -⟩ := align_cases fit
  · exact .refl
  · exact grows_shut b _

theorem Tells.grows {b : Builder} {log : List Event} (tells : b.Tells log) : Grows b.log log := by
  cases tells with
  | whole => exact .refl
  | shut n => exact grows_shut b n

end Builder

namespace State

/-- The log that taking a line leaves, whether or not the line is refused. -/
def logAfter : Except Halt State → List Event
  | .ok s => s.builder.log
  | .error halt => halt.log

variable (s : State)

theorem grows_breakLine : Grows s.builder.log s.breakLine.builder.log :=
  grows_place s.builder .newline rfl

theorem grows_begin_breakLine (owner : Owner) :
    Grows s.builder.log ((s.begin owner).breakLine).builder.log :=
  (grows_begin s.builder owner).trans (grows_breakLine (s.begin owner))

theorem grows_takeCode (owner : CodeOwner) (segments : List (List Char)) (line : Line)
    (cs : List Char) : Grows s.builder.log (s.takeCode owner segments line cs).builder.log := by
  unfold takeCode
  simp only
  split
  · exact .refl
  · exact grows_begin_breakLine { s with gap := owner.leavesGap, phase := .ready } _

theorem grows_takeTail (tab : Nat) (tag : TagHead) (line : Line) (tail : Tail) :
    Grows s.builder.log (s.takeTail tab tag line tail).builder.log := by
  cases tail with
  | output mark cs => exact grows_takeCode s _ _ _ _
  | void =>
    exact (grows_place s.builder (.voidTag tag.name tag.attrs) rfl).trans
      (grows_breakLine (s.place (.voidTag tag.name tag.attrs)))
  | block => exact grows_begin_breakLine s (.tag tag.name tag.attrs)
  | text inline => exact grows_begin s.builder _

theorem grows_takeAttributes (tab : Nat) (tag : TagHead) (close : Option Char) (line : Line)
    (cs : List Char) :
    Grows s.builder.log (logAfter (s.takeAttributes tab tag close line cs)) := by
  unfold takeAttributes
  split
  · exact .refl
  · simp only
    split
    · exact .refl
    · exact grows_breakLine s
    · split
      · exact .refl
      · exact grows_takeTail s _ _ _ _

theorem grows_takeTag (tab : Nat) (name : String) (line : Line) (cs : List Char) :
    Grows s.builder.log (logAfter (s.takeTag tab name line cs)) := by
  obtain ⟨close, inner, -, taken⟩ := takeTag_eq tab name line cs
  rw [taken]
  exact grows_takeAttributes s tab _ close line inner

/-- Behind the space that sets a line apart, the line is taken quietly. -/
theorem grows_takeHead (settings : Settings) (line : Line) (head : Head) :
    Grows (s.spacedFor head).builder.log (logAfter (takeHead settings s line head)) := by
  cases head with
  | control cs => exact grows_takeCode s _ _ _ _
  | output mark cs => exact grows_takeCode s _ _ _ _
  | embedded engine => exact (grows_breakLine s).trans (grows_begin s.breakLine.builder _)
  | comment spaced cs => exact grows_begin s.builder _
  | tag name cs => exact grows_takeTag s.separate _ _ line cs
  | conditional condition => exact grows_begin_breakLine s _
  | remark => exact grows_breakLine s
  | doctype value =>
    exact (grows_place s.builder (.doctype _) rfl).trans (grows_breakLine (s.place (.doctype _)))
  | text glued cs =>
    cases glued with
    | true => exact .refl
    | false => exact .refl
  | unknown rest => exact .refl

theorem grows_settle (block : TextBlock) : Grows s.builder.log (s.settle block).builder.log := by
  unfold settle
  simp only
  split
  · exact grows_placeBreaks _ _
  · exact (grows_place s.builder (.interpolate _) rfl).trans (grows_placeBreaks _ _)

/-- What a line finds that belongs to nothing before it has come about quietly. -/
theorem grows_beforeDispatch {settings : Settings} {s t : State} {line : Line}
    (h : s.beforeDispatch? settings line = some t) : Grows s.builder.log t.builder.log := by
  obtain ⟨-, phase, rfl⟩ | ⟨block, -, -, rfl⟩ := beforeDispatch_cases h
  · exact .refl
  · exact grows_settle s block

/-- So has the end of a template. -/
theorem grows_finish {s : State} {b : Builder} (h : s.finish = .ok b) :
    Grows s.builder.log b.log := by
  obtain ⟨-, rfl⟩ | ⟨block, -, rfl⟩ := finish_cases h
  · exact (tells_closeAll s.builder).grows
  · exact (grows_settle s block).trans (tells_closeAll _).grows

end State

end TemplateMarkup
