import TemplateMarkup.Proofs.Builder.Renamed
import TemplateMarkup.Proofs.Reading.Dispatch
import TemplateMarkup.Proofs.WellFormed.Line

/-! A reading with another name for the tags that state none. It comes to the same with the tags
renamed, by a function that leaves alone all names that a line can state. -/
namespace TemplateMarkup
open Builder

/-- The names that a line can state start with a word character. -/
def KeepsWritten (f : String → String) : Prop :=
  ∀ c cs, isWord c = true → f (String.ofList (c :: cs)) = String.ofList (c :: cs)

def CodeOwner.rename (f : String → String) : CodeOwner → CodeOwner
  | control => control
  | output mark => output mark
  | tag name attrs mark => tag (f name) attrs mark

def TagHead.rename (f : String → String) (tag : TagHead) : TagHead :=
  { tag with name := f tag.name }

def Phase.rename (f : String → String) : Phase → Phase
  | code owner segments last => code (owner.rename f) segments last
  | attributes tag close => attributes (tag.rename f) close
  | phase => phase

def State.rename (f : String → String) (s : State) : State :=
  ⟨s.number, s.builder.rename f, s.gap, s.phase.rename f⟩

def Halt.rename (f : String → String) (halt : Halt) : Halt :=
  ⟨halt.fault, halt.log.map (Event.rename f)⟩

/-- A result with other names for the tags in it. -/
def renamed {α : Type} (g : α → α) (f : String → String) (x : Except Halt α) : Except Halt α :=
  (x.map g).mapError (Halt.rename f)

variable {f : String → String}

theorem renamed_bind {α β : Type} {g : α → α} {g' : β → β} (x : Except Halt α)
    {k k' : α → Except Halt β} (next : ∀ a, k' (g a) = renamed g' f (k a)) :
    renamed g f x >>= k' = renamed g' f (x >>= k) := by
  cases x with
  | error halt => rfl
  | ok a => exact next a

theorem CodeOwner.rename_withCode (owner : CodeOwner) (code : String) :
    (owner.rename f).withCode code = (owner.withCode code).rename f := by
  cases owner <;> rfl

theorem CodeOwner.leavesGap_rename (owner : CodeOwner) :
    (owner.rename f).leavesGap = owner.leavesGap := by
  cases owner <;> rfl

namespace State

variable (s : State)

theorem rename_place (node : Node) : (s.place node).rename f = (s.rename f).place (node.rename f) := by
  simp only [place, rename, Builder.rename_place]

theorem rename_breakLine : s.breakLine.rename f = (s.rename f).breakLine := rename_place s .newline

theorem rename_begin (owner : Owner) :
    (s.begin owner).rename f = (s.rename f).begin (owner.rename f) := by
  simp only [begin, rename, Builder.rename_begin]

theorem rename_separate : s.separate.rename f = (s.rename f).separate := by
  unfold separate
  change (if s.gap then _ else _ : State).rename f = if s.gap then _ else _
  split
  · exact rename_place s _
  · rfl

theorem rename_halt (cause : Cause) (line : Line) (rest : List Char) :
    (s.rename f).halt cause line rest = renamed (rename f) f (s.halt cause line rest) := rfl

theorem rename_takeCode (owner : CodeOwner) (segments : List (List Char)) (line : Line)
    (cs : List Char) :
    (s.takeCode owner segments line cs).rename f =
      (s.rename f).takeCode (owner.rename f) segments line cs := by
  unfold takeCode
  simp only
  split
  · rfl
  · rw [rename_breakLine, rename_begin, CodeOwner.leavesGap_rename, CodeOwner.rename_withCode]
    rfl

theorem rename_takeTail (tab : Nat) (tag : TagHead) (line : Line) (tail : Tail) :
    (s.takeTail tab tag line tail).rename f =
      (s.rename f).takeTail tab (tag.rename f) line tail := by
  cases tail with
  | output mark cs => exact rename_takeCode s _ _ _ _
  | void =>
    simp only [takeTail, rename_breakLine, rename_place]
    rfl
  | block =>
    simp only [takeTail, rename_breakLine, rename_begin]
    rfl
  | text inline =>
    simp only [takeTail, takeText, begin, rename, Builder.rename_begin]
    rfl

theorem rename_takeAttributes (tab : Nat) (tag : TagHead) (close : Option Char) (line : Line)
    (cs : List Char) :
    (s.rename f).takeAttributes tab (tag.rename f) close line cs =
      renamed (rename f) f (s.takeAttributes tab tag close line cs) := by
  unfold takeAttributes
  split
  · exact rename_halt s _ _ _
  · next attrs rest _ =>
    simp only
    split
    · exact rename_halt s _ _ _
    · rw [← rename_breakLine]
      rfl
    · split
      · exact rename_halt s _ _ _
      · next tail _ =>
        exact congrArg Except.ok
          (rename_takeTail s tab { tag with attrs := tag.attrs ++ attrs } line tail).symm

theorem rename_takeTag (tab : Nat) (name : String) (line : Line) (cs : List Char) :
    (s.rename f).takeTag tab (f name) line cs =
      renamed (rename f) f (s.takeTag tab name line cs) := by
  unfold takeTag
  obtain ⟨shortcuts, rest⟩ := readShortcuts cs
  have taken (close : Option Char) (inner : List Char) :=
    rename_takeAttributes (f := f) s tab ⟨name, shortcuts, s.number, line⟩ close line inner
  cases rest with
  | nil => exact taken none []
  | cons c inner =>
    simp only
    cases closingBracket c with
    | none => exact taken none (c :: inner)
    | some bracket => exact taken (some bracket) inner

theorem rename_settle (block : TextBlock) :
    (s.settle block).rename f = (s.rename f).settle block := by
  unfold settle
  simp only
  split
  · simp only [rename, rename_placeBreaks]
    rfl
  · simp only [rename, rename_placeBreaks, place, Builder.rename_place]
    rfl

variable {settings : Settings} (keeps : KeepsWritten f)
include keeps

theorem rename_takeHead (line : Line) {cs : List Char} :
    takeHead { settings with defaultTag := f settings.defaultTag } (s.rename f) line (Head.read cs) =
      renamed (rename f) f (takeHead settings s line (Head.read cs)) := by
  cases head : Head.read cs with
  | control cs => exact congrArg Except.ok (rename_takeCode s .control [] line cs).symm
  | output mark cs => exact congrArg Except.ok (rename_takeCode s (.output mark) [] line cs).symm
  | embedded engine =>
    refine congrArg Except.ok ?_
    simp only [takeText, begin, breakLine, place, rename, Builder.rename_begin,
      Builder.rename_place]
    rfl
  | comment spaced cs =>
    refine congrArg Except.ok ?_
    simp only [takeText, begin, rename, Builder.rename_begin, width_begin, width_rename]
    rfl
  | tag name rest =>
    have taken := rename_takeTag (f := f) s.separate settings.tabSize
      ((name.map String.ofList).getD settings.defaultTag) line rest
    rw [rename_separate] at taken
    refine Eq.trans ?_ taken
    cases name with
    | none => rfl
    | some name =>
      obtain ⟨text, -, stated⟩ := Head.tagStart_of_read head
      cases stated with
      | named more word =>
        simp only [takeHead, Option.map_some, Option.getD_some, keeps _ _ word]
  | conditional condition =>
    refine congrArg Except.ok ?_
    rw [rename_breakLine, rename_begin]
    rfl
  | remark =>
    refine congrArg Except.ok ?_
    simp only [breakLine, place, rename, Builder.rename_place]
    rfl
  | doctype value =>
    refine congrArg Except.ok ?_
    rw [rename_breakLine, rename_place]
    rfl
  | text glued cs =>
    refine congrArg Except.ok ?_
    have spaced : (if glued then s.rename f else (s.rename f).separate) =
        (if glued then s else s.separate).rename f := by
      cases glued
      · exact (rename_separate s).symm
      · rfl
    simp only [spaced]
    generalize (if glued then s else s.separate) = u
    have width : (u.rename f).builder.width = u.builder.width := width_rename _
    simp only [takeText, width]
    rfl
  | unknown rest => exact rename_halt s _ _ _

theorem rename_dispatch (line : Line) :
    (s.rename f).dispatch { settings with defaultTag := f settings.defaultTag } line =
      renamed (rename f) f (s.dispatch settings line) := by
  have fits := align_rename (f := f) s.builder (indentWidth settings.tabSize line)
  unfold dispatch
  split
  · simp only [← rename_breakLine]
    rfl
  · simp only [rename, fits]
    cases s.builder.align (indentWidth settings.tabSize line) with
    | error misfit => rfl
    | ok result =>
      exact rename_takeHead (s.fitted settings line result.1 result.2) keeps line

theorem rename_takeFirst (line : Line) :
    (s.rename f).takeFirst { settings with defaultTag := f settings.defaultTag } line =
      renamed (rename f) f (s.takeFirst settings line) := by
  unfold takeFirst
  split
  · exact congrArg Except.ok (rename_breakLine s).symm
  · split
    · exact rename_dispatch s keeps line
    · split
      · refine congrArg Except.ok ?_
        simp only [breakLine, place, rename, Builder.rename_place]
        rfl
      · exact rename_halt s _ _ _

/-- One line is taken alike under the other names, -/
theorem rename_feed (line : Line) :
    (s.rename f).feed { settings with defaultTag := f settings.defaultTag } line =
      renamed (rename f) f (s.feed settings line) := by
  obtain ⟨n, b, g, phase⟩ := s
  cases phase with
  | start => exact rename_takeFirst ⟨n + 1, b, g, .start⟩ keeps line
  | ready => exact rename_dispatch ⟨n + 1, b, g, .ready⟩ keeps line
  | code owner segments last =>
    exact congrArg Except.ok
      (rename_takeCode ⟨n + 1, b, g, .code owner segments last⟩ owner segments line line).symm
  | attributes tag close =>
    exact rename_takeAttributes ⟨n + 1, b, g, .attributes tag close⟩ settings.tabSize tag
      (some close) line line
  | text block =>
    change (if block.takes settings.tabSize (b.rename f).width line then _ else _) =
      renamed (rename f) f (if block.takes settings.tabSize b.width line then _ else _)
    rw [width_rename]
    split
    · cases block.add settings.tabSize line <;> rfl
    · have settled := rename_settle (f := f) ⟨n + 1, b, g, .text block⟩ block
      refine Eq.trans ?_ (rename_dispatch (settle ⟨n + 1, b, g, .text block⟩ block) keeps line)
      rw [settled]
      rfl
  | remark =>
    change (if isBlank line || (b.rename f).width < indentWidth settings.tabSize line then _ else _) =
      renamed (rename f) f
        (if isBlank line || b.width < indentWidth settings.tabSize line then _ else _)
    rw [width_rename]
    split
    · exact congrArg Except.ok (rename_breakLine ⟨n + 1, b, g, .remark⟩).symm
    · exact rename_dispatch ⟨n + 1, b, g, .ready⟩ keeps line

/-- so are any number of lines, -/
theorem rename_foldlM (lines : List Line) :
    lines.foldlM (feed { settings with defaultTag := f settings.defaultTag }) (s.rename f) =
      renamed (rename f) f (lines.foldlM (feed settings) s) := by
  induction lines generalizing s with
  | nil => rfl
  | cons line lines ih =>
    rw [List.foldlM_cons, List.foldlM_cons, rename_feed s keeps]
    exact renamed_bind _ fun t => ih t

omit keeps in
/-- and the end of a template. -/
theorem rename_finish :
    (s.rename f).finish = renamed (Builder.rename f) f s.finish := by
  obtain ⟨n, b, g, phase⟩ := s
  cases phase with
  | start | ready | remark => exact congrArg Except.ok (rename_closeAll b).symm
  | text block =>
    refine congrArg Except.ok ?_
    have settled := congrArg State.builder (rename_settle (f := f) ⟨n, b, g, .text block⟩ block)
    rw [rename_closeAll]
    exact congrArg closeAll settled.symm
  | code owner segments last => rfl
  | attributes tag close => rfl

end State

end TemplateMarkup
