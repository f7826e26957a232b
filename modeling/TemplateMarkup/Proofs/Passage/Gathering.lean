import Mathlib.Data.List.Forall2
import TemplateMarkup.Proofs.Builder.Sole
import TemplateMarkup.Proofs.Reading.Dispatch
import TemplateMarkup.Proofs.Text.Lines
import TemplateMarkup.Proofs.Text.Remarks
import TemplateMarkup.Proofs.Text.Words

/-! Gathering a passage: lines that are written at a text's column join it as they are. -/
namespace TemplateMarkup

/-- How a line is written at a column: behind spaces, or as any blank line if it is empty. -/
inductive WrittenAt (column : Nat) : Line → Line → Prop
  | text (line : Line) : WrittenAt column line (List.replicate column ' ' ++ line)
  | blank {printed : Line} (blank : isBlank printed = true) (unbroken : '\n' ∉ printed) :
      WrittenAt column [] printed

/-- A line that a text takes over unchanged: it is not blank, and in text that is not verbatim it
starts with no marker and holds no remark. -/
structure Kept (verbatim : Bool) (line : Line) : Prop where
  filled : (if verbatim then isBlank line else isBlankText line) = false
  unmarked : verbatim = false → line.head? ≠ some '>'
  unremarked : verbatim = false → IsUnremarked line

namespace WrittenAt

variable {column : Nat} {line printed : Line}

theorem isBlank_of_nil (h : WrittenAt column [] printed) : isBlank printed = true := by
  cases h with
  | text => exact isBlank_spaces column []
  | blank blank => exact blank

theorem eq_of_ne_nil (h : WrittenAt column line printed) (filled : line ≠ []) :
    printed = List.replicate column ' ' ++ line := by
  cases h with
  | text => rfl
  | blank => exact absurd rfl filled

theorem unbroken (h : WrittenAt column line printed) (plain : line.IsPlain) : '\n' ∉ printed := by
  cases h with
  | text => simpa [List.mem_replicate] using plain.unbroken
  | blank _ unbroken => exact unbroken

theorem isPlain (h : WrittenAt column line printed) (plain : line.IsPlain) (filled : line ≠ []) :
    printed.IsPlain := by
  rw [h.eq_of_ne_nil filled]
  exact plain.append filled (by simp [List.mem_replicate])

/-- A return at the end of a blank line goes with its line break, and a blank line is left. -/
theorem close (h : WrittenAt column line printed) (plain : line.IsPlain) :
    WrittenAt column line (closeLine printed.reverse) := by
  by_cases filled : line = []
  · subst filled
    have part := prefix_closeLine printed
    refine .blank ?_ fun broken => h.unbroken plain (part.subset broken)
    have blank := List.all_eq_true.1 h.isBlank_of_nil
    exact List.all_eq_true.2 fun c hc => blank c (part.subset hc)
  · rwa [closeLine_reverse (h.isPlain plain filled)]

end WrittenAt

namespace TextBlock

variable {verbatim : Bool} {base tab : Nat} {lines : List Line} {line printed : Line}
  {block : TextBlock}

/-- What a text is once some lines are written at its column. Blank lines that no other line has
followed yet are counted, and not part of it. -/
structure Holds (verbatim : Bool) (base : Nat) (lines : List Line) (block : TextBlock) : Prop where
  kind : block.verbatim = verbatim
  column : block.baseline = some base
  filled : lines ≠ []
  text : block.text ++ List.replicate block.blanks '\n' = List.intercalate ['\n'] lines
  complete : lines.getLast? ≠ some [] → block.blanks = 0
  breaks : block.breaks = lines.length

theorem bodyOf_spaces (kept : Kept block.verbatim line) :
    block.bodyOf tab base (List.replicate base ' ' ++ line) = line := by
  unfold bodyOf
  simp only [dropColumns_spaces]
  split
  · rfl
  · next plain =>
    have plain := eq_false_of_ne_true plain
    split
    · exact absurd rfl (kept.unmarked plain)
    · exact cutRemark_eq_self.2 (kept.unremarked plain)

/-- Any line below its level and every blank one goes on with a text. -/
theorem takes_written (deep : 0 < base) (written : WrittenAt base line printed) :
    block.takes tab 0 printed = true := by
  rw [takes, Bool.or_eq_true]
  cases written with
  | text =>
    right
    rw [indentWidth_spaces]
    exact decide_eq_true (by omega)
  | blank blank => exact .inl (block.isBlankLine_of_isBlank blank)

theorem text_push (block : TextBlock) (part : List Char) (blanks breaks : Nat) :
    text { block with
      baseline := some base, parts := part :: block.parts, blanks := blanks, started := true,
      breaks := breaks } = block.text ++ part := by
  simp [text]

/-- A line that is written at the column of a text, or sets it, is added as it is. -/
theorem add_kept (column : block.baseline.getD (block.startOf tab
    (List.replicate base ' ' ++ line)) = base) (kept : Kept block.verbatim line) :
    block.add tab (List.replicate base ' ' ++ line) = .ok { block with
      baseline := some base
      parts := (block.separator ++ line) :: block.parts
      blanks := 0
      started := true
      breaks := block.breaks + 1 } := by
  have filled : ¬ block.isBlankLine (List.replicate base ' ' ++ line) = true := by
    rw [isBlankLine_spaces, isBlankLine, kept.filled]
    exact Bool.false_ne_true
  have admitted : block.admits tab base (List.replicate base ' ' ++ line) = true := by
    have reached : base ≤ block.startOf tab (List.replicate base ' ' ++ line) := by
      rw [startOf, indentWidth_spaces]
      omega
    simp [admits, reached]
  rw [add, if_neg filled]
  simp only [column, admitted, if_true, bodyOf_spaces kept]

/-- The line that sets the column of a verbatim text stands at it. -/
theorem holds_first (base : Nat) (kept : Kept true line) (flush : indentWidth tab line = 0) :
    ∃ more, (empty true 0).add tab (List.replicate base ' ' ++ line) = .ok more ∧
      more.Holds true base [line] := by
  have start : (empty true 0).startOf tab (List.replicate base ' ' ++ line) = base := by
    rw [startOf, indentWidth_replicate _ _ _ flush]
    rfl
  refine ⟨_, add_kept start kept, rfl, rfl, by simp, ?_, fun _ => rfl, rfl⟩
  rw [text_push, List.intercalate_singleton]
  exact List.append_nil line

/-- A text that starts on the line of its owner holds what it starts with. -/
theorem holds_startAt (base : Nat) (unremarked : IsUnremarked line) :
    (startAt base (cutRemark line)).Holds false base [line] := by
  refine ⟨rfl, rfl, by simp, ?_, fun _ => rfl, rfl⟩
  rw [cutRemark_eq_self.2 unremarked, List.intercalate_singleton]
  simp [text, startAt]

/-- A written line joins a text. -/
theorem Holds.add (h : block.Holds verbatim base lines) (tab : Nat) (written : WrittenAt base line printed)
    (kept : line ≠ [] → Kept verbatim line) :
    ∃ more, block.add tab printed = .ok more ∧ more.Holds verbatim base (lines ++ [line]) := by
  have longer : block.breaks + 1 = (lines ++ [line]).length := by
    rw [h.breaks, List.length_append, List.length_singleton]
  by_cases hline : line = []
  · subst hline
    have blank := block.isBlankLine_of_isBlank written.isBlank_of_nil
    refine ⟨{ block with breaks := block.breaks + 1, blanks := block.blanks + 1 }, ?_, h.kind,
      h.column, by simp, ?_, ?_, longer⟩
    · rw [TextBlock.add, if_pos blank, h.column]
      rfl
    · rw [intercalate_snoc h.filled, ← h.text, List.append_assoc, ← List.replicate_succ']
      rfl
    · intro last
      exact absurd List.getLast?_concat last
  · obtain rfl := written.eq_of_ne_nil hline
    have column : block.baseline.getD (block.startOf tab (List.replicate base ' ' ++ line)) =
        base := by
      rw [h.column, Option.getD_some]
    have kept := kept hline
    rw [← h.kind] at kept
    refine ⟨_, add_kept column kept, h.kind, rfl, by simp, ?_, fun _ => rfl, longer⟩
    rw [text_push, intercalate_snoc h.filled, ← h.text, separator, h.column]
    simp [List.replicate_succ']

end TextBlock

/-- The nodes of a passage: its lines as one text, and then their line ends. -/
def passage (lines : List Line) : List Node :=
  .interpolate (String.ofList (List.intercalate ['\n'] lines)) ::
    List.replicate lines.length .newline

namespace State

/-- Some lines have been gathered for the one block that is open. -/
structure Gathers (root : List Node) (owner : Owner) (verbatim : Bool) (base : Nat)
    (lines : List Line) (s : State) : Prop where
  sole : Builder.Sole root ⟨owner, []⟩ s.builder
  text : ∃ block, s.phase = .text block ∧ block.Holds verbatim base lines

namespace Gathers

variable {root : List Node} {owner : Owner} {verbatim : Bool} {base : Nat} {lines : List Line}
  {s : State}

theorem feed (h : Gathers root owner verbatim base lines s) (settings : Settings) (deep : 0 < base)
    {line printed : Line} (written : WrittenAt base line printed)
    (kept : line ≠ [] → Kept verbatim line) :
    ∃ t, s.feed settings printed = .ok t ∧ Gathers root owner verbatim base (lines ++ [line]) t := by
  obtain ⟨block, under, holds⟩ := h.text
  obtain ⟨more, added, holds'⟩ := holds.add settings.tabSize written kept
  have taken : block.takes settings.tabSize s.builder.width printed = true := by
    rw [h.sole.width]
    exact TextBlock.takes_written deep written
  refine ⟨{ s with number := s.number + 1, phase := .text more }, ?_, h.sole, more, rfl, holds'⟩
  simp only [State.feed, under, taken, if_true, added]
  rfl

/-- All lines that are written at the column of a text join it, one after the other. -/
theorem foldlM (h : Gathers root owner verbatim base lines s) (settings : Settings) (deep : 0 < base)
    {more printed : List Line} (written : List.Forall₂ (WrittenAt base) more printed)
    (kept : ∀ line ∈ more, line ≠ [] → Kept verbatim line) :
    ∃ t, printed.foldlM (State.feed settings) s = .ok t ∧
      Gathers root owner verbatim base (lines ++ more) t := by
  induction written generalizing lines s with
  | nil =>
    rw [List.append_nil]
    exact ⟨s, rfl, h⟩
  | @cons line printed more rest here _ ih =>
    obtain ⟨t, fed, gathers⟩ := h.feed settings deep here (kept line (by simp))
    obtain ⟨u, run, gathers'⟩ := ih gathers fun line hline => kept line (by simp [hline])
    refine ⟨u, ?_, by rwa [List.append_assoc, List.singleton_append] at gathers'⟩
    rw [List.foldlM_cons, fed]
    exact run

/-- At the end the block holds the lines as one text, and their line ends. -/
theorem finish (h : Gathers root owner verbatim base lines s) (last : lines.getLast? ≠ some []) :
    ∃ b, s.finish = .ok b ∧
      b.tree = .multi (root.reverse ++ [owner.enclose (passage lines)]) := by
  obtain ⟨block, under, holds⟩ := h.text
  have whole : block.text = List.intercalate ['\n'] lines := by
    have text := holds.text
    rwa [holds.complete last, List.replicate_zero, List.append_nil] at text
  have filled : block.text.isEmpty = false := by
    rw [whole, List.isEmpty_eq_false_iff]
    exact intercalate_ne_nil holds.filled last
  refine ⟨_, by rw [State.finish, under], ?_⟩
  have settled : (s.settle block).builder =
      Builder.placeBreaks block.breaks (s.builder.place (.interpolate (String.ofList block.text))) := by
    simp [settle, filled, State.place]
  rw [settled, ((h.sole.place _).placeBreaks _).tree_closeAll, whole, holds.breaks]
  simp [passage]

end Gathers

end State

end TemplateMarkup
