import Mathlib.Data.List.TakeWhile
import TemplateMarkup.Proofs.Reading.Dispatch
import TemplateMarkup.Proofs.Text.Spans

/-! The columns that a tab stands for matter only for a tab in an indentation. -/
namespace TemplateMarkup

/-- No tab stands in the line's indentation. -/
def IsTabless (line : Line) : Prop := '\t' ∉ line.takeWhile isIndent

instance (line : Line) : Decidable (IsTabless line) := inferInstanceAs (Decidable (_ ∉ _))

variable {line : Line} {c : Char}

theorem IsTabless.of_cons (h : IsTabless (c :: line)) (indent : isIndent c = true) :
    c = ' ' ∧ IsTabless line := by
  rw [IsTabless, List.takeWhile_cons_of_pos indent, List.mem_cons, not_or] at h
  simp only [isIndent, Bool.or_eq_true, decide_eq_true_eq] at indent
  obtain space | tab := indent
  · exact ⟨space, h.2⟩
  · exact absurd tab.symm h.1

/-- The part of a line in front of some of its text. -/
theorem IsTabless.take (h : IsTabless line) (n : Nat) : IsTabless (line.take n) := by
  rw [IsTabless, ← List.take_takeWhile]
  exact fun mem => h (List.mem_of_mem_take mem)

theorem IsTabless.indentWidth (h : IsTabless line) (tab other : Nat) :
    indentWidth tab line = indentWidth other line := by
  induction line with
  | nil => rfl
  | cons c line ih =>
    cases indent : isIndent c with
    | true =>
      obtain ⟨rfl, onward⟩ := h.of_cons indent
      exact congrArg (1 + ·) (ih onward)
    | false => rw [TemplateMarkup.indentWidth, TemplateMarkup.indentWidth,
        columnsOf_eq_none indent, columnsOf_eq_none indent]

theorem IsTabless.dropColumns (h : IsTabless line) (tab other n : Nat) :
    dropColumns tab n line = dropColumns other n line := by
  induction line generalizing n with
  | nil => cases n <;> rfl
  | cons c line ih =>
    cases n with
    | zero => rfl
    | succ n =>
      cases indent : isIndent c with
      | true =>
        obtain ⟨rfl, onward⟩ := h.of_cons indent
        exact ih onward _
      | false => rw [TemplateMarkup.dropColumns, TemplateMarkup.dropColumns,
          columnsOf_eq_none indent, columnsOf_eq_none indent]

theorem IsTabless.columnAfter (h : IsTabless line) (tab other : Nat) :
    columnAfter tab line = columnAfter other line := by
  rw [TemplateMarkup.columnAfter, h.indentWidth tab other, TemplateMarkup.columnAfter]

namespace TextBlock

theorem takes_tabless (h : IsTabless line) (block : TextBlock) (tab other outer : Nat) :
    block.takes tab outer line = block.takes other outer line := by
  rw [takes, h.indentWidth tab other, takes]

theorem add_tabless (h : IsTabless line) (block : TextBlock) (tab other : Nat) :
    block.add tab line = block.add other line := by
  have start : block.startOf tab line = block.startOf other line := by
    rw [startOf, h.indentWidth tab other, startOf]
  have body (base : Nat) : block.bodyOf tab base line = block.bodyOf other base line := by
    rw [bodyOf, h.dropColumns tab other, bodyOf]
  simp only [add, admits, start, body]
  rfl

end TextBlock

namespace State

theorem takeTail_tabless (h : IsTabless line) (s : State) (tab other : Nat) (tag : TagHead)
    (tail : Tail) : s.takeTail tab tag line tail = s.takeTail other tag line tail := by
  cases tail with
  | output | void | block => rfl
  | text inline => rw [takeTail, (h.take _).columnAfter tab other, takeTail]

theorem takeAttributes_tabless (h : IsTabless line) (s : State) (tab other : Nat) (tag : TagHead)
    (close : Option Char) (cs : List Char) :
    s.takeAttributes tab tag close line cs = s.takeAttributes other tag close line cs := by
  simp only [takeAttributes, takeTail_tabless h s tab other]

theorem takeTag_tabless (h : IsTabless line) (s : State) (tab other : Nat) (name : String)
    (cs : List Char) : s.takeTag tab name line cs = s.takeTag other name line cs := by
  simp only [takeTag, takeAttributes_tabless h s tab other]

theorem takeHead_tabless (h : IsTabless line) (settings : Settings) (tab : Nat) (s : State)
    (head : Head) :
    takeHead { settings with tabSize := tab } s line head = takeHead settings s line head := by
  cases head with
  | tag name cs => exact takeTag_tabless h _ _ _ _ _
  | control | output | embedded | comment | conditional | remark | doctype | text | unknown => rfl

theorem dispatch_tabless (h : IsTabless line) (settings : Settings) (tab : Nat) (s : State) :
    s.dispatch { settings with tabSize := tab } line = s.dispatch settings line := by
  simp only [dispatch, h.indentWidth tab settings.tabSize, takeHead_tabless h]

/-- A line is taken alike whatever a tab stands for. -/
theorem feed_tabless (h : IsTabless line) (settings : Settings) (tab : Nat) (s : State) :
    s.feed { settings with tabSize := tab } line = s.feed settings line := by
  simp only [feed, takeFirst, dispatch_tabless h, takeAttributes_tabless h _ tab settings.tabSize,
    TextBlock.takes_tabless h _ tab settings.tabSize, h.indentWidth tab settings.tabSize,
    TextBlock.add_tabless h _ tab settings.tabSize]

/-- So are any number of lines. -/
theorem foldlM_tabless {lines : List Line} (tabless : ∀ line ∈ lines, IsTabless line)
    (settings : Settings) (tab : Nat) (s : State) :
    lines.foldlM (feed { settings with tabSize := tab }) s = lines.foldlM (feed settings) s := by
  induction lines generalizing s with
  | nil => rfl
  | cons line lines ih =>
    obtain ⟨here, below⟩ := List.forall_mem_cons.1 tabless
    rw [List.foldlM_cons, List.foldlM_cons, feed_tabless here]
    exact congrArg _ (funext fun t => ih below t)

end State

end TemplateMarkup
