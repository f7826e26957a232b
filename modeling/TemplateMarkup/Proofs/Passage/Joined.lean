import Mathlib.Data.List.DropRight
import TemplateMarkup.Proofs.Reading.Moves
import TemplateMarkup.Proofs.Text.Lines

/-! What a text comes to, told of all its lines at once. A text takes the lines below it that are
blank or deeper than the level around it. As long as they stand at its column, it is what it starts
with and what they contribute, joined by line breaks; the first line that does not is a fault. -/
namespace TemplateMarkup
open Builder

namespace TextBlock

variable {tab base : Nat} {lines : List Line} {line : Line} {block more : TextBlock}

/-- No line below the one that a text starts on has joined it. -/
structure IsFresh (block : TextBlock) : Prop where
  blanks : block.blanks = 0
  started : block.started = false

/-- Those of some lines that are not blank. -/
def filled (block : TextBlock) (lines : List Line) : List Line :=
  lines.filter (!block.isBlankLine ·)

/-- The column of a text over some lines: the first of them that is not blank sets it if nothing
else did. -/
def columnOver (block : TextBlock) (tab : Nat) (lines : List Line) : Nat :=
  block.baseline.getD (((block.filled lines).head?.map (block.startOf tab)).getD 0)

/-- Lines that stand nowhere left of a column, but for the first one that joins a text: with a
marker it may start one column short. -/
def AreFlush (block : TextBlock) (tab base : Nat) : List Line → Prop
  | [] => True
  | first :: others =>
    (base ≤ block.startOf tab first ∨ block.started = false ∧ block.isMarked first = true ∧
      block.startOf tab first + 1 = base) ∧
    ∀ line ∈ others, base ≤ block.startOf tab line

/-- Those of some lines that are not blank stand at the column of a text. -/
def FitsOver (block : TextBlock) (tab : Nat) (lines : List Line) : Prop :=
  block.AreFlush tab (block.columnOver tab lines) (block.filled lines)

/-- What a line contributes to a text: a blank one nothing but its line break. -/
def shareOf (block : TextBlock) (tab base : Nat) (line : Line) : List Char :=
  if block.isBlankLine line then [] else block.bodyOf tab base line

/-- A text over some lines. Blank lines at the end are no part of it. If its column is not set yet,
nor are blank lines at the start, and the first other line goes on where the text stands. -/
def textOver (block : TextBlock) (tab : Nat) (lines : List Line) : List Char :=
  let share := block.shareOf tab (block.columnOver tab lines)
  if block.baseline.isSome then
    List.intercalate ['\n'] (block.text :: (lines.rdropWhile block.isBlankLine).map share)
  else
    block.text ++ List.intercalate ['\n']
      (((lines.dropWhile block.isBlankLine).rdropWhile block.isBlankLine).map share)

instance (block : TextBlock) (tab base : Nat) :
    (lines : List Line) → Decidable (block.AreFlush tab base lines)
  | [] => isTrue trivial
  | _ :: _ => inferInstanceAs (Decidable (_ ∧ _))

instance (block : TextBlock) (tab : Nat) (lines : List Line) : Decidable (block.FitsOver tab lines) :=
  inferInstanceAs (Decidable (block.AreFlush _ _ _))

/-! What is read of a line depends on the kind of the text alone. -/

theorem isBlankLine_of_kind (kind : more.verbatim = block.verbatim) (line : Line) :
    more.isBlankLine line = block.isBlankLine line := by
  rw [isBlankLine, isBlankLine, kind]

theorem isMarked_of_kind (kind : more.verbatim = block.verbatim) (line : Line) :
    more.isMarked line = block.isMarked line := by
  rw [isMarked, isMarked, kind]

theorem startOf_of_kind (kind : more.verbatim = block.verbatim) (tab : Nat) (line : Line) :
    more.startOf tab line = block.startOf tab line := by
  rw [startOf, startOf, isMarked_of_kind kind]

theorem bodyOf_of_kind (kind : more.verbatim = block.verbatim) (tab base : Nat) (line : Line) :
    more.bodyOf tab base line = block.bodyOf tab base line := by
  rw [bodyOf, bodyOf, kind]

theorem takes_of_kind (kind : more.verbatim = block.verbatim) (tab outer : Nat) :
    more.takes tab outer = block.takes tab outer := by
  funext line
  rw [takes, takes, isBlankLine_of_kind kind]

theorem kind_add (h : block.add tab line = .ok more) : more.verbatim = block.verbatim := by
  unfold add at h
  split at h
  · cases h
    rfl
  · simp only at h
    split at h
    · cases h
      rfl
    · cases h

theorem add_blank (blank : block.isBlankLine line = true) :
    block.add tab line = .ok { block with
      breaks := block.breaks + 1
      blanks := if block.baseline.isSome then block.blanks + 1 else 0 } := by
  rw [add, if_pos blank]

/-- The text with one more line whose column is set. -/
def push (block : TextBlock) (tab base : Nat) (line : Line) : TextBlock :=
  { block with
    baseline := some base
    parts := (block.separator ++ block.bodyOf tab base line) :: block.parts
    blanks := 0
    started := true
    breaks := block.breaks + 1 }

theorem add_filled (filled : block.isBlankLine line = false)
    (admitted : block.admits tab (block.baseline.getD (block.startOf tab line)) line = true) :
    block.add tab line =
      .ok (block.push tab (block.baseline.getD (block.startOf tab line)) line) := by
  rw [add, if_neg (Bool.eq_false_iff.1 filled)]
  simp only [admitted, if_true]
  rfl

theorem add_refused (filled : block.isBlankLine line = false)
    (refused : block.admits tab (block.baseline.getD (block.startOf tab line)) line = false) :
    block.add tab line = .error .unexpectedTextIndentation := by
  rw [add, if_neg (Bool.eq_false_iff.1 filled)]
  simp only [refused, Bool.false_eq_true, if_false]

theorem text_pushed (block : TextBlock) (tab base : Nat) (line : Line) :
    (block.push tab base line).text = block.text ++ (block.separator ++ block.bodyOf tab base line) := by
  simp [push, text]

/-! Lines that are not blank, one line at a time. -/

theorem filled_concat_blank (blank : block.isBlankLine line = true) (lines : List Line) :
    block.filled (lines ++ [line]) = block.filled lines := by
  simp [filled, blank]

theorem filled_concat (filled : block.isBlankLine line = false) (lines : List Line) :
    block.filled (lines ++ [line]) = block.filled lines ++ [line] := by
  simp [TextBlock.filled, filled]

theorem areFlush_concat (lines : List Line) (line : Line) :
    block.AreFlush tab base (lines ++ [line]) ↔ block.AreFlush tab base lines ∧
      (base ≤ block.startOf tab line ∨ (block.started = false ∧ lines = []) ∧
        block.isMarked line = true ∧ block.startOf tab line + 1 = base) := by
  cases lines with
  | nil => simp [AreFlush]
  | cons first others =>
    simp only [List.cons_append, AreFlush, List.mem_append, List.mem_singleton]
    simp [or_imp, forall_and, and_assoc]

/-- What a text is once it has taken some lines from where its column was set. -/
structure Joins (base tab : Nat) (block : TextBlock) (lines : List Line) (more : TextBlock) :
    Prop where
  kind : more.verbatim = block.verbatim
  column : more.baseline = some base
  text : more.text = List.intercalate ['\n']
    (block.text :: (lines.rdropWhile block.isBlankLine).map (block.shareOf tab base))
  blanks : more.blanks = (lines.rtakeWhile block.isBlankLine).length
  started : more.started = (block.started || !(block.filled lines).isEmpty)
  breaks : more.breaks = block.breaks + lines.length

namespace Joins

theorem nil (column : block.baseline = some base) (blanks : block.blanks = 0) :
    Joins base tab block [] block := by
  refine ⟨rfl, column, ?_, ?_, ?_, rfl⟩
  · simp
  · simp [blanks]
  · simp [filled]

theorem concat_blank (h : Joins base tab block lines more)
    (blank : block.isBlankLine line = true) :
    ∃ next, more.add tab line = .ok next ∧ Joins base tab block (lines ++ [line]) next := by
  have same := isBlankLine_of_kind h.kind line
  refine ⟨_, add_blank (same.trans blank), h.kind, h.column, ?_, ?_, ?_, ?_⟩
  · rw [List.rdropWhile_concat_pos _ _ _ blank, ← h.text]
    rfl
  · rw [List.rtakeWhile_concat_pos _ _ _ blank, List.length_append, ← h.blanks, h.column]
    rfl
  · rw [filled_concat_blank blank, ← h.started]
  · rw [List.length_append, ← Nat.add_assoc, ← h.breaks]
    rfl

theorem admits_iff (h : Joins base tab block lines more) (line : Line) :
    more.admits tab base line = true ↔ base ≤ block.startOf tab line ∨
      (block.started = false ∧ block.filled lines = []) ∧ block.isMarked line = true ∧
        block.startOf tab line + 1 = base := by
  rw [admits, startOf_of_kind h.kind, isMarked_of_kind h.kind, h.started]
  simp [and_assoc]

/-- The line breaks of blank lines come in front of the line that follows them. -/
theorem text_concat (block : TextBlock) (filled : block.isBlankLine line = false)
    (lines : List Line) (start : List Char) :
    List.intercalate ['\n']
        (start :: ((lines ++ [line]).rdropWhile block.isBlankLine).map (block.shareOf tab base)) =
      List.intercalate ['\n']
        (start :: (lines.rdropWhile block.isBlankLine).map (block.shareOf tab base)) ++
      (List.replicate ((lines.rtakeWhile block.isBlankLine).length + 1) '\n' ++
        block.bodyOf tab base line) := by
  have share : block.shareOf tab base line = block.bodyOf tab base line := by
    rw [shareOf, filled]
    rfl
  have skipped : ∀ blank ∈ lines.rtakeWhile block.isBlankLine, block.shareOf tab base blank = [] := by
    intro blank mem
    rw [shareOf, if_pos (List.mem_rtakeWhile_imp mem)]
  have split := List.rdropWhile_append_rtakeWhile (p := block.isBlankLine) (l := lines)
  generalize lines.rdropWhile block.isBlankLine = front at split ⊢
  generalize lines.rtakeWhile block.isBlankLine = blanks at split skipped ⊢
  subst split
  have empty : blanks.map (block.shareOf tab base) = List.replicate blanks.length [] :=
    List.map_eq_replicate_iff.2 skipped
  rw [List.rdropWhile_concat_neg _ _ _ (Bool.eq_false_iff.1 filled), List.map_append,
    List.map_append, empty, List.map_singleton, share, ← List.cons_append, intercalate_snoc (by simp),
    ← List.cons_append, intercalate_empty (by simp), List.replicate_succ', List.append_assoc,
    List.append_assoc, List.singleton_append]

theorem concat_filled (h : Joins base tab block lines more)
    (filled : block.isBlankLine line = false) (admitted : more.admits tab base line = true) :
    ∃ next, more.add tab line = .ok next ∧ Joins base tab block (lines ++ [line]) next := by
  have column : more.baseline.getD (more.startOf tab line) = base := by rw [h.column]; rfl
  have added : more.add tab line = .ok (more.push tab base line) := by
    have fits : more.admits tab (more.baseline.getD (more.startOf tab line)) line = true := by
      rwa [column]
    have pushed := add_filled ((isBlankLine_of_kind h.kind line).trans filled) fits
    rwa [column] at pushed
  refine ⟨_, added, h.kind, rfl, ?_, ?_, ?_, ?_⟩
  · rw [text_pushed, text_concat block filled, h.text, separator, h.blanks, h.column,
      bodyOf_of_kind h.kind]
    rfl
  · rw [List.rtakeWhile_concat_neg _ _ _ (Bool.eq_false_iff.1 filled)]
    rfl
  · rw [filled_concat filled]
    simp [push]
  · rw [List.length_append, ← Nat.add_assoc, ← h.breaks]
    rfl

end Joins

/-- What a text is once it has taken some lines. If its column is not set, blank lines at the start
leave it alone, and the line that sets the column goes on where the text stands. -/
inductive Gathered (tab : Nat) (block : TextBlock) : List Line → TextBlock → Prop
  | column {base : Nat} {lines : List Line} {more : TextBlock} (set : block.baseline = some base)
      (joins : Joins base tab block lines more) : Gathered tab block lines more
  | blank {lines : List Line} (unset : block.baseline = none)
      (blank : ∀ line ∈ lines, block.isBlankLine line = true) :
      Gathered tab block lines { block with breaks := block.breaks + lines.length }
  | first {lead lines : List Line} {line : Line} {more : TextBlock} (unset : block.baseline = none)
      (blank : ∀ line ∈ lead, block.isBlankLine line = true)
      (filled : block.isBlankLine line = false)
      (joins : Joins (block.startOf tab line) tab
        (push { block with breaks := block.breaks + lead.length } tab (block.startOf tab line) line)
        lines more) :
      Gathered tab block (lead ++ line :: lines) more

theorem rdropWhile_cons_filled (filled : block.isBlankLine line = false) (lines : List Line) :
    (line :: lines).rdropWhile block.isBlankLine = line :: lines.rdropWhile block.isBlankLine := by
  induction lines using List.reverseRecOn with
  | nil => simp [List.rdropWhile_singleton, filled]
  | append_singleton lines last ih =>
    rw [← List.cons_append, List.rdropWhile_concat, List.rdropWhile_concat, ih]
    split <;> rfl

/-- What stands in front of the first of some lines stands in front of them all. -/
theorem intercalate_append_cons (start line : List Char) (lines : List Line) :
    List.intercalate ['\n'] ((start ++ line) :: lines) =
      start ++ List.intercalate ['\n'] (line :: lines) := by
  cases lines with
  | nil => simp
  | cons next lines => simp [List.intercalate_cons_cons]

theorem filled_lead {lead : List Line} (blank : ∀ line ∈ lead, block.isBlankLine line = true) :
    block.filled lead = [] := by
  rw [filled, List.filter_eq_nil_iff]
  intro line mem
  simp [blank line mem]

theorem filled_lead_append {lead : List Line}
    (blank : ∀ line ∈ lead, block.isBlankLine line = true) (filled : block.isBlankLine line = false)
    (lines : List Line) : block.filled (lead ++ line :: lines) = line :: block.filled lines := by
  have none := filled_lead blank
  rw [TextBlock.filled] at none
  rw [TextBlock.filled, List.filter_append, none, List.filter_cons_of_pos (by simp [filled])]
  rfl

namespace Gathered

theorem kind (h : Gathered tab block lines more) : more.verbatim = block.verbatim := by
  cases h with
  | column _ joins => exact joins.kind
  | blank => rfl
  | first _ _ _ joins => exact joins.kind

theorem breaks (h : Gathered tab block lines more) : more.breaks = block.breaks + lines.length := by
  cases h with
  | column _ joins => exact joins.breaks
  | blank => rfl
  | first _ _ _ joins =>
    rw [joins.breaks, push, List.length_append, List.length_cons]
    simp only
    omega

/-- The text that has taken the lines is the text over them. -/
theorem text (h : Gathered tab block lines more) (fresh : block.IsFresh) :
    more.text = block.textOver tab lines := by
  cases h with
  | column set joins =>
    rw [joins.text, textOver, set, columnOver, set]
    rfl
  | blank unset blank =>
    have none : lines.dropWhile block.isBlankLine = [] := List.dropWhile_eq_nil_iff.2 blank
    rw [textOver, unset, none]
    exact (List.append_nil _).symm
  | @first lead lines line more unset blank filled joins =>
    have column : block.columnOver tab (lead ++ line :: lines) = block.startOf tab line := by
      rw [columnOver, unset, filled_lead_append blank filled]
      rfl
    have rest : (lead ++ line :: lines).dropWhile block.isBlankLine = line :: lines := by
      rw [List.dropWhile_append_of_pos blank, List.dropWhile_cons_of_neg (by simp [filled])]
    have share : block.shareOf tab (block.startOf tab line) line =
        block.bodyOf tab (block.startOf tab line) line := by
      rw [shareOf, filled]
      rfl
    have pushed : (push { block with breaks := block.breaks + lead.length } tab
        (block.startOf tab line) line).text =
          block.text ++ block.bodyOf tab (block.startOf tab line) line := by
      rw [text_pushed, separator, fresh.blanks, unset]
      rfl
    rw [textOver, column, rest, rdropWhile_cons_filled filled, unset, List.map_cons, share,
      joins.text, pushed, intercalate_append_cons]
    rfl

/-- Whether a further line fits behind the one that has set the column. -/
theorem fitsOver_first {lead : List Line} (unset : block.baseline = none)
    (blank : ∀ line ∈ lead, block.isBlankLine line = true) {first : Line}
    (filled : block.isBlankLine first = false) (lines : List Line) :
    block.FitsOver tab (lead ++ first :: lines) ↔
      ∀ line ∈ block.filled lines, block.startOf tab first ≤ block.startOf tab line := by
  rw [FitsOver, columnOver, unset, filled_lead_append blank filled]
  simp [AreFlush]

/-- A line joins a text if it fits over the lines of the text. -/
theorem concat (h : Gathered tab block lines more) (fresh : block.IsFresh)
    (fits : block.FitsOver tab (lines ++ [line])) :
    ∃ next, more.add tab line = .ok next ∧ Gathered tab block (lines ++ [line]) next := by
  cases h with
  | @column base _ _ set joins =>
    cases here : block.isBlankLine line with
    | true =>
      obtain ⟨next, added, joins⟩ := joins.concat_blank here
      exact ⟨next, added, .column set joins⟩
    | false =>
      rw [FitsOver, filled_concat here, areFlush_concat, columnOver, set] at fits
      obtain ⟨next, added, joins⟩ := joins.concat_filled here ((joins.admits_iff line).2 fits.2)
      exact ⟨next, added, .column set joins⟩
  | blank unset blank =>
    cases here : block.isBlankLine line with
    | true =>
      have all : ∀ blank ∈ lines ++ [line], block.isBlankLine blank = true :=
        List.forall_mem_append.2 ⟨blank, List.forall_mem_singleton.2 here⟩
      refine ⟨_, add_blank here, ?_⟩
      convert Gathered.blank unset all using 1
      simp [unset, fresh.blanks, Nat.add_assoc]
    | false =>
      refine ⟨_, add_filled here ?_, .first unset blank here ?_⟩
      · simp [admits, unset, startOf, isMarked]
      · simp only [unset]
        exact .nil rfl rfl
  | @first lead lines first more unset blank filled joins =>
    rw [List.append_assoc, List.cons_append] at fits ⊢
    cases here : block.isBlankLine line with
    | true =>
      obtain ⟨next, added, joins⟩ := joins.concat_blank here
      exact ⟨next, added, .first unset blank filled joins⟩
    | false =>
      have flush := (fitsOver_first unset blank filled _).1 fits line
      rw [filled_concat here] at flush
      have admitted := (joins.admits_iff line).2 (.inl (flush (by simp)))
      obtain ⟨next, added, joins⟩ := joins.concat_filled here admitted
      exact ⟨next, added, .first unset blank filled joins⟩

/-- A line is refused if it does not fit over the lines that a text has taken. -/
theorem refused (h : Gathered tab block lines more) (fits : block.FitsOver tab lines)
    (unfit : ¬ block.FitsOver tab (lines ++ [line])) :
    more.add tab line = .error .unexpectedTextIndentation := by
  have here : block.isBlankLine line = false := by
    refine Bool.eq_false_iff.2 fun blank => unfit ?_
    rwa [FitsOver, columnOver, filled_concat_blank blank]
  cases h with
  | @column base _ _ set joins =>
    rw [FitsOver, columnOver, set] at fits
    rw [FitsOver, filled_concat here, areFlush_concat, columnOver, set] at unfit
    have left : ¬ more.admits tab base line = true := by
      rw [joins.admits_iff]
      exact fun admitted => unfit ⟨fits, admitted⟩
    refine add_refused ((isBlankLine_of_kind joins.kind line).trans here) ?_
    rw [joins.column]
    exact Bool.eq_false_iff.2 left
  | blank unset blank =>
    refine absurd ?_ unfit
    rw [fitsOver_first unset blank here]
    simp [filled]
  | @first lead lines first more unset blank filled joins =>
    rw [fitsOver_first unset blank filled] at fits
    rw [List.append_assoc, List.cons_append, fitsOver_first unset blank filled,
      filled_concat here] at unfit
    have left : ¬ more.admits tab (block.startOf tab first) line = true := by
      rw [joins.admits_iff]
      rintro (flush | ⟨⟨started, -⟩, -⟩)
      · refine unfit fun other mem => ?_
        obtain mem | mem := List.mem_append.1 mem
        · exact fits other mem
        · rwa [List.mem_singleton.1 mem]
      · cases started
    refine add_refused ((isBlankLine_of_kind joins.kind line).trans here) ?_
    rw [joins.column]
    exact Bool.eq_false_iff.2 left

end Gathered

theorem gathered_nil (fresh : block.IsFresh) : Gathered tab block [] block := by
  cases set : block.baseline with
  | none => exact .blank set (List.forall_mem_nil _)
  | some base => exact .column set (.nil set fresh.blanks)

/-- What fits over some lines fits over those it starts with. -/
theorem FitsOver.front (fits : block.FitsOver tab (lines ++ [line])) : block.FitsOver tab lines := by
  cases here : block.isBlankLine line with
  | true => rwa [FitsOver, columnOver, filled_concat_blank here] at fits
  | false =>
    rw [FitsOver, columnOver, filled_concat here] at fits
    rw [FitsOver, columnOver]
    cases h : block.filled lines with
    | nil => trivial
    | cons first others =>
      rw [h, areFlush_concat] at fits
      exact fits.1

/-- A text takes all lines that it fits over. -/
theorem exists_gathered (fresh : block.IsFresh) (fits : block.FitsOver tab lines) :
    ∃ more, lines.foldlM (add · tab) block = .ok more ∧ Gathered tab block lines more := by
  induction lines using List.reverseRecOn with
  | nil => exact ⟨block, rfl, gathered_nil fresh⟩
  | append_singleton lines line ih =>
    obtain ⟨more, run, gathered⟩ := ih fits.front
    obtain ⟨next, added, gathered⟩ := gathered.concat fresh fits
    refine ⟨next, ?_, gathered⟩
    rw [List.foldlM_append, run]
    change more.add tab line >>= pure = _
    rw [added]
    rfl

/-- Lines that do not fit have a first one that does not. -/
theorem exists_unfit (unfit : ¬ block.FitsOver tab lines) :
    ∃ before line after, lines = before ++ line :: after ∧ block.FitsOver tab before ∧
      ¬ block.FitsOver tab (before ++ [line]) := by
  induction lines using List.reverseRecOn with
  | nil => exact absurd trivial unfit
  | append_singleton lines line ih =>
    by_cases fits : block.FitsOver tab lines
    · exact ⟨lines, line, [], rfl, fits, unfit⟩
    · obtain ⟨before, first, after, rfl, front⟩ := ih fits
      exact ⟨before, first, after ++ [line], by simp, front⟩

end TextBlock

namespace State

variable {settings : Settings} {s : State} {block more : TextBlock} {lines : List Line}

/-- A text that takes all of some lines is all that changes. -/
theorem foldlM_text (under : s.phase = .text block)
    (taken : ∀ line ∈ lines, block.takes settings.tabSize s.builder.width line = true)
    (run : lines.foldlM (TextBlock.add · settings.tabSize) block = .ok more) :
    lines.foldlM (feed settings) s =
      .ok { s with number := s.number + lines.length, phase := .text more } := by
  induction lines generalizing s block with
  | nil =>
    cases run
    rw [← under]
    rfl
  | cons line lines ih =>
    obtain ⟨here, below⟩ := List.forall_mem_cons.1 taken
    rw [List.foldlM_cons] at run ⊢
    cases added : block.add settings.tabSize line with
    | error cause =>
      rw [added] at run
      cases run
    | ok next =>
      rw [added] at run
      have fed : s.feed settings line =
          .ok { s with number := s.number + 1, phase := .text next } := by
        simp only [feed, under, here, if_true, added]
        rfl
      have kind : next.takes settings.tabSize s.builder.width =
          block.takes settings.tabSize s.builder.width :=
        TextBlock.takes_of_kind (TextBlock.kind_add added) _ _
      rw [fed]
      refine (ih (s := { s with number := s.number + 1, phase := .text next }) rfl ?_ run).trans ?_
      · simpa only [kind] using below
      · simp [Nat.add_assoc, Nat.add_comm 1]

/-- The state in which a text leaves a reading that has come to so many more lines: the text is
placed unless it is empty, and behind it the line ends that it owes. -/
def afterText (s : State) (text : List Char) (breaks count : Nat) : State :=
  { s with
    number := s.number + count
    builder := placeBreaks breaks
      (if text.isEmpty then s.builder else s.builder.place (.interpolate (String.ofList text)))
    phase := .ready }

theorem settle_eq (s : State) (block : TextBlock) (count : Nat) (phase : Phase) :
    { s with number := s.number + count, phase := phase }.settle block =
      s.afterText block.text block.breaks count := by
  unfold settle afterText
  simp only
  split <;> rfl

/-- A text is over where a line comes that it does not take, or none. -/
theorem rest_of_text (under : s.phase = .text block) (settings : Settings)
    (passed : ∀ line ∈ lines.head?, ¬ block.takes settings.tabSize s.builder.width line = true) :
    lines.foldlM (feed settings) s >>= finish =
      lines.foldlM (feed settings) (s.settle block) >>= finish := by
  cases lines with
  | nil =>
    change s.finish = (s.settle block).finish
    simp only [finish, under, settle]
  | cons line lines =>
    have passed := passed line rfl
    have before : s.beforeDispatch? settings line = some (s.settle block) := by
      rw [beforeDispatch?, under]
      exact if_neg passed
    have fed : s.feed settings line = (s.settle block).feed settings line := by
      rw [feed_of_beforeDispatch before (by simp [under])]
      rfl
    rw [List.foldlM_cons, List.foldlM_cons, fed]

end State

theorem isFresh_startAt (column : Nat) (text : List Char) : (TextBlock.startAt column text).IsFresh :=
  ⟨rfl, rfl⟩

theorem isFresh_empty (verbatim : Bool) (breaks : Nat) : (TextBlock.empty verbatim breaks).IsFresh :=
  ⟨rfl, rfl⟩

namespace State

theorem phase_takeCode (s : State) (owner : CodeOwner) (segments : List (List Char)) (line : Line)
    (cs : List Char) (block : TextBlock) :
    (s.takeCode owner segments line cs).phase ≠ .text block := by
  unfold takeCode
  simp only
  split
  · nofun
  · nofun

variable {settings : Settings} {s t : State} {line : Line} {block : TextBlock}

theorem isFresh_takeTail {tab : Nat} {tag : TagHead} {tail : Tail}
    (under : (s.takeTail tab tag line tail).phase = .text block) : block.IsFresh := by
  cases tail with
  | output mark cs => exact absurd under (phase_takeCode s _ _ _ _ _)
  | void | block => cases under
  | text inline =>
    cases under
    exact isFresh_startAt _ _

theorem isFresh_takeAttributes {tab : Nat} {tag : TagHead} {close : Option Char}
    {cs : List Char} (h : s.takeAttributes tab tag close line cs = .ok t)
    (under : t.phase = .text block) : block.IsFresh := by
  obtain ⟨attrs, rest, -, ⟨bracket, -, rfl⟩ | ⟨angle, behind, tail, -, -, rfl⟩⟩ :=
    takeAttributes_cases h
  · cases under
  · exact isFresh_takeTail under

theorem isFresh_takeHead {head : Head} (h : takeHead settings s line head = .ok t)
    (under : t.phase = .text block) : block.IsFresh := by
  cases head with
  | tag name cs =>
    obtain ⟨close, inner, -, same⟩ := takeTag_eq settings.tabSize
      ((name.map String.ofList).getD settings.defaultTag) line cs
    exact isFresh_takeAttributes ((same _).symm.trans h) under
  | control cs | output mark cs =>
    cases h
    exact absurd under (phase_takeCode _ _ _ _ _ _)
  | embedded engine =>
    cases h
    cases under
    exact isFresh_empty _ _
  | comment spaced cs | text glued cs =>
    cases h
    cases under
    split
    · exact isFresh_empty _ _
    · exact isFresh_startAt _ _
  | conditional condition | remark | doctype value =>
    cases h
    cases under
  | unknown rest => cases h

theorem isFresh_dispatch (h : s.dispatch settings line = .ok t) (under : t.phase = .text block) :
    block.IsFresh := by
  obtain ⟨-, rfl⟩ | ⟨builder, moved, -, -, taken⟩ := dispatch_cases h
  · cases under
  · exact isFresh_takeHead taken under

/-- A text that is under way behind a line has taken it or is fresh. -/
theorem joined_or_isFresh (step : Step settings line s t) (under : t.phase = .text block) :
    (∃ before, s.phase = .text before ∧
      before.takes settings.tabSize s.builder.width line = true) ∨ block.IsFresh := by
  cases step with
  | blank start _ =>
    change s.phase = _ at under
    rw [start] at under
    cases under
  | header => cases under
  | code owner segments last _ => exact absurd under (phase_takeCode _ _ _ _ _ _)
  | attributes t tag close _ taken => exact .inr (isFresh_takeAttributes taken under)
  | text before more opened joined _ => exact .inl ⟨before, opened, joined⟩
  | remark opened _ =>
    change s.phase = _ at under
    rw [opened] at under
    cases under
  | dispatch u t _ taken => exact .inr (isFresh_dispatch taken under)

/-- The lines that a text takes are gathered, and where it ends it is placed. -/
theorem foldlM_fit {lines rest : List Line} (under : s.phase = .text block) (fresh : block.IsFresh)
    (taken : ∀ line ∈ lines, block.takes settings.tabSize s.builder.width line = true)
    (passed : ∀ line ∈ rest.head?, ¬ block.takes settings.tabSize s.builder.width line = true)
    (fits : block.FitsOver settings.tabSize lines) :
    (∃ more, lines.foldlM (feed settings) s =
      .ok { s with number := s.number + lines.length, phase := .text more }) ∧
    (lines ++ rest).foldlM (feed settings) s >>= finish =
      rest.foldlM (feed settings) (s.afterText (block.textOver settings.tabSize lines)
        (block.breaks + lines.length) lines.length) >>= finish := by
  obtain ⟨more, run, gathered⟩ := TextBlock.exists_gathered fresh fits
  have fed := foldlM_text under taken run
  refine ⟨⟨more, fed⟩, ?_⟩
  have passed : ∀ line ∈ rest.head?,
      ¬ more.takes settings.tabSize s.builder.width line = true := by
    rwa [TextBlock.takes_of_kind gathered.kind]
  rw [List.foldlM_append, fed]
  refine (rest_of_text (s := { s with
    number := s.number + lines.length, phase := .text more }) rfl settings passed).trans ?_
  rw [settle_eq, gathered.text fresh, gathered.breaks]

/-- The first line that a text takes but that does not stand at its column is refused. -/
theorem foldlM_unfit {lines rest : List Line} (under : s.phase = .text block)
    (fresh : block.IsFresh)
    (taken : ∀ line ∈ lines, block.takes settings.tabSize s.builder.width line = true)
    (unfit : ¬ block.FitsOver settings.tabSize lines) :
    ∃ before line after, lines = before ++ line :: after ∧
      block.FitsOver settings.tabSize before ∧
      ¬ block.FitsOver settings.tabSize (before ++ [line]) ∧
      (lines ++ rest).foldlM (feed settings) s =
        .error ⟨.before .unexpectedTextIndentation (s.number + before.length + 1) line
          (trimLeft line), s.builder.log⟩ := by
  obtain ⟨before, line, after, rfl, front, first⟩ := TextBlock.exists_unfit unfit
  refine ⟨before, line, after, rfl, front, first, ?_⟩
  obtain ⟨more, run, gathered⟩ := TextBlock.exists_gathered fresh front
  have fed := foldlM_text under (fun line mem => taken line (by simp [mem])) run
  have joined : more.takes settings.tabSize s.builder.width line = true := by
    rw [TextBlock.takes_of_kind gathered.kind]
    exact taken line (by simp)
  have refused := gathered.refused front first
  rw [List.append_assoc, List.foldlM_append, fed]
  change (feed settings _ line >>= _) = _
  simp only [feed, joined, if_true, refused]
  rfl

end State

/-- A text takes the longest run of lines that are blank or deeper than the level around it. If
they stand at its column it takes them all, places what they come to and their line ends, does
nothing else to the tree, and leaves the line behind them to be read like any other. If not, the
first that does not is a fault, and nothing has been placed. -/
theorem text_collected (settings : Settings) {s : State} {block : TextBlock}
    (under : s.phase = .text block) (fresh : block.IsFresh) (lines : List Line) :
    let taken := lines.takeWhile (block.takes settings.tabSize s.builder.width)
    let rest := lines.dropWhile (block.takes settings.tabSize s.builder.width)
    (block.FitsOver settings.tabSize taken →
      (∃ more, taken.foldlM (State.feed settings) s =
        .ok { s with number := s.number + taken.length, phase := .text more }) ∧
      lines.foldlM (State.feed settings) s >>= State.finish =
        rest.foldlM (State.feed settings) (s.afterText (block.textOver settings.tabSize taken)
          (block.breaks + taken.length) taken.length) >>= State.finish) ∧
    (¬ block.FitsOver settings.tabSize taken →
      ∃ before line after, taken = before ++ line :: after ∧
        block.FitsOver settings.tabSize before ∧
        ¬ block.FitsOver settings.tabSize (before ++ [line]) ∧
        lines.foldlM (State.feed settings) s =
          .error ⟨.before .unexpectedTextIndentation (s.number + before.length + 1) line
            (trimLeft line), s.builder.log⟩) := by
  intro taken rest
  have split : lines = taken ++ rest := List.takeWhile_append_dropWhile.symm
  have deep : ∀ line ∈ taken, block.takes settings.tabSize s.builder.width line = true :=
    fun line => List.mem_takeWhile_imp
  have passed : ∀ line ∈ rest.head?,
      ¬ block.takes settings.tabSize s.builder.width line = true := by
    intro line mem
    have stop := List.head?_dropWhile_not (block.takes settings.tabSize s.builder.width) lines
    rw [Option.mem_def.1 mem] at stop
    exact Bool.eq_false_iff.1 stop
  constructor
  · intro fits
    rw [split]
    exact State.foldlM_fit under fresh deep passed fits
  · intro unfit
    rw [split]
    exact State.foldlM_unfit under fresh deep unfit

/-- What comes of a text is settled by the lines below the one that opens it. Where no text took that
line, the text under way behind it is placed with all lines that it takes, or the first of them that
does not stand at its column is a fault. -/
theorem text_below {settings : Settings} {s t : State} {block : TextBlock} {line : Line}
    (opened : s.feed settings line = .ok t) (under : t.phase = .text block)
    (own : ∀ before, s.phase = .text before →
      before.takes settings.tabSize s.builder.width line = false) {lines rest : List Line}
    (taken : ∀ line ∈ lines, block.takes settings.tabSize t.builder.width line = true)
    (passed : ∀ line ∈ rest.head?, ¬ block.takes settings.tabSize t.builder.width line = true) :
    (block.FitsOver settings.tabSize lines →
      (line :: (lines ++ rest)).foldlM (State.feed settings) s >>= State.finish =
        rest.foldlM (State.feed settings) (t.afterText (block.textOver settings.tabSize lines)
          (block.breaks + lines.length) lines.length) >>= State.finish) ∧
    (¬ block.FitsOver settings.tabSize lines →
      ∃ before wrong after, lines = before ++ wrong :: after ∧
        block.FitsOver settings.tabSize before ∧
        ¬ block.FitsOver settings.tabSize (before ++ [wrong]) ∧
        (line :: (lines ++ rest)).foldlM (State.feed settings) s =
          .error ⟨.before .unexpectedTextIndentation (t.number + before.length + 1) wrong
            (trimLeft wrong), t.builder.log⟩) := by
  obtain ⟨before, waiting, joined⟩ | fresh :=
    State.joined_or_isFresh (State.step_of_feed opened) under
  · rw [own before waiting] at joined
    cases joined
  · rw [List.foldlM_cons, opened]
    constructor
    · intro fits
      exact (State.foldlM_fit under fresh taken passed fits).2
    · intro unfit
      exact State.foldlM_unfit under fresh taken unfit

/-- The first line may start one column short with a marker, the second may not. -/
theorem text_collected_marker :
    let s : State := { number := 1, phase := .text (.startAt 4 "one".toList) }
    (List.foldlM (State.feed {}) s
        ["  >two # x".toList, [], "     three".toList, " ".toList, "<b".toList] >>= State.finish =
      List.foldlM (State.feed {}) (s.afterText "one\ntwo \n\n three".toList 5 4) ["<b".toList] >>=
        State.finish) ∧
    List.foldlM (State.feed {}) s ["    two".toList, "  >three".toList, "<b".toList] =
      .error ⟨⟨.unexpectedTextIndentation, 3, "  >three".toList, 2⟩, []⟩ := by
  intro s
  have main := text_collected {} (s := s) rfl (isFresh_startAt 4 "one".toList)
  constructor
  · exact ((main _).1 (by decide)).2
  · obtain ⟨before, line, after, split, fits, unfit, refused⟩ :=
      (main ["    two".toList, "  >three".toList, "<b".toList]).2 (by decide)
    have taken : ["    two".toList, "  >three".toList] = before ++ line :: after := split
    rcases before with _ | ⟨_, _ | ⟨_, before⟩⟩
    · cases taken
      exact absurd (by decide) unfit
    · cases taken
      exact refused
    · simp at taken

end TemplateMarkup
