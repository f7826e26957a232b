import TemplateMarkup.Proofs.Cursor.Reading

/-! Columns and machine words. What a reading keeps in columns, it has from lines that it read: the
width of a level is the indentation of a line, and the column of a text is within what can come of
one. So if no line goes beyond what a machine word holds, no sum does, and words that wrap around
come to the reading that numbers come to. -/
namespace TemplateMarkup
open Builder

namespace Builder

variable {b c : Builder}

theorem widths_fills (fills : Fills b c) :
    c.levels.map Level.width = b.levels.map Level.width := by
  induction fills with
  | refl => rfl
  | tail _ fill ih =>
    cases fill with
    | place node leaf => rw [place, levels_record, widths_add, ih]
    | begin owner idle => exact ih

/-- The width of each level is the indentation of some line. -/
def WidthsOf (tab : Nat) (lines : List Line) (b : Builder) : Prop :=
  ∀ width ∈ b.levels.map Level.width, ∃ line ∈ lines, width = indentWidth tab line

/-- A line that is fitted to the open blocks adds no width but its own. -/
theorem widths_align {width w : Nat} {moved : Bool} (fit : b.align width = .ok (c, moved))
    (mem : w ∈ c.levels.map Level.width) : w = width ∨ w ∈ b.levels.map Level.width := by
  obtain ⟨block, -, -, -, rfl⟩ | ⟨-, rfl, -, -⟩ := align_cases fit
  · simpa using mem
  · rw [widths_cutTo] at mem
    exact .inr ((List.dropWhile_sublist _).subset mem)

end Builder

/-- A line that joins a text may set its column, to where its own text starts. -/
theorem TextBlock.baseline_add {block more : TextBlock} {tab base : Nat} {line : Line}
    (added : block.add tab line = .ok more) (column : more.baseline = some base) :
    block.baseline = some base ∨ base = block.startOf tab line := by
  unfold add at added
  split at added
  · cases added
    exact .inl column
  · simp only at added
    split at added
    · cases added
      cases known : block.baseline with
      | none =>
        rw [known] at column
        exact .inr (Option.some.inj column).symm
      | some n =>
        rw [known] at column
        exact .inl column
    · cases added

namespace State

/-- A text that goes on has its column within some bound. -/
def TextWithin (bound : Nat) (s : State) : Prop :=
  ∀ block base, s.phase = .text block → block.baseline = some base → base ≤ bound

variable {settings : Settings} {s t : State} {line : Line} {cs : List Char} {bound tab : Nat}

theorem textWithin_takeText {block : TextBlock}
    (column : ∀ base, block.baseline = some base → base ≤ bound) :
    (s.takeText block).TextWithin bound := by
  rintro _ base ⟨⟩
  exact column base

theorem textWithin_takeCode (s : State) (owner : CodeOwner) (segments : List (List Char))
    (line : Line) (cs : List Char) : (s.takeCode owner segments line cs).TextWithin bound := by
  intro block base under
  unfold takeCode at under
  simp only at under
  split at under <;> cases under

theorem textWithin_takeTail (s : State) (tab : Nat) (tag : TagHead) (line : Line) (tail : Tail) :
    (s.takeTail tab tag line tail).TextWithin (extent tab line) := by
  cases tail with
  | output mark code => exact textWithin_takeCode _ _ _ _ _
  | void | block =>
    intro block base under
    cases under
  | text inline =>
    refine textWithin_takeText ?_
    rintro _ ⟨⟩
    have inside := columnAfter_le_extent tab (line.take (line.length - inline.length))
      (line.drop (line.length - inline.length))
    rwa [List.take_append_drop] at inside

theorem textWithin_takeAttributes {tag : TagHead} {close : Option Char}
    (taken : s.takeAttributes tab tag close line cs = .ok t) : t.TextWithin (extent tab line) := by
  obtain ⟨attrs, rest, -, ⟨bracket, -, rfl⟩ | ⟨angle, behind, tail, -, -, rfl⟩⟩ :=
    takeAttributes_cases taken
  · intro block base under
    cases under
  · exact textWithin_takeTail _ _ _ _ _

theorem textWithin_takeHead (left : cs <:+ line)
    (around : s.builder.width ≤ indentWidth settings.tabSize line)
    (taken : takeHead settings s line (Head.read cs) = .ok t) :
    t.TextWithin (extent settings.tabSize line) := by
  have opens := Head.opens_read cs
  cases read : Head.read cs with
  | control code =>
    rw [read] at taken
    cases taken
    exact textWithin_takeCode _ _ _ _ _
  | output mark code =>
    rw [read] at taken
    cases taken
    exact textWithin_takeCode _ _ _ _ _
  | tag name rest =>
    rw [read, takeHead, takeTag_openList] at taken
    exact textWithin_takeAttributes taken
  | comment spaced text =>
    rw [read] at taken opens
    cases taken
    have inside := add_le_extent left around opens.length_comment
    refine textWithin_takeText fun base column => ?_
    split at column
    · cases column
    · cases column
      change s.builder.width + 2 + (if spaced then 1 else 0) ≤ _
      omega
  | text glued text =>
    rw [read] at taken opens
    cases taken
    have inside := add_le_extent left around opens.length_text
    refine textWithin_takeText fun base column => ?_
    split at column
    · cases column
    · cases column
      cases glued with
      | false => simpa [Scan.width_separate] using inside
      | true => exact inside
  | embedded =>
    rw [read] at taken
    cases taken
    refine textWithin_takeText ?_
    rintro _ ⟨⟩
  | conditional | remark | doctype =>
    rw [read] at taken
    cases taken
    intro block base under
    cases under
  | unknown rest =>
    rw [read] at taken
    cases taken

/-- What a state keeps in columns comes of some of the lines. -/
structure Measured (tab : Nat) (lines : List Line) (s : State) : Prop where
  widths : s.builder.WidthsOf tab lines
  column : ∀ block base, s.phase = .text block → block.baseline = some base →
    ∃ line ∈ lines, base ≤ extent tab line

variable {lines : List Line}

/-- A line that only fills a block keeps every width, and it may set the column of a text. -/
theorem measured_fill (here : line ∈ lines) (widths : s.builder.WidthsOf tab lines)
    (fills : Fills s.builder t.builder) (inside : t.TextWithin (extent tab line)) :
    t.Measured tab lines where
  widths := by
    rw [WidthsOf, widths_fills fills]
    exact widths
  column block base under column := ⟨line, here, inside block base under column⟩

theorem measured_dispatch (here : line ∈ lines)
    (widths : s.builder.WidthsOf settings.tabSize lines)
    (taken : s.dispatch settings line = .ok t) : t.Measured settings.tabSize lines := by
  obtain ⟨-, rfl⟩ | ⟨builder, moved, -, fit, taken⟩ := dispatch_cases taken
  · refine measured_fill here widths (.single (.place _ _ .newline)) ?_
    intro block base under
    cases under
  · have idle : builder.awaiting = none := awaiting_align fit
    have outcome := outcome_takeHead (s := s.fitted settings line builder moved) idle settings line
      (Head.read (trimLeft line))
    have around : builder.width ≤ indentWidth settings.tabSize line := (width_align fit).le
    have inside := textWithin_takeHead (s := s.fitted settings line builder moved)
      (trimLeft_suffix line) around taken
    rw [taken] at outcome
    cases outcome with
    | ok fills number steady =>
      refine measured_fill here (fun width mem => ?_) fills inside
      obtain rfl | known := widths_align fit mem
      · exact ⟨line, here, rfl⟩
      · exact widths width known

/-- One line. -/
theorem measured_step (steady : s.Steady)
    (measured : s.Measured settings.tabSize lines) (here : line ∈ lines)
    (step : Step settings line s t) : t.Measured settings.tabSize lines := by
  obtain ⟨widths, columns⟩ := measured
  cases step with
  | blank start blank =>
    refine measured_fill here widths (.single (.place _ _ .newline)) fun block base under => ?_
    cases start.symm.trans under
  | header value rest start found clean =>
    refine measured_fill here widths (fills_place_breakLine _ (.doctype _)) fun block base under => ?_
    cases under
  | code owner segments last under =>
    have idle := steady (by rw [under]; rfl)
    have outcome := outcome_takeCode (s := { s with number := s.number + 1 }) idle owner segments line
      line
    cases outcome with
    | ok fills number onward =>
      exact measured_fill here widths fills (textWithin_takeCode _ _ _ _ _)
  | attributes t tag close under taken =>
    have idle := steady (by rw [under]; rfl)
    have outcome := outcome_takeAttributes (s := { s with number := s.number + 1 }) idle
      settings.tabSize tag (some close) line line
    rw [taken] at outcome
    cases outcome with
    | ok fills number onward =>
      exact measured_fill here widths fills (textWithin_takeAttributes taken)
  | text block more under joined taken =>
    refine ⟨widths, ?_⟩
    rintro _ base ⟨⟩ column
    obtain known | rfl := TextBlock.baseline_add taken column
    · exact columns block base under known
    · exact ⟨line, here, block.startOf_le_extent settings.tabSize line⟩
  | remark under inside =>
    refine measured_fill here widths (.single (.place _ _ .newline)) fun block base other => ?_
    cases under.symm.trans other
  | dispatch u t before taken =>
    refine measured_dispatch (s := { u with number := u.number + 1 }) here ?_ taken
    rw [WidthsOf, widths_fills (fills_beforeDispatch before).1]
    exact widths

/-- Any number of lines. -/
theorem measured_foldlM (run : lines.foldlM (feed settings) {} = .ok s) :
    s.Measured settings.tabSize lines := by
  have start : ({} : State).Measured settings.tabSize lines := by
    refine ⟨fun width mem => absurd mem List.not_mem_nil, ?_⟩
    intro block base under
    cases under
  have whole : lines ++ [] ⊆ lines := by simp
  have run := @run_induction settings
    (fun more s => more ⊆ lines ∧ s.Measured settings.tabSize lines) ?_ lines [] {} s steady_start
    ⟨whole, start⟩ run
  · exact run.2
  · intro line more s t steady ⟨inside, measured⟩ step
    obtain ⟨here, onward⟩ := List.cons_subset.1 inside
    exact ⟨onward, measured_step steady measured here step⟩

end State

theorem sums_le {settings : Settings} {source : String} {word : Nat → Nat} {bound n : Nat}
    (holds : Holds word bound)
    (inside : ∀ line ∈ linesOf source.toList, extent settings.tabSize line ≤ bound)
    (mem : .sum n ∈ (scanTemplate word settings source).touches) : n ≤ bound :=
  ((scanTemplate_sound word inside).1 _ mem).within n rfl holds

/-- If the indentation and the characters of no line come to more columns than a word of 64 bits
holds, no sum of columns does, nor does a width or a column that is kept at any moment of the
reading. So nothing is lost with words that wrap around: they come to the reading that numbers come
to. -/
theorem wrapped_reading (settings : Settings) (source : String)
    (small : ∀ line ∈ linesOf source.toList, extent settings.tabSize line < 2 ^ 64) :
    (∀ word ∈ [id, wrap], ∀ n, .sum n ∈ (scanTemplate word settings source).touches → n < 2 ^ 64) ∧
    (∀ lines s, lines <+: linesOf source.toList → lines.foldlM (State.feed settings) {} = .ok s →
      (∀ level ∈ s.builder.levels, level.width < 2 ^ 64) ∧
      ∀ block base, s.phase = .text block → block.baseline = some base → base < 2 ^ 64) ∧
    (scanTemplate wrap settings source).reading = (scanTemplate id settings source).reading ∧
    (scanTemplate id settings source).reading =
      some (readLines settings (linesOf source.toList)) := by
  have inside : ∀ line ∈ linesOf source.toList, extent settings.tabSize line ≤ 2 ^ 64 - 1 :=
    fun line mem => Nat.le_sub_one_of_lt (small line mem)
  have wraps : Holds wrap (2 ^ 64 - 1) := holds_wrap (by decide)
  obtain ⟨-, -, counted⟩ := scanTemplate_sound id inside
  obtain ⟨-, -, wrapped⟩ := scanTemplate_sound wrap inside
  refine ⟨?_, ?_, ?_, counted (holds_id _)⟩
  · intro word mem n sum
    have holds : Holds word (2 ^ 64 - 1) := by
      obtain rfl | rfl : word = id ∨ word = wrap := by simpa using mem
      · exact holds_id _
      · exact wraps
    exact Nat.lt_of_le_sub_one (by decide) (sums_le holds inside sum)
  · intro lines s front run
    have measured := State.measured_foldlM run
    have below (line : Line) (mem : line ∈ lines) : extent settings.tabSize line < 2 ^ 64 :=
      small line (front.subset mem)
    constructor
    · intro level mem
      obtain ⟨line, here, width⟩ := measured.widths _ (List.mem_map_of_mem mem)
      rw [width]
      exact (indentWidth_le_extent _ line).trans_lt (below line here)
    · intro block base under column
      obtain ⟨line, here, within⟩ := measured.column block base under column
      exact within.trans_lt (below line here)
  · rw [wrapped wraps, counted (holds_id _)]

/-- With tabs so wide that one more character behind them would be one too many. -/
theorem wrapped_reading_wide :
    let settings : Settings := { tabSize := 2 ^ 64 - 4 }
    let source := "- a\n\t>b"
    (∀ line ∈ linesOf source.toList, extent settings.tabSize line < 2 ^ 64) ∧
    (∀ n, .sum n ∈ (scanTemplate wrap settings source).touches → n < 2 ^ 64) ∧
    .sum (2 ^ 64 - 3) ∈ (scanTemplate wrap settings source).touches ∧
    (∃ s, (linesOf source.toList).foldlM (State.feed settings) {} = .ok s ∧ s.builder.levels ≠ [] ∧
      ∀ level ∈ s.builder.levels, level.width < 2 ^ 64) ∧
    (scanTemplate wrap settings source).reading =
      some (readLines settings (linesOf source.toList)) := by
  have small : ∀ line ∈ linesOf "- a\n\t>b".toList, extent (2 ^ 64 - 4) line < 2 ^ 64 := by decide
  obtain ⟨sums, kept, same, counted⟩ := wrapped_reading { tabSize := 2 ^ 64 - 4 } _ small
  refine ⟨small, sums wrap (by simp), by decide +kernel, ⟨_, rfl, ?_, ?_⟩, same.trans counted⟩
  · exact List.cons_ne_nil _ _
  · exact (kept _ _ (List.prefix_refl _) rfl).1

/-- Two tabs of half the size of a word come to more than a word holds. -/
example :
    .sum (2 ^ 64) ∈ (scanTemplate id { tabSize := 2 ^ 63 } "- a\n\t\tb").touches := by
  decide +kernel

end TemplateMarkup
