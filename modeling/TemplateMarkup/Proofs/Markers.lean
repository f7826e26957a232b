import TemplateMarkup.Proofs.Passage.Joined
import TemplateMarkup.Proofs.Text.Remarks
import TemplateMarkup.Proofs.Text.Spans

/-! Markers in text. A line of a text that starts with a marker loses it where the marker stands at
the column of the text; behind indentation that belongs to the text, the marker belongs to it too. -/
namespace TemplateMarkup

variable {tab column : Nat} {line shown : List Char}

theorem isIndent_cases {c : Char} (indent : isIndent c = true) : c = ' ' ∨ c = '\t' := by
  simpa [isIndent] using indent

/-- Columns are dropped from the indentation alone. -/
theorem dropColumns_eq_append (tab n : Nat) (line : Line) :
    dropColumns tab n line = dropColumns tab n (line.takeWhile isIndent) ++ afterIndent line := by
  induction line generalizing n with
  | nil => cases n <;> rfl
  | cons c cs ih =>
    unfold afterIndent at ih ⊢
    cases n with
    | zero => simp only [dropColumns, List.takeWhile_append_dropWhile]
    | succ n =>
      cases indent : isIndent c with
      | true =>
        rw [List.takeWhile_cons_of_pos indent, List.dropWhile_cons_of_pos indent]
        obtain rfl | rfl := isIndent_cases indent
        · exact ih _
        · exact ih _
      | false =>
        have text : Stops isIndent (c :: cs) := stops_cons.2 indent
        rw [text.takeWhile_eq_nil, text.dropWhile_eq_self, dropColumns, dropColumns,
          columnsOf_eq_none indent]
        rfl

theorem dropColumns_indent (tab n : Nat) (line : Line) :
    ∀ c ∈ dropColumns tab n (line.takeWhile isIndent), isIndent c = true := by
  intro c hc
  exact List.mem_takeWhile_imp ((dropColumns_suffix tab n _).mem hc)

/-- Neither spaces nor tabs start a remark or keep one from starting. -/
theorem cutRemark_indent {front : List Char} (indent : ∀ c ∈ front, isIndent c = true)
    (cs : List Char) : cutRemark (front ++ cs) = front ++ cutRemark cs := by
  induction front with
  | nil => rfl
  | cons c front ih =>
    obtain ⟨first, rest⟩ := List.forall_mem_cons.1 indent
    have onward := ih rest
    unfold cutRemark at onward ⊢
    obtain rfl | rfl := isIndent_cases first
    · rw [List.cons_append, cutRemarkAfter_cons (by decide)]
      exact congrArg _ onward
    · rw [List.cons_append, cutRemarkAfter_cons (by decide)]
      exact congrArg _ onward

namespace TextBlock

variable {block more : TextBlock} {lines : List Line}

/-- The indentation of a line that belongs to a text at some column. -/
def beyond (tab column : Nat) (line : Line) : List Char :=
  dropColumns tab column (line.takeWhile isIndent)

/-- What a line with a marker contributes. -/
theorem bodyOf_marked (plain : block.verbatim = false) (marked : afterIndent line = '>' :: shown)
    (tab column : Nat) :
    block.bodyOf tab column line =
      if beyond tab column line = [] then cutRemark shown
      else beyond tab column line ++ '>' :: cutRemark shown := by
  have indent := dropColumns_indent tab column line
  rw [← beyond] at indent
  unfold bodyOf
  rw [plain, dropColumns_eq_append, ← beyond, marked]
  simp only [Bool.false_eq_true, if_false]
  cases h : beyond tab column line with
  | nil => rfl
  | cons c cs =>
    rw [h] at indent
    have other : c ≠ '>' := by
      rintro rfl
      cases indent '>' (by simp)
    have marker : cutRemark ('>' :: shown) = '>' :: cutRemark shown := by
      unfold cutRemark
      rw [cutRemarkAfter_cons (by decide)]
      rfl
    rw [if_neg (by simp), List.cons_append]
    split
    · next same => exact absurd (List.cons.inj same).1 other
    · rw [← List.cons_append, cutRemark_indent indent, marker]

/-- Lines that a text has taken fit, and are gathered in it. -/
theorem gathered_of_foldlM (fresh : block.IsFresh)
    (run : lines.foldlM (add · tab) block = .ok more) :
    block.FitsOver tab lines ∧ Gathered tab block lines more := by
  induction lines using List.reverseRecOn generalizing more with
  | nil =>
    cases run
    exact ⟨trivial, gathered_nil fresh⟩
  | append_singleton lines line ih =>
    rw [List.foldlM_append] at run
    cases taken : lines.foldlM (add · tab) block with
    | error cause =>
      rw [taken] at run
      cases run
    | ok mid =>
      rw [taken] at run
      change mid.add tab line >>= pure = _ at run
      rw [bind_pure] at run
      obtain ⟨fits, gathered⟩ := ih taken
      by_cases onward : block.FitsOver tab (lines ++ [line])
      · obtain ⟨next, added, gathered⟩ := gathered.concat fresh onward
        rw [run] at added
        cases added
        exact ⟨onward, gathered⟩
      · rw [gathered.refused fits onward] at run
        cases run

end TextBlock

namespace State

variable {settings : Settings} {s t : State} {block : TextBlock} {lines : List Line}

/-- Lines that belong to a text are taken by it alone. -/
theorem text_of_foldlM (under : s.phase = .text block)
    (joined : ∀ line ∈ lines, block.takes settings.tabSize s.builder.width line = true)
    (run : lines.foldlM (feed settings) s = .ok t) :
    ∃ more, lines.foldlM (TextBlock.add · settings.tabSize) block = .ok more ∧
      t = { s with number := s.number + lines.length, phase := .text more } := by
  induction lines generalizing s block with
  | nil =>
    cases run
    exact ⟨block, rfl, by rw [← under]; rfl⟩
  | cons line lines ih =>
    obtain ⟨here, below⟩ := List.forall_mem_cons.1 joined
    rw [List.foldlM_cons] at run ⊢
    simp only [feed, under, here, if_true] at run
    cases added : block.add settings.tabSize line with
    | error cause =>
      rw [added] at run
      cases run
    | ok next =>
      rw [added] at run
      have kind : next.takes settings.tabSize s.builder.width =
          block.takes settings.tabSize s.builder.width :=
        TextBlock.takes_of_kind (TextBlock.kind_add added) _ _
      obtain ⟨more, taken, same⟩ := ih (s := { s with number := s.number + 1, phase := .text next })
        rfl (by simpa only [kind] using below) run
      refine ⟨more, taken, same.trans ?_⟩
      simp [Nat.add_assoc, Nat.add_comm 1]

end State

/-- What becomes of a marker. When a text has taken some lines below the one that starts it, it is
the text over those lines, and is placed as such when it ends; and what a line with a marker
contributes to it is the part of its indentation beyond the column of the text, and behind the marker
its text without a remark. The marker is dropped just if there is no such indentation. -/
theorem marker_kept_beyond_column {settings : Settings} {s t : State} {block : TextBlock}
    {lines : List Line} (under : s.phase = .text block) (fresh : block.IsFresh)
    (plain : block.verbatim = false)
    (joined : ∀ line ∈ lines, block.takes settings.tabSize s.builder.width line = true)
    (run : lines.foldlM (State.feed settings) s = .ok t) :
    ∃ more, t.phase = .text more ∧
      t.settle more = s.afterText (block.textOver settings.tabSize lines)
        (block.breaks + lines.length) lines.length ∧
      ∀ line ∈ lines, block.isBlankLine line = false →
        ∀ shown, afterIndent line = '>' :: shown →
          let column := block.columnOver settings.tabSize lines
          let beyond := TextBlock.beyond settings.tabSize column line
          block.shareOf settings.tabSize column line =
            if beyond = [] then cutRemark shown else beyond ++ '>' :: cutRemark shown := by
  obtain ⟨more, taken, rfl⟩ := State.text_of_foldlM under joined run
  obtain ⟨-, gathered⟩ := TextBlock.gathered_of_foldlM fresh taken
  refine ⟨more, rfl, ?_, ?_⟩
  · rw [State.settle_eq, gathered.text fresh, gathered.breaks]
  · intro line _ filled shown marked column beyond
    have share : block.shareOf settings.tabSize column line =
        block.bodyOf settings.tabSize column line := by
      rw [TextBlock.shareOf, filled]
      rfl
    exact share.trans (TextBlock.bodyOf_marked plain marked settings.tabSize column)

/-- The first line starts at the column of the text with its marker, the second one behind it. -/
theorem marker_kept_beyond_column_both :
    let s : State := { number := 1, phase := .text (.startAt 3 "one".toList) }
    let block := TextBlock.startAt 3 "one".toList
    (∃ t more, ["  > two".toList, "     >three # x".toList].foldlM (State.feed {}) s = .ok t ∧
      t.settle more = s.afterText "one\n two\n  >three ".toList 3 2) ∧
    block.shareOf 4 3 "  > two".toList = " two".toList ∧
    block.shareOf 4 3 "     >three # x".toList = "  >three ".toList := by
  intro s block
  have under : s.phase = .text block := rfl
  obtain ⟨t, run⟩ : ∃ t, ["  > two".toList, "     >three # x".toList].foldlM (State.feed {}) s =
      .ok t := ⟨_, rfl⟩
  obtain ⟨more, -, settled, bodies⟩ :=
    marker_kept_beyond_column under (isFresh_startAt 3 _) rfl (by decide) run
  refine ⟨⟨t, more, run, settled⟩, ?_, ?_⟩
  · exact bodies _ (by simp) (by decide) " two".toList (by decide)
  · exact bodies _ (by simp) (by decide) "three # x".toList (by decide)

/-- So a marker reaches the text of a line that stands deeper than its column, here the column 0. -/
theorem marker_reaches_text :
    parse {} "a\n  >b" = .ok (.multi [.interpolate "a\n  >b", .newline, .newline]) ∧
    (TextBlock.startAt 0 "a".toList).shareOf 4 0 "  >b".toList ≠
      TextBlock.beyond 4 0 "  >b".toList ++ cutRemark "b".toList := by
  constructor
  · rfl
  · decide

end TemplateMarkup
