import TemplateMarkup.Text.Lines

/-! Lines and the texts they are cut from. -/
namespace TemplateMarkup

theorem newline_not_mem_closeLine {before : List Char} (h : '\n' ∉ before) :
    '\n' ∉ closeLine before := by
  unfold closeLine
  split <;> simp_all

theorem newline_not_mem_of_mem_linesFrom {before text : List Char} (h : '\n' ∉ before) {line : Line}
    (hline : line ∈ linesFrom before text) : '\n' ∉ line := by
  fun_induction linesFrom before text with
  | case1 before hempty => simp at hline
  | case2 before hempty =>
    obtain rfl : line = before.reverse := by simpa using hline
    simpa using h
  | case3 before text ih =>
    obtain rfl | hline := List.mem_cons.1 hline
    · exact newline_not_mem_closeLine h
    · exact ih (by simp) hline
  | case4 before c text hc ih => exact ih (by simp [h, Ne.symm hc]) hline

/-- A line holds no line break. -/
theorem newline_not_mem_of_mem_linesOf {text : List Char} {line : Line} (h : line ∈ linesOf text) :
    '\n' ∉ line :=
  newline_not_mem_of_mem_linesFrom (by simp) h

/-- Behind a text whose last line is ended, another text starts on a line of its own. -/
theorem linesOf_append_of_ended {text : List Char} (more : List Char)
    (ended : ∀ c ∈ text.getLast?, c = '\n') :
    linesOf (text ++ more) = linesOf text ++ linesOf more := by
  cases h : text.getLast? with
  | none =>
    obtain rfl := List.getLast?_eq_none_iff.1 h
    rfl
  | some c =>
    obtain rfl := ended c h
    obtain ⟨front, rfl⟩ := List.getLast?_eq_some_iff.1 h
    rw [List.append_assoc, List.singleton_append, linesOf_append]

/-- A line that can be written out and read back: it holds no line break, and no return at its
end that the line break would take along. -/
structure Line.IsPlain (line : Line) : Prop where
  unbroken : '\n' ∉ line
  noReturn : line.getLast? ≠ some '\r'

instance (line : Line) : Decidable line.IsPlain :=
  decidable_of_iff ('\n' ∉ line ∧ line.getLast? ≠ some '\r')
    ⟨fun h => ⟨h.1, h.2⟩, fun h => ⟨h.unbroken, h.noReturn⟩⟩

/-- What is closed loses at most a return at its end. -/
theorem prefix_closeLine (line : Line) : closeLine line.reverse <+: line := by
  unfold closeLine
  split
  · next before same =>
    rw [← List.reverse_reverse line, same, List.reverse_cons]
    exact List.prefix_append _ _
  · exact (List.reverse_reverse line).symm ▸ List.prefix_rfl

/-- Only the end of a line can spoil it, and line breaks anywhere. -/
theorem Line.IsPlain.append {line : Line} (plain : line.IsPlain) (filled : line ≠ [])
    {front : List Char} (unbroken : '\n' ∉ front) : Line.IsPlain (front ++ line) := by
  refine ⟨?_, ?_⟩
  · rw [List.mem_append, not_or]
    exact ⟨unbroken, plain.unbroken⟩
  · obtain ⟨last, hlast⟩ := Option.ne_none_iff_exists'.1 (mt List.getLast?_eq_none_iff.1 filled)
    rw [List.getLast?_append, hlast, Option.some_or, ← hlast]
    exact plain.noReturn

theorem closeLine_reverse {line : Line} (plain : line.IsPlain) : closeLine line.reverse = line := by
  unfold closeLine
  split
  · next before h =>
    have last : line = before.reverse ++ ['\r'] := by
      rw [← List.reverse_reverse line, h, List.reverse_cons]
    exact absurd (by rw [last, List.getLast?_concat]) plain.noReturn
  · exact List.reverse_reverse line

theorem linesFrom_line (before : List Char) {line : Line} (unbroken : '\n' ∉ line)
    (text : List Char) : linesFrom before (line ++ text) = linesFrom (line.reverse ++ before) text := by
  induction line generalizing before with
  | nil => rfl
  | cons c line ih =>
    rw [List.mem_cons, not_or] at unbroken
    rw [List.cons_append, linesFrom, ih _ unbroken.2]
    · simp
    · intro h
      exact unbroken.1 h.symm

/-- Behind a plain start, only the end of a line is closed. -/
theorem closeLine_append {front : Line} (plain : front.IsPlain) (line : Line) :
    closeLine (front ++ line).reverse = front ++ closeLine line.reverse := by
  rw [List.reverse_append]
  cases h : line.reverse with
  | nil =>
    rw [List.nil_append, closeLine_reverse plain]
    exact (List.append_nil front).symm
  | cons c before =>
    by_cases return_last : c = '\r'
    · subst return_last
      simp [closeLine]
    · simp [closeLine, return_last]

/-- The text of some lines, each of them ended. -/
def printLines (lines : List Line) : List Char := lines.flatMap (· ++ ['\n'])

/-- A line break ends a line, and a return in front of it goes along. -/
theorem linesOf_line {line : Line} (unbroken : '\n' ∉ line) (text : List Char) :
    linesOf (line ++ '\n' :: text) = closeLine line.reverse :: linesOf text := by
  rw [linesOf, linesFrom_line [] unbroken, List.append_nil, linesFrom]
  rfl

/-- The lines of a text whose lines may end with returns. -/
theorem linesOf_printLines_close {lines : List Line} (unbroken : ∀ line ∈ lines, '\n' ∉ line) :
    linesOf (printLines lines) = lines.map (closeLine ·.reverse) := by
  induction lines with
  | nil => rfl
  | cons line lines ih =>
    obtain ⟨here, onward⟩ := List.forall_mem_cons.1 unbroken
    rw [printLines, List.flatMap_cons, List.append_assoc, List.singleton_append, linesOf_line here,
      List.map_cons]
    exact congrArg (_ :: ·) (ih onward)

theorem map_closeLine {lines : List Line} (plain : ∀ line ∈ lines, line.IsPlain) :
    lines.map (closeLine ·.reverse) = lines := by
  rw [List.map_congr_left fun line hline => closeLine_reverse (plain line hline), List.map_id']

theorem linesOf_printLines {lines : List Line} (plain : ∀ line ∈ lines, line.IsPlain) :
    linesOf (printLines lines) = lines := by
  rw [linesOf_printLines_close fun line hline => (plain line hline).unbroken, map_closeLine plain]

/-- Lines that can be read back even if the last one is not ended. -/
inductive Printable : List Line → Prop
  | last {line : Line} (plain : line.IsPlain) (filled : line ≠ []) : Printable [line]
  | cons {line : Line} {lines : List Line} (unbroken : '\n' ∉ line) (below : Printable lines) :
      Printable (line :: lines)

namespace Printable

variable {lines more : List Line}

theorem ne_nil (h : Printable lines) : lines ≠ [] := by
  cases h with
  | last => exact List.cons_ne_nil _ _
  | cons => exact List.cons_ne_nil _ _

theorem unbroken (h : Printable lines) : ∀ line ∈ lines, '\n' ∉ line := by
  induction h with
  | last plain => exact List.forall_mem_singleton.2 plain.unbroken
  | cons unbroken _ ih => exact List.forall_mem_cons.2 ⟨unbroken, ih⟩

theorem append (unbroken : ∀ line ∈ lines, '\n' ∉ line) (h : Printable more) :
    Printable (lines ++ more) := by
  induction lines with
  | nil => exact h
  | cons line lines ih =>
    obtain ⟨here, onward⟩ := List.forall_mem_cons.1 unbroken
    exact .cons here (ih onward)

theorem of_solid (solid : ∀ line ∈ lines, line.IsPlain ∧ line ≠ []) (filled : lines ≠ []) :
    Printable lines := by
  induction lines with
  | nil => exact absurd rfl filled
  | cons line lines ih =>
    obtain ⟨⟨plain, seen⟩, onward⟩ := List.forall_mem_cons.1 solid
    cases lines with
    | nil => exact .last plain seen
    | cons next lines => exact .cons plain.unbroken (ih onward (List.cons_ne_nil _ _))

end Printable

/-- The last line break may be left out. -/
theorem linesOf_joined {lines : List Line} (h : Printable lines) :
    linesOf (List.intercalate ['\n'] lines) = lines.map (closeLine ·.reverse) := by
  induction h with
  | @last line plain filled =>
    have read := linesFrom_line [] plain.unbroken []
    rw [List.append_nil, List.append_nil] at read
    rw [List.intercalate_singleton, linesOf, read, linesFrom, List.map_singleton,
      closeLine_reverse plain, List.reverse_reverse]
    simp [filled]
  | cons unbroken below ih =>
    obtain ⟨next, lines, rfl⟩ := List.exists_cons_of_ne_nil below.ne_nil
    rw [List.intercalate_cons_cons, List.append_assoc, List.singleton_append, linesOf_line unbroken,
      ih]
    rfl

theorem intercalate_concat (lines : List Line) (last : Line) :
    List.intercalate ['\n'] (lines ++ [last]) = printLines lines ++ last := by
  induction lines with
  | nil => simp [printLines]
  | cons line lines ih =>
    obtain ⟨next, rest, hnext⟩ := List.exists_cons_of_ne_nil (l := lines ++ [last]) (by simp)
    rw [List.cons_append, hnext, List.intercalate_cons_cons, ← hnext, ih]
    simp [printLines]

theorem intercalate_ne_nil {lines : List Line} (filled : lines ≠ [])
    (last : lines.getLast? ≠ some []) : List.intercalate ['\n'] lines ≠ [] := by
  obtain ⟨front, line, rfl⟩ : ∃ front line, lines = front ++ [line] :=
    ⟨_, _, (List.dropLast_concat_getLast filled).symm⟩
  rw [List.getLast?_concat] at last
  rw [intercalate_concat]
  exact List.append_ne_nil_of_right_ne_nil _ fun empty => last (congrArg some empty)

/-- A further line goes behind a line break. -/
theorem intercalate_snoc {lines : List Line} (filled : lines ≠ []) (line : Line) :
    List.intercalate ['\n'] (lines ++ [line]) = List.intercalate ['\n'] lines ++ '\n' :: line := by
  obtain ⟨front, last, rfl⟩ : ∃ front last, lines = front ++ [last] :=
    ⟨_, _, (List.dropLast_concat_getLast filled).symm⟩
  rw [intercalate_concat, intercalate_concat]
  simp [printLines]

/-- Empty lines at the end leave their line breaks. -/
theorem intercalate_empty {lines : List Line} (filled : lines ≠ []) (n : Nat) :
    List.intercalate ['\n'] (lines ++ List.replicate n []) =
      List.intercalate ['\n'] lines ++ List.replicate n '\n' := by
  induction n with
  | zero => simp
  | succ n ih =>
    have more : lines ++ List.replicate n [] ≠ [] := List.append_ne_nil_of_left_ne_nil filled _
    rw [List.replicate_succ', ← List.append_assoc, intercalate_snoc more, ih, List.replicate_succ',
      List.append_assoc]

/-- The last line break may be left out behind a line that is not empty. -/
theorem linesOf_intercalate {lines : List Line} (plain : ∀ line ∈ lines, line.IsPlain)
    (filled : ∀ line ∈ lines, line ≠ []) :
    linesOf (List.intercalate ['\n'] lines) = lines := by
  cases lines with
  | nil => rfl
  | cons line lines =>
    have solid := fun l hl => And.intro (plain l hl) (filled l hl)
    rw [linesOf_joined (.of_solid solid (List.cons_ne_nil _ _)), map_closeLine plain]

/-- Joined lines hold one line break less than there are lines. -/
theorem count_intercalate {lines : List Line} (unbroken : ∀ line ∈ lines, '\n' ∉ line)
    (filled : lines ≠ []) : (List.intercalate ['\n'] lines).count '\n' + 1 = lines.length := by
  induction lines with
  | nil => exact absurd rfl filled
  | cons line lines ih =>
    have hline : line.count '\n' = 0 := List.count_eq_zero.2 (unbroken line (by simp))
    cases lines with
    | nil => simp [hline]
    | cons next lines =>
      have := ih (fun l hl => unbroken l (by simp [hl])) (by simp)
      rw [List.intercalate_cons_cons]
      simp only [List.count_append, hline, List.count_singleton_self, List.length_cons] at this ⊢
      omega

end TemplateMarkup
