import TemplateMarkup.Proofs.Reading.Faults
import TemplateMarkup.Proofs.Text.Lines
import TemplateMarkup.Proofs.Text.Words

/-! Where a diagnostic points. Its line is one of the template, its column lies on what the line
shows, and the caret stands under the character at that column. -/
namespace TemplateMarkup

/-- The white space that a line starts with. -/
def Line.lead (line : Line) : List Char := line.takeWhile isWhite

namespace Line

theorem lead_append (line : Line) : line.lead ++ trimLeft line = line :=
  List.takeWhile_append_dropWhile

theorem length_lead (line : Line) : line.lead.length = line.length - (trimLeft line).length := by
  have parts := congrArg List.length line.lead_append
  rw [List.length_append] at parts
  omega

theorem isBlank_lead (line : Line) : isBlank line.lead = true :=
  List.all_eq_true.2 fun _ hc => List.mem_takeWhile_imp hc

end Line

theorem trimRight_eq_nil_iff {cs : List Char} : trimRight cs = [] ↔ isBlank cs = true := by
  simp [trimRight, isBlank, List.dropWhile_eq_nil_iff]

theorem trimRight_append {cs : List Char} (filled : trimRight cs ≠ []) (before : List Char) :
    trimRight (before ++ cs) = before ++ trimRight cs := by
  have back : cs.reverse.dropWhile isWhite ≠ [] := by simpa [trimRight] using filled
  rw [trimRight, List.reverse_append, List.dropWhile_append, if_neg (by simpa using back)]
  simp [trimRight]

/-- Trimming a line on the right leaves the white space in front, unless there is nothing else. -/
theorem trimRight_eq_lead_append {line : Line} (filled : trimRight line ≠ []) :
    trimRight line = line.lead ++ trim line := by
  have inner : trimRight (trimLeft line) ≠ [] := by
    intro nothing
    have blank : isBlank (line.lead ++ trimLeft line) = true := by
      rw [isBlank, List.all_append, Bool.and_eq_true]
      exact ⟨line.isBlank_lead, trimRight_eq_nil_iff.1 nothing⟩
    rw [line.lead_append] at blank
    exact filled (trimRight_eq_nil_iff.2 blank)
  have whole := trimRight_append inner line.lead
  rwa [line.lead_append] at whole

/-- In front of the white space at its end, a line shows the same as its trimmed text. -/
theorem getElem?_trim {cs : Line} {n : Nat} (lead : cs.lead.length ≤ n)
    (h : n < (trimRight cs).length) : (trim cs)[n - cs.lead.length]? = cs[n]? := by
  have filled : trimRight cs ≠ [] := List.ne_nil_of_length_pos (by omega)
  obtain ⟨ws, whole⟩ := trimRight_prefix cs
  calc (trim cs)[n - cs.lead.length]? = (cs.lead ++ trim cs)[n]? :=
        (List.getElem?_append_right lead).symm
    _ = (trimRight cs)[n]? := by rw [trimRight_eq_lead_append filled]
    _ = (trimRight cs ++ ws)[n]? := (List.getElem?_append_left h).symm
    _ = cs[n]? := by rw [whole]

theorem newline_not_mem_toDigits (n : Nat) : '\n' ∉ Nat.toDigits 10 n := by
  intro mem
  have digit := Nat.isDigit_of_mem_toDigits (b := 10) (by decide) (by decide) mem
  revert digit
  decide

theorem newline_not_mem_message {cause : Cause} (mark : cause.mark? ≠ some '\n') :
    '\n' ∉ cause.message.toList := by
  rw [Cause.message.eq_def]
  cases cause with
  | expectedDelimiter c | expectedQuote c =>
    have other : '\n' ≠ c := by
      rintro rfl
      exact mark rfl
    simp [other]
  | _ => simp

namespace Diagnostic

/-- The file and the number of the line. -/
def place (d : Diagnostic) : Line := ("  " ++ d.file ++ ", Line " ++ toString d.number).toList

/-- The line without the white space at its ends. -/
def excerpt (d : Diagnostic) : Line := "    ".toList ++ trim d.line

def caret (d : Diagnostic) : Line := List.replicate (4 + (d.column - d.margin)) ' ' ++ ['^']

/-- The lines that a diagnostic is shown on. -/
def shown (d : Diagnostic) : List Line := [d.cause.message.toList, d.place, d.excerpt, d.caret]

theorem render_eq (d : Diagnostic) : d.render.toList = printLines d.shown := by
  simp [render, shown, printLines, place, excerpt, caret, Nat.add_comm 4, List.replicate_succ]

theorem newline_not_mem_shown {d : Diagnostic} (file : '\n' ∉ d.file.toList)
    (mark : d.cause.mark? ≠ some '\n') (line : '\n' ∉ d.line) : ∀ l ∈ d.shown, '\n' ∉ l := by
  have message := newline_not_mem_message mark
  have number := newline_not_mem_toDigits d.number
  have trimmed : '\n' ∉ trim d.line := fun mem => line (trim_subset d.line mem)
  simp [shown, place, excerpt, caret, message, file, number, trimmed]

/-- Under a column of the line's text stands the character of that column. -/
theorem getElem?_excerpt {d : Diagnostic} (lead : d.line.lead.length ≤ d.column)
    (h : d.column < (trimRight d.line).length) :
    d.excerpt[4 + (d.column - d.line.lead.length)]? = d.line[d.column]? := by
  rw [excerpt, List.getElem?_append_right (Nat.le_add_right 4 _)]
  simpa using getElem?_trim lead h

end Diagnostic

/-- A diagnostic names a line of the template, and a column of it that is not within the white
space in front. It is shown on four lines, and the caret on the last one stands right below the
character at that column. -/
theorem diagnostic_points {settings : Settings} {source : String} {d : Diagnostic}
    (h : parse settings source = .error d) :
    (1 ≤ d.number ∧ d.number ≤ (linesOf source.toList).length ∧
      (linesOf source.toList)[d.number - 1]? = some d.line ∧
      d.line.lead.length ≤ d.column ∧ d.column ≤ d.line.length) ∧
    ('\n' ∉ settings.shownFile.toList → ∃ message place excerpt caret : Line,
      d.render.toList = printLines [message, place, excerpt, caret] ∧
      (∀ line ∈ [message, place, excerpt, caret], '\n' ∉ line) ∧
      caret = List.replicate (4 + (d.column - d.line.lead.length)) ' ' ++ ['^'] ∧
      (d.column < (trimRight d.line).length → ∃ c, d.line[d.column]? = some c ∧
        excerpt[4 + (d.column - d.line.lead.length)]? = some c)) := by
  obtain ⟨halt, read, rfl⟩ := error_of_parse h
  obtain ⟨⟨first, isLine⟩, behind, within, mark⟩ := placed_of_readLines read
  rw [← Line.length_lead] at behind
  obtain ⟨last, -⟩ := List.getElem?_eq_some_iff.1 isLine
  refine ⟨⟨first, Nat.le_of_pred_lt last, isLine, behind, within⟩, fun file => ?_⟩
  have line : '\n' ∉ halt.fault.line :=
    newline_not_mem_of_mem_linesOf (List.mem_of_getElem? isLine)
  let d : Diagnostic := ⟨halt.fault, settings.shownFile⟩
  refine ⟨_, d.place, d.excerpt, d.caret, d.render_eq,
    Diagnostic.newline_not_mem_shown file mark line, ?_, ?_⟩
  · rw [Diagnostic.caret, Diagnostic.margin, Line.length_lead]
  · intro inside
    have front := trimRight_prefix d.line
    have bound : d.column < d.line.length := Nat.lt_of_lt_of_le inside front.length_le
    refine ⟨d.line[d.column], List.getElem?_eq_getElem bound, ?_⟩
    rw [← List.getElem?_eq_getElem bound]
    exact Diagnostic.getElem?_excerpt behind inside

/-- The caret stands under the bracket that names nothing, the indentation being cut off. -/
theorem diagnostic_points_indented : ∃ message place excerpt : Line,
    (Diagnostic.mk ⟨.unknownIndicator, 2, "  <> x".toList, 3⟩ "(__TEMPLATE__)").render.toList =
      printLines [message, place, excerpt, "     ^".toList] ∧ excerpt[5]? = some '>' := by
  have failed : parse {} "- a\n  <> x" =
    .error ⟨⟨.unknownIndicator, 2, "  <> x".toList, 3⟩, "(__TEMPLATE__)"⟩ := rfl
  obtain ⟨message, place, excerpt, caret, text, -, rfl, above⟩ :=
    (diagnostic_points failed).2 (by decide)
  obtain ⟨c, bracket, same⟩ := above (by decide)
  obtain rfl : '>' = c := Option.some.inj bracket
  exact ⟨message, place, excerpt, text, same⟩

end TemplateMarkup
