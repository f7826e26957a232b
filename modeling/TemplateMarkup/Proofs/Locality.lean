import TemplateMarkup.Proofs.Reading.Faults

/-! The first fault of a template depends on nothing behind it. -/
namespace TemplateMarkup

theorem eq_append_of_take {lines before : List Line} {line : Line}
    (h : lines.take (before.length + 1) = before ++ [line]) :
    ∃ after, lines = before ++ line :: after := by
  refine ⟨lines.drop (before.length + 1), ?_⟩
  have parts := List.take_append_drop (before.length + 1) lines
  rw [h] at parts
  simpa using parts.symm

variable {settings : Settings} {source : String}

/-- A line is refused whatever follows it. -/
theorem readLines_refused {before : List Line} {line : Line} {s : State} {halt : Halt}
    (read : before.foldlM (State.feed settings) {} = .ok s)
    (failed : s.feed settings line = .error halt) (after : List Line) :
    readLines settings (before ++ line :: after) = .error halt := by
  rw [readLines_append read]
  simp [List.foldlM_cons, failed, bind, Except.bind]

/-- The first fault depends only on the lines up to it. A template that starts with the same lines
has the same diagnostic, unless the cause is that a construct never ends; and that shows only when
every line has been read. -/
theorem first_fault_local {d : Diagnostic} (h : parse settings source = .error d) :
    (d.cause.isFinal = false → ∀ other : String,
      (linesOf other.toList).take d.number = (linesOf source.toList).take d.number →
      parse settings other = .error d) ∧
    (d.cause.isFinal = true → ∃ s halt,
      (linesOf source.toList).foldlM (State.feed settings) {} = .ok s ∧
      s.number = (linesOf source.toList).length ∧ s.finish = .error halt ∧
      d = ⟨halt.fault, settings.shownFile⟩) := by
  obtain ⟨halt, read, rfl⟩ := error_of_parse h
  cases failedRead_of_readLines read with
  | refused before line after s split hs failed refusal =>
    constructor
    · intro _ other same
      simp only [refusal.number, split] at same
      have first : (before ++ line :: after).take (before.length + 1) = before ++ [line] := by
        rw [List.append_cons, List.take_left' (by simp)]
      rw [first] at same
      obtain ⟨more, lines⟩ := eq_append_of_take same
      apply parse_of_error
      rw [lines]
      exact readLines_refused hs failed more
    · intro final
      rw [refusal.early] at final
      cases final
  | unfinished s hs failed =>
    have recalls := (State.progress_foldlM [] hs).recalls
    constructor
    · intro early
      rw [(State.fault_finish recalls failed).1] at early
      cases early
    · intro _
      have number : s.number = (linesOf source.toList).length := by
        simpa using State.number_foldlM State.steady_start hs
      exact ⟨s, halt, hs, number, failed, rfl⟩

/-- A bracket that opens no tag is found out whatever stands below it; code that goes on is not,
before the end. -/
theorem first_fault_local_both :
    parse {} "- a\n  <>" =
      .error ⟨⟨.unknownIndicator, 2, "  <>".toList, 3⟩, "(__TEMPLATE__)"⟩ ∧
    ∃ s halt, ["- a".toList, "= b\\".toList].foldlM (State.feed {}) {} = .ok s ∧ s.number = 2 ∧
      s.finish = .error halt ∧ halt.fault = ⟨.unexpectedEnd, 2, "= b\\".toList, 4⟩ := by
  have early : parse {} "- a\n  <>\nb" =
      .error ⟨⟨.unknownIndicator, 2, "  <>".toList, 3⟩, "(__TEMPLATE__)"⟩ := rfl
  have final : parse {} "- a\n= b\\" =
      .error ⟨⟨.unexpectedEnd, 2, "= b\\".toList, 4⟩, "(__TEMPLATE__)"⟩ := rfl
  have lines : linesOf "- a\n= b\\".toList = ["- a".toList, "= b\\".toList] := by decide
  refine ⟨(first_fault_local early).1 rfl "- a\n  <>" (by decide), ?_⟩
  obtain ⟨s, halt, read, number, failed, same⟩ := (first_fault_local final).2 rfl
  rw [lines] at read number
  exact ⟨s, halt, read, number, failed, (congrArg Diagnostic.toFault same).symm⟩

end TemplateMarkup
