import Mathlib.Data.List.TakeWhile
import TemplateMarkup.Proofs.Text.Words
import TemplateMarkup.TextBlock

/-! Blank lines: nothing is left of them once they are trimmed, a text takes them for blank as well,
and spaces in front of a line make no difference. -/
namespace TemplateMarkup

variable {line : Line}

theorem trimLeft_eq_nil_iff : trimLeft line = [] ↔ isBlank line = true := by
  rw [trimLeft, List.dropWhile_eq_nil_iff, isBlank, List.all_eq_true]

/-- Whether a line is blank is told by what is left of it. -/
theorem isBlank_eq_isEmpty (line : Line) : isBlank line = (trimLeft line).isEmpty := by
  rw [Bool.eq_iff_iff, List.isEmpty_iff, trimLeft_eq_nil_iff]

theorem isBlank_spaces (n : Nat) (cs : List Char) :
    isBlank (List.replicate n ' ' ++ cs) = isBlank cs := by
  have blank : isBlank (List.replicate n ' ') = true := by
    rw [isBlank, List.all_replicate]
    split <;> rfl
  rw [isBlank, List.all_append]
  exact Bool.and_eq_right_iff_imp.2 fun _ => blank

theorem trimLeft_spaces (n : Nat) (cs : List Char) :
    trimLeft (List.replicate n ' ' ++ cs) = trimLeft cs := by
  rw [trimLeft_append_of_blank]
  rw [← List.append_nil (List.replicate n ' '), isBlank_spaces]
  rfl

theorem isBlankText_spaces (n : Nat) (cs : List Char) :
    isBlankText (List.replicate n ' ' ++ cs) = isBlankText cs := by
  rw [isBlankText, trimLeft_spaces, ← isBlankText]

theorem isBlankText_of_isBlank (blank : isBlank line = true) : isBlankText line = true := by
  rw [isBlankText, trimLeft_eq_nil_iff.2 blank]

theorem isBlank_of_isBlankText (h : isBlankText line = false) : isBlank line = false := by
  cases blank : isBlank line with
  | false => rfl
  | true =>
    rw [isBlankText_of_isBlank blank] at h
    cases h

namespace TextBlock

theorem isBlankLine_of_isBlank (block : TextBlock) (blank : isBlank line = true) :
    block.isBlankLine line = true := by
  unfold isBlankLine
  split
  · exact blank
  · exact isBlankText_of_isBlank blank

theorem isBlankLine_spaces (block : TextBlock) (n : Nat) (line : Line) :
    block.isBlankLine (List.replicate n ' ' ++ line) = block.isBlankLine line := by
  rw [isBlankLine, isBlank_spaces, isBlankText_spaces, ← isBlankLine]

end TextBlock

end TemplateMarkup
