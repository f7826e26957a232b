import Mathlib.Algebra.Order.BigOperators.Group.List
import Mathlib.Algebra.Order.Group.Nat
import TemplateMarkup.Proofs.Cursor.Reading

/-! The cursor of a reading stands between characters. Main statement: for every template and all
settings, no text is cut within a character or behind its end, no move of the cursor is stopped by
the end of the line, and so the reading goes through. -/
namespace TemplateMarkup

theorem exists_bound (tab : Nat) (lines : List Line) :
    ∃ bound, ∀ line ∈ lines, extent tab line ≤ bound :=
  ⟨(lines.map (extent tab)).sum, fun _ mem =>
    List.single_le_sum (fun _ _ => Nat.zero_le _) _ (List.mem_map_of_mem mem)⟩

/-- Whatever machine words make of sums of columns, each text is cut where a character starts or
where the text ends, and each move of the cursor is one over whole characters ahead of it that gets
as far as it was to. What is behind the cursor and what is ahead of it are the line, then, and
nothing goes wrong. The reading that comes of it is that of the lines as lists of characters. -/
theorem scan_on_boundaries (settings : Settings) (source : String) :
    (∀ word, (∀ touch ∈ (scanTemplate word settings source).touches, touch.OnBoundary) ∧
      (scanTemplate word settings source).result.isSome = true) ∧
    (scanTemplate id settings source).reading =
      some (readLines settings (linesOf source.toList)) := by
  obtain ⟨bound, inside⟩ := exists_bound settings.tabSize (linesOf source.toList)
  constructor
  · intro word
    obtain ⟨sound, completed, -⟩ := scanTemplate_sound word inside
    exact ⟨fun touch mem => (sound touch mem).boundary, completed⟩
  · obtain ⟨-, -, same⟩ := scanTemplate_sound id inside
    exact same (holds_id bound)

/-- The sign of an output is a byte, and the code behind it is one character of two bytes. -/
example : (scanTemplate id {} "=é").touches =
    let line := ['=', 'é']
    [.cut line 0, .move ⟨line, 0⟩ 0, .cut line 0, .cut line 0, .move ⟨line, 0⟩ 1, .cut line 1,
      .cut line 1, .move ⟨line, 1⟩ 2] := by decide

end TemplateMarkup
