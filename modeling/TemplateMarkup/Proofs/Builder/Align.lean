import Mathlib.Data.List.TakeWhile
import TemplateMarkup.Proofs.Builder.Moves

/-! Fitting a line to the open blocks. The widths of the levels grow inwards, a line that is not
deeper ends the levels that are, and ending blocks down to one width and then to a smaller one is
the same as ending them at once. -/
namespace TemplateMarkup
namespace Builder

/-- Ends every block that stands deeper than some width. -/
def cutTo (b : Builder) (width : Nat) : Builder :=
  closeLevels (b.levels.takeWhile (width < ·.width)).length b.closeAwaiting

theorem moves_cutTo (b : Builder) (width : Nat) : Moves b (b.cutTo width) :=
  (moves_closeAwaiting b).trans (moves_closeLevels (awaiting_closeAwaiting b) _)

@[simp] theorem awaiting_cutTo (b : Builder) (width : Nat) : (b.cutTo width).awaiting = none :=
  awaiting_closeLevels (awaiting_closeAwaiting b) _

theorem widths_cutTo (b : Builder) (width : Nat) :
    (b.cutTo width).levels.map Level.width =
      (b.levels.map Level.width).dropWhile (width < ·) := by
  rw [cutTo, widths_closeLevels, widths_closeAwaiting]
  induction b.levels with
  | nil => rfl
  | cons level levels ih =>
    by_cases h : width < level.width <;> simp [h, ih]

/-- The two ways a line fits, and what it meets then. -/
theorem align_cases {b c : Builder} {width : Nat} {moved : Bool}
    (h : b.align width = .ok (c, moved)) :
    (∃ block, b.width < width ∧ b.awaiting = some block ∧ moved = true ∧
      c = b.confirm width block) ∨
    (width ≤ b.width ∧ c = b.cutTo width ∧ c.width = width ∧ moved = decide (width < b.width)) := by
  unfold align at h
  split at h
  · next hd =>
    split at h
    · next block hb =>
      cases h
      exact .inl ⟨block, hd, hb, rfl, rfl⟩
    · cases h
  · next hd =>
    simp only at h
    split at h
    · next hw =>
      cases h
      exact .inr ⟨Nat.le_of_not_lt hd, rfl, hw, rfl⟩
    · cases h

theorem align_error {b : Builder} {width : Nat} {misfit : Misfit}
    (h : b.align width = .error misfit) :
    misfit = ⟨.unexpectedIndentation, b.log⟩ ∨
      misfit = ⟨.malformedIndentation, (b.cutTo width).log⟩ := by
  unfold align at h
  split at h
  · split at h
    · cases h
    · cases h
      exact .inl rfl
  · simp only at h
    split at h
    · cases h
    · cases h
      exact .inr rfl

theorem moves_align {b c : Builder} {width : Nat} {moved : Bool}
    (h : b.align width = .ok (c, moved)) : Moves b c := by
  obtain ⟨block, hd, hb, -, rfl⟩ | ⟨-, rfl, -, -⟩ := align_cases h
  · exact .single (.confirm b width block hd hb)
  · exact moves_cutTo b width

theorem width_align {b c : Builder} {width : Nat} {moved : Bool}
    (h : b.align width = .ok (c, moved)) : c.width = width := by
  obtain ⟨block, -, -, -, rfl⟩ | ⟨-, -, hw, -⟩ := align_cases h
  · rfl
  · exact hw

theorem awaiting_align {b c : Builder} {width : Nat} {moved : Bool}
    (h : b.align width = .ok (c, moved)) : c.awaiting = none := by
  obtain ⟨block, -, -, -, rfl⟩ | ⟨-, rfl, -, -⟩ := align_cases h
  · rfl
  · exact awaiting_cutTo b width

/-- The widths of the open levels, innermost first, down to that of the root. -/
def indents (b : Builder) : List Nat := b.levels.map Level.width ++ [0]

theorem head_indents (b : Builder) : b.indents.head? = some b.width := by
  unfold indents width
  split <;> simp_all

/-- The widths grow from the root inwards, so the innermost one is the greatest. -/
theorem le_width_of_sorted {b : Builder} (sorted : b.indents.Pairwise (· > ·)) {w : Nat}
    (hw : w ∈ b.indents) : w ≤ b.width := by
  have head := head_indents b
  cases h : b.indents with
  | nil => simp [h] at hw
  | cons v ws =>
    obtain rfl : v = b.width := by simpa [h] using head
    rw [h] at hw sorted
    obtain rfl | hw := List.mem_cons.1 hw
    · exact Nat.le_refl _
    · exact Nat.le_of_lt ((List.pairwise_cons.1 sorted).1 w hw)

theorem indents_sorted_of_move {b c : Builder} (step : Move b c)
    (sorted : b.indents.Pairwise (· > ·)) : c.indents.Pairwise (· > ·) := by
  cases step with
  | place node leaf =>
    rw [indents, place, levels_record, widths_add]
    exact sorted
  | begin owner idle => exact sorted
  | confirm width block deeper pending =>
    refine List.pairwise_cons.2 ⟨?_, sorted⟩
    intro w hw
    exact Nat.lt_of_le_of_lt (le_width_of_sorted sorted hw) deeper
  | closeAwaiting block pending =>
    rw [indents, widths_closeAwaiting]
    exact sorted
  | closeLevel level levels idle top =>
    rw [indents, widths_closeLevel, top]
    rw [indents, top] at sorted
    exact (List.pairwise_cons.1 sorted).2
  | dispatch number width text => exact sorted

theorem indents_sorted {b : Builder} (run : Moves {} b) : b.indents.Pairwise (· > ·) :=
  run.invariant indents_sorted_of_move (List.pairwise_singleton _ _)

theorem closeLevels_closeLevels (b : Builder) (m n : Nat) :
    closeLevels n (closeLevels m b) = closeLevels (m + n) b := by
  induction m generalizing b with
  | zero => rw [Nat.zero_add, closeLevels]
  | succ m ih => rw [Nat.succ_add, closeLevels, closeLevels, ih]

/-- How many levels stand deeper than some width is told by the widths alone. -/
theorem length_deeper (levels : List Level) (width : Nat) :
    (levels.takeWhile (width < ·.width)).length =
      ((levels.map Level.width).takeWhile (width < ·)).length := by
  rw [List.takeWhile_map, List.length_map]
  rfl

theorem length_deeper_le (widths : List Nat) {w v : Nat} (h : w ≤ v) :
    (widths.takeWhile (w < ·)).length =
      (widths.takeWhile (v < ·)).length + ((widths.dropWhile (v < ·)).takeWhile (w < ·)).length := by
  induction widths with
  | nil => rfl
  | cons u widths ih =>
    by_cases deeper : v < u
    · have : w < u := by omega
      simp only [List.takeWhile_cons, List.dropWhile_cons, deeper, this, decide_true, if_true,
        List.length_cons, ih]
      omega
    · simp [deeper]

theorem cutTo_cutTo (b : Builder) {w v : Nat} (h : w ≤ v) : (b.cutTo v).cutTo w = b.cutTo w := by
  have rest : ((b.cutTo v).levels.takeWhile (w < ·.width)).length =
      (((b.levels.map Level.width).dropWhile (v < ·)).takeWhile (w < ·)).length := by
    rw [length_deeper, widths_cutTo]
  rw [cutTo, rest, closeAwaiting_of_none (awaiting_cutTo b v), cutTo, closeLevels_closeLevels, cutTo,
    length_deeper, length_deeper, length_deeper_le (b.levels.map Level.width) h]

theorem closeAll_cutTo (b : Builder) (v : Nat) : (b.cutTo v).closeAll = b.closeAll := by
  have rest : (b.cutTo v).levels.length = ((b.levels.map Level.width).dropWhile (v < ·)).length := by
    rw [← widths_cutTo, List.length_map]
  have all := congrArg List.length (List.takeWhile_append_dropWhile
    (p := (v < ·)) (l := b.levels.map Level.width))
  rw [List.length_append, List.length_map] at all
  rw [closeAll, rest, closeAwaiting_of_none (awaiting_cutTo b v), cutTo, closeLevels_closeLevels,
    closeAll, length_deeper, all]

/-- A block that is ended right after a deeper line has shown its width was awaiting it in vain. -/
theorem closeLevel_confirm {b : Builder} {block : Block} (pending : b.awaiting = some block)
    (v : Nat) : (b.confirm v block).closeLevel = b.closeAwaiting := by
  simp only [closeLevel, levels_confirm, closeAwaiting, pending]
  rfl

/-- What a line has fitted is undone by ending the blocks down to a smaller width. -/
theorem cutTo_align {b c : Builder} {v w : Nat} {moved : Bool} (h : b.align v = .ok (c, moved))
    (hw : w < v) : c.cutTo w = b.cutTo w := by
  obtain ⟨block, -, pending, -, rfl⟩ | ⟨-, rfl, -, -⟩ := align_cases h
  · have deeper := List.takeWhile_cons_of_pos (p := (w < ·.width)) (a := ⟨v, block⟩) (l := b.levels)
      (by simpa using hw)
    rw [cutTo, closeAwaiting_confirm, levels_confirm, deeper, List.length_cons, closeLevels,
      closeLevel_confirm pending, cutTo]
  · exact cutTo_cutTo b (Nat.le_of_lt hw)

theorem closeAll_align {b c : Builder} {v : Nat} {moved : Bool} (h : b.align v = .ok (c, moved)) :
    c.closeAll = b.closeAll := by
  obtain ⟨block, -, pending, -, rfl⟩ | ⟨-, rfl, -, -⟩ := align_cases h
  · rw [closeAll, closeAwaiting_confirm, levels_confirm, List.length_cons, closeLevels,
      closeLevel_confirm pending, closeAll]
  · exact closeAll_cutTo b v

theorem align_of_le {b : Builder} {w : Nat} (hw : w ≤ b.width) (fit : (b.cutTo w).width = w) :
    b.align w = .ok (b.cutTo w, decide (w < b.width)) := by
  have level : ¬ b.width < w := by omega
  unfold align
  rw [if_neg level]
  simp only
  rw [← cutTo, if_pos fit]

/-- With no level open and no block awaiting its width there is nothing to end. -/
theorem closeAll_of_closed {b : Builder} (idle : b.awaiting = none) (flat : b.levels = []) :
    b.closeAll = b := by
  rw [closeAll, closeAwaiting_of_none idle, flat]
  rfl

theorem place_of_closed {b : Builder} (idle : b.awaiting = none) (flat : b.levels = [])
    (node : Node) : b.place node = { b with root := node :: b.root, log := .placed node :: b.log } := by
  unfold place add
  rw [idle, flat]
  rfl

/-- A line without indentation ends every block. -/
theorem align_zero {b : Builder} (sorted : b.indents.Pairwise (· > ·)) :
    b.align 0 = .ok (b.closeAll, decide (0 < b.width)) := by
  have positive : ∀ w ∈ b.levels.map Level.width, 0 < w := by
    intro w hw
    exact (List.pairwise_append.1 sorted).2.2 w hw 0 (by simp)
  have flat : (b.cutTo 0).levels = [] := by
    have widths := widths_cutTo b 0
    rw [List.dropWhile_eq_nil_iff.2 (by simpa using positive)] at widths
    exact List.map_eq_nil_iff.1 widths
  have width : (b.cutTo 0).width = 0 := by
    rw [Builder.width, flat]
  rw [align_of_le (Nat.zero_le _) width, ← closeAll_cutTo b 0,
    closeAll_of_closed (awaiting_cutTo b 0) flat]

end Builder

end TemplateMarkup
