import Mathlib.Algebra.Group.Nat.Defs
import TemplateMarkup.Proofs.Cursor.Scan
import TemplateMarkup.Proofs.Text.Spans

/-! Columns that are added up in machine words. As long as a word holds them, they are the columns
that indentations have; and wherever a line is cut by them, it is cut within its indentation. -/
namespace TemplateMarkup
namespace Scan

/-- The width and the size of an indentation, behind a part of it that was already measured. -/
def measureFrom (word : Nat → Nat) (tab width size : Nat) : List Char → Scan (Nat × Nat)
  | [] => return (width, size)
  | c :: cs =>
    match columnsOf tab c with
    | some n => do
      let width ← sum word width n
      measureFrom word tab width (size + 1) cs
    | none => return (width, size)

def measure (word : Nat → Nat) (tab : Nat) (line : Line) : Scan (Nat × Nat) :=
  measureFrom word tab 0 0 line

/-- The size of the indentation that is dropped to get some columns in. -/
def dropFrom (word : Nat → Nat) (tab columns width size : Nat) : List Char → Scan Nat
  | [] => return size
  | c :: cs =>
    if columns ≤ width then return size
    else
      match columnsOf tab c with
      | some n => do
        let width ← sum word width n
        dropFrom word tab columns width (size + 1) cs
      | none => return size

def dropColumns (word : Nat → Nat) (tab columns : Nat) (line : Line) : Scan (List Char) := do
  let size ← dropFrom word tab columns 0 0 line
  let (_, text) ← cut line size
  return text

/-- The column of the cursor: the indentation by width, what is read behind it by characters. -/
def column (word : Nat → Nat) (tab : Nat) : Scan Nat := do
  let front ← consumed
  let (width, size) ← measure word tab front
  let (_, text) ← cut front size
  sum word width text.length

end Scan

/-- A machine word holds every number up to some bound. -/
def Holds (word : Nat → Nat) (bound : Nat) : Prop := ∀ n ≤ bound, word n = n

/-- A number is within a bound, if a machine word holds what is. -/
def Within (word : Nat → Nat) (bound n : Nat) : Prop := Holds word bound → n ≤ bound

/-- What a word of 64 bits makes of a number. -/
def wrap (n : Nat) : Nat := n % 2 ^ 64

theorem holds_id (bound : Nat) : Holds id bound := fun _ _ => rfl

theorem holds_wrap {bound : Nat} (small : bound < 2 ^ 64) : Holds wrap bound := fun _ inside =>
  Nat.mod_eq_of_lt (inside.trans_lt small)

/-- The furthest column that can come of a line: its indentation, counted in columns, and as many
columns as it has characters. -/
def extent (tab : Nat) (line : Line) : Nat :=
  let indent := line.takeWhile isIndent
  indent.count ' ' + indent.count '\t' * tab + line.length

variable {word : Nat → Nat} {tab bound : Nat} {line : Line} {cs : List Char}

theorem columnsOf_of_indent {c : Char} (indent : isIndent c = true) (tab : Nat) :
    columnsOf tab c = some (if c = ' ' then 1 else tab) := by
  obtain rfl | rfl : c = ' ' ∨ c = '\t' := by simpa [isIndent] using indent
  · rfl
  · rfl

/-- The width of an indentation counts its spaces once and its tabs for their columns. -/
theorem indentWidth_eq_count (tab : Nat) (line : Line) :
    indentWidth tab line =
      (line.takeWhile isIndent).count ' ' + (line.takeWhile isIndent).count '\t' * tab := by
  induction line with
  | nil => rw [indentWidth, List.takeWhile_nil, List.count_nil, List.count_nil, Nat.zero_mul]
  | cons c line ih =>
    cases indent : isIndent c with
    | false =>
      rw [indentWidth, columnsOf_eq_none indent, List.takeWhile_cons_of_neg (by simp [indent]),
        List.count_nil, List.count_nil, Nat.zero_mul]
    | true =>
      obtain rfl | rfl : c = ' ' ∨ c = '\t' := by simpa [isIndent] using indent
      · rw [indentWidth, columnsOf, ih, List.takeWhile_cons_of_pos indent, List.count_cons_self,
          List.count_cons_of_ne (by decide)]
        simp only
        omega
      · rw [indentWidth, columnsOf, ih, List.takeWhile_cons_of_pos indent, List.count_cons_self,
          List.count_cons_of_ne (by decide), Nat.succ_mul]
        simp only
        omega

theorem extent_eq (tab : Nat) (line : Line) :
    extent tab line = indentWidth tab line + line.length := by
  rw [extent, indentWidth_eq_count]

theorem indentWidth_le_extent (tab : Nat) (line : Line) :
    indentWidth tab line ≤ extent tab line := by
  rw [extent_eq]
  exact Nat.le_add_right _ _

/-- Behind an indentation a line has as many columns as characters. -/
theorem add_le_extent {width n : Nat} (left : cs <:+ line) (around : width ≤ indentWidth tab line)
    (short : n ≤ cs.length) : width + n ≤ extent tab line := by
  have := left.length_le
  rw [extent_eq]
  omega

theorem indentWidth_append_le (tab : Nat) (front rest : List Char) :
    indentWidth tab front ≤ indentWidth tab (front ++ rest) := by
  induction front with
  | nil => exact Nat.zero_le _
  | cons c front ih =>
    cases columns : columnsOf tab c with
    | none => simp [indentWidth, columns]
    | some n => simpa [indentWidth, columns] using ih

theorem columnAfter_le_extent (tab : Nat) (front rest : List Char) :
    columnAfter tab front ≤ extent tab (front ++ rest) := by
  have width := indentWidth_append_le tab front rest
  have text := (List.dropWhile_suffix isIndent (l := front)).length_le
  rw [columnAfter, afterIndent, extent_eq, List.length_append]
  omega

namespace Scan

theorem gives_sum (limit : Nat → Prop) (word : Nat → Nat) {m n : Nat} (fits : limit (m + n))
    (c : Cursor) : Gives limit (sum word m n) c (.ok (word (m + n), c)) := by
  refine ⟨sound_single ⟨trivial, ?_⟩, rfl⟩
  rintro columns ⟨⟩
  exact fits

variable {width known columns n more : Nat}

/-- One more character of an indentation. `known` is what the part of it that is behind has in fact,
and `more` what is still to come. -/
theorem next_sum (holds : Holds word bound → width = known ∧ known + (n + more) ≤ bound) :
    Within word bound (width + n) ∧
      (Holds word bound → word (width + n) = known + n ∧ known + n + more ≤ bound) := by
  have fits : Within word bound (width + n) := by
    intro h
    have := holds h
    omega
  refine ⟨fits, fun h => ?_⟩
  have same := h _ (fits h)
  have := holds h
  omega

theorem exists_measureFrom
    (holds : Holds word bound → width = known ∧ known + indentWidth tab cs ≤ bound)
    (size : Nat) (c : Cursor) :
    ∃ total, Gives (Within word bound) (measureFrom word tab width size cs) c
        (.ok ((total, size + (cs.takeWhile isIndent).length), c)) ∧
      (Holds word bound → total = known + indentWidth tab cs) := by
  induction cs generalizing width size known with
  | nil => exact ⟨width, gives_pure _ _ _, fun h => (holds h).1⟩
  | cons first cs ih =>
    cases indent : isIndent first with
    | false =>
      have stops := columnsOf_eq_none indent tab
      rw [List.takeWhile_cons_of_neg (by simp [indent]), measureFrom, stops]
      refine ⟨width, gives_pure _ _ _, fun h => ?_⟩
      rw [indentWidth, stops, (holds h).1]
      rfl
    | true =>
      have counts := columnsOf_of_indent indent tab
      generalize (if first = ' ' then 1 else tab) = n at counts
      have width_cons : indentWidth tab (first :: cs) = n + indentWidth tab cs := by
        rw [indentWidth, counts]
      rw [width_cons] at holds ⊢
      obtain ⟨fits, next⟩ := next_sum holds
      obtain ⟨total, given, same⟩ := ih next (size + 1)
      refine ⟨total, ?_, fun h => by rw [same h, Nat.add_assoc]⟩
      rw [measureFrom, counts, List.takeWhile_cons_of_pos indent, List.length_cons,
        Nat.add_comm (List.length _) 1, ← Nat.add_assoc]
      exact (gives_sum _ _ fits c).bind given

theorem exists_measure (word : Nat → Nat) (inside : indentWidth tab line ≤ bound) (c : Cursor) :
    ∃ width, Gives (Within word bound) (measure word tab line) c
        (.ok ((width, byteSize (line.takeWhile isIndent)), c)) ∧
      (Holds word bound → width = indentWidth tab line) := by
  have start : Holds word bound → 0 = 0 ∧ 0 + indentWidth tab line ≤ bound :=
    fun _ => ⟨rfl, by rwa [Nat.zero_add]⟩
  obtain ⟨width, given, same⟩ := exists_measureFrom start 0 c
  have size : byteSize (line.takeWhile isIndent) = (line.takeWhile isIndent).length :=
    byteSize_indent fun _ mem => List.mem_takeWhile_imp mem
  rw [Nat.zero_add, ← size] at given
  exact ⟨width, given, by simpa using same⟩

/-- If some columns are still to be dropped, the next character of the indentation goes. -/
theorem dropColumns_cons {first : Char} (left : known < columns)
    (counts : columnsOf tab first = some n) (cs : List Char) :
    TemplateMarkup.dropColumns tab (columns - known) (first :: cs) =
      TemplateMarkup.dropColumns tab (columns - (known + n)) cs := by
  obtain ⟨rest, positive⟩ : ∃ rest, columns - known = rest + 1 := ⟨columns - known - 1, by omega⟩
  rw [← Nat.sub_sub, positive, TemplateMarkup.dropColumns, counts]

theorem exists_dropFrom
    (holds : Holds word bound → width = known ∧ known + indentWidth tab cs ≤ bound)
    (columns size : Nat) (c : Cursor) :
    ∃ front rest, cs = front ++ rest ∧ (∀ x ∈ front, isIndent x = true) ∧
      Gives (Within word bound) (dropFrom word tab columns width size cs) c
        (.ok (size + front.length, c)) ∧
      (Holds word bound → rest = TemplateMarkup.dropColumns tab (columns - known) cs) := by
  induction cs generalizing width size known with
  | nil =>
    refine ⟨[], [], rfl, by simp, gives_pure _ _ _, fun _ => ?_⟩
    cases columns - known <;> rfl
  | cons first cs ih =>
    by_cases full : columns ≤ width
    · refine ⟨[], first :: cs, rfl, by simp, ?_, fun h => ?_⟩
      · rw [dropFrom, if_pos full]
        exact gives_pure _ _ _
      · have done : columns - known = 0 := by
          have := (holds h).1
          omega
        rw [done, TemplateMarkup.dropColumns]
    · cases indent : isIndent first with
      | false =>
        have stops := columnsOf_eq_none indent tab
        refine ⟨[], first :: cs, rfl, by simp, ?_, fun _ => ?_⟩
        · rw [dropFrom, if_neg full, stops]
          exact gives_pure _ _ _
        · cases columns - known with
          | zero => rfl
          | succ n => rw [TemplateMarkup.dropColumns, stops]
      | true =>
        have counts := columnsOf_of_indent indent tab
        generalize (if first = ' ' then 1 else tab) = n at counts
        have width_cons : indentWidth tab (first :: cs) = n + indentWidth tab cs := by
          rw [indentWidth, counts]
        rw [width_cons] at holds
        obtain ⟨fits, next⟩ := next_sum holds
        obtain ⟨front, rest, whole, blank, given, same⟩ := ih next (size + 1)
        refine ⟨first :: front, rest, by rw [whole]; rfl,
          List.forall_mem_cons.2 ⟨indent, blank⟩, ?_, fun h => ?_⟩
        · rw [dropFrom, if_neg full, counts, List.length_cons, Nat.add_comm (List.length _) 1,
            ← Nat.add_assoc]
          exact (gives_sum _ _ fits c).bind given
        · have left : known < columns := by
            have := (holds h).1
            omega
          rw [same h, dropColumns_cons left counts]

/-- A line loses a part of its indentation, and in fact the one with the columns that are to be
dropped. -/
theorem exists_dropColumns (word : Nat → Nat) (inside : indentWidth tab line ≤ bound)
    (columns : Nat) (c : Cursor) :
    ∃ text, Gives (Within word bound) (dropColumns word tab columns line) c (.ok (text, c)) ∧
      (Holds word bound → text = TemplateMarkup.dropColumns tab columns line) := by
  have start : Holds word bound → 0 = 0 ∧ 0 + indentWidth tab line ≤ bound :=
    fun _ => ⟨rfl, by rwa [Nat.zero_add]⟩
  obtain ⟨front, rest, rfl, blank, given, same⟩ := exists_dropFrom start columns 0 c
  rw [Nat.zero_add, ← byteSize_indent blank] at given
  exact ⟨rest, given.bind ((gives_cut _ rfl c).bind (gives_pure _ _ _)), same⟩

theorem exists_column (word : Nat → Nat) (tab : Nat) {rest : List Char} (left : rest <:+ line) :
    ∃ n, Gives (Within word (extent tab line)) (column word tab) (.before line rest)
        (.ok (n, .before line rest)) ∧
      (Holds word (extent tab line) → n = columnAfter tab (frontOf line rest)) := by
  have inside : columnAfter tab (frontOf line rest) ≤ extent tab line := by
    conv => rhs; rw [← frontOf_append left]
    exact columnAfter_le_extent tab _ rest
  have narrow : indentWidth tab (frontOf line rest) ≤ extent tab line :=
    (Nat.le_add_right _ _).trans inside
  obtain ⟨width, measured, same⟩ := exists_measure word narrow (.before line rest)
  have whole : frontOf line rest = (frontOf line rest).takeWhile isIndent ++
      afterIndent (frontOf line rest) := List.takeWhile_append_dropWhile.symm
  have fits : Within word (extent tab line) (width + (afterIndent (frontOf line rest)).length) := by
    intro h
    rwa [same h, ← columnAfter]
  refine ⟨_, (gives_consumed _ left).bind (measured.bind ((gives_cut _ whole _).bind
    (gives_sum _ _ fits _))), fun h => ?_⟩
  rw [h _ (fits h), same h, columnAfter]

end Scan

end TemplateMarkup
