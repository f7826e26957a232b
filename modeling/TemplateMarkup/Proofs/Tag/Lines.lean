import TemplateMarkup.Proofs.Layout.Lines
import TemplateMarkup.Proofs.Tag.Readers

/-! The lines of a tag can be read back, and what their line ends take along is white space behind the
attributes. -/
namespace TemplateMarkup

theorem Line.IsPlain.concat {front line : Line} (h : front.IsPlain) (h' : line.IsPlain) :
    Line.IsPlain (front ++ line) := by
  by_cases filled : line = []
  · rwa [filled, List.append_nil]
  · exact h'.append filled h.unbroken

theorem plain_nil : Line.IsPlain [] := ⟨List.not_mem_nil, by simp⟩

/-- A line without white space is plain. -/
theorem isPlain_of_solid {line : Line} (solid : ∀ c ∈ line, isWhite c = false) : line.IsPlain := by
  constructor
  · intro broken
    cases solid _ broken
  · intro last
    cases solid _ (List.mem_of_getLast? last)

namespace TagLayout

variable {stop : Char}

theorem Label.solid (label : Label) : ∀ c ∈ label.chars, isWhite c = false := by
  obtain ⟨d, ds, hchars, word, tail⟩ := label.cons
  intro c hc
  cases white : isWhite c with
  | false => rfl
  | true =>
    rw [hchars] at hc
    obtain rfl | hc := List.mem_cons.1 hc
    · rw [isWhite_of_isWord word] at white
      cases white
    · have ended := isNameTail_of_isWhite white
      rw [tail c hc] at ended
      cases ended

theorem plain_start (tag : Tag) : Line.IsPlain tag.start := by
  refine isPlain_of_solid (List.forall_mem_cons.2 ⟨rfl, ?_⟩)
  intro c hc
  obtain hc | hc := List.mem_append.1 hc
  · exact tag.name.not_white c hc
  · obtain ⟨shortcut, -, hc⟩ := List.mem_flatMap.1 hc
    obtain rfl | hc := List.mem_cons.1 hc
    · cases shortcut.isId <;> rfl
    · exact shortcut.value.solid c hc

theorem Value.plain (value : Value stop) : Line.IsPlain value.print ∧ value.print ≠ [] := by
  cases value with
  | quoted quote text mark quotable unbroken =>
    refine ⟨?_, List.cons_ne_nil _ _⟩
    have line : '\n' ≠ quote := by rcases mark with rfl | rfl <;> decide
    have plain : quote ≠ '\r' := by rcases mark with rfl | rfl <;> decide
    constructor
    · simp [Value.print, line, unbroken]
    · simp [Value.print, List.getLast?_cons, plain]
  | bare first rest noQuote solid =>
    exact ⟨isPlain_of_solid fun c hc => (solid c hc).1, List.cons_ne_nil _ _⟩

theorem Attribute.plain (item : Attribute stop) : Line.IsPlain item.print := by
  cases item with
  | flag name => exact isPlain_of_solid name.solid
  | valued name before after value =>
    have whole : (Attribute.valued name before after value).print =
        (name.chars ++ (before.chars ++ '=' :: after.chars)) ++ value.print := by
      simp [Attribute.print]
    rw [whole]
    refine value.plain.1.append value.plain.2 ?_
    have unbroken := (isPlain_of_solid name.solid).unbroken
    simp [unbroken, before.unbroken, after.unbroken]

theorem Entry.plain (entry : Entry stop) : Line.IsPlain entry.print := by
  obtain ⟨c, cs, hprint, -⟩ := entry.item.cons
  exact entry.item.plain.append (by simp [hprint]) entry.gap.unbroken

theorem plain_entries (entries : List (Entry stop)) :
    Line.IsPlain (entries.flatMap Entry.print) := by
  induction entries with
  | nil => exact plain_nil
  | cons entry entries ih => exact entry.plain.concat ih

/-- A gap at the end of a line, without the return that a line end takes along. -/
def Gap.closed (gap : Gap) : Gap where
  chars := closeLine gap.chars.reverse
  white := by
    have white := List.all_eq_true.1 gap.white
    exact List.all_eq_true.2 fun c hc => white c ((prefix_closeLine gap.chars).subset hc)
  unbroken broken := gap.unbroken ((prefix_closeLine gap.chars).subset broken)

def Row.closed (row : Row stop) : Row stop := { row with trailing := row.trailing.closed }

def Listing.closed : Listing → Listing
  | bare entries apart => .bare entries apart
  | enclosed opening closing pair rows last =>
    .enclosed opening closing pair (rows.map Row.closed) last

def Tag.closed (tag : Tag) : Tag := { tag with listing := tag.listing.closed }

theorem Row.unbroken (row : Row stop) : '\n' ∉ row.print := by
  rw [Row.print, List.mem_append, not_or]
  exact ⟨(plain_entries row.entries).unbroken, row.trailing.unbroken⟩

section

variable {front closer : List Char} (plain : Line.IsPlain front)
  (solid : ∀ c ∈ closer, isWhite c = false) (filled : closer ≠ [])
include plain

theorem close_row (row : Row stop) :
    closeLine (front ++ row.print).reverse = front ++ row.closed.print := by
  rw [Row.print, ← List.append_assoc, closeLine_append (plain.concat (plain_entries row.entries)),
    List.append_assoc]
  rfl

include solid filled

theorem plain_last (last : Row stop) : Line.IsPlain (front ++ (last.print ++ closer)) := by
  rw [← List.append_assoc]
  refine (isPlain_of_solid solid).append filled ?_
  rw [List.mem_append, not_or]
  exact ⟨plain.unbroken, last.unbroken⟩

/-- The rows of a list, behind the start of the first one's line. -/
theorem close_rows (last : Row stop) (rows : List (Row stop)) :
    ((front ++ (printRows closer last rows).1) :: (printRows closer last rows).2).map
        (closeLine ·.reverse) =
      (front ++ (printRows closer last (rows.map Row.closed)).1) ::
        (printRows closer last (rows.map Row.closed)).2 := by
  induction rows generalizing front with
  | nil => exact congrArg (· :: []) (closeLine_reverse (plain_last plain solid filled last))
  | cons row rows ih =>
    have below := ih plain_nil
    rw [printRows, List.map_cons, close_row plain row]
    exact congrArg (_ :: ·) below

theorem printable_rows (last : Row stop) (rows : List (Row stop)) :
    Printable ((front ++ (printRows closer last rows).1) :: (printRows closer last rows).2) := by
  induction rows generalizing front with
  | nil =>
    refine .last (plain_last plain solid filled last) ?_
    simp [printRows, filled]
  | cons row rows ih =>
    refine .cons ?_ (ih plain_nil)
    rw [List.mem_append, not_or]
    exact ⟨plain.unbroken, row.unbroken⟩

end

theorem Tag.solid_ending (tag : Tag) : ∀ c ∈ tag.ending, isWhite c = false := by
  unfold Tag.ending
  cases tag.angle with
  | true => exact List.forall_mem_singleton.2 rfl
  | false => exact List.forall_mem_nil _

theorem bracket_solid {opening closing : Char} (pair : closingBracket opening = some closing) :
    isWhite opening = false ∧ isWhite closing = false := by
  have all : ∀ p ∈ bracketPairs, isWhite p.1 = false ∧ isWhite p.2 = false := by decide
  exact all _ (mem_bracketPairs pair)

/-- Returns in front of line breaks are no part of a tag's lines. -/
theorem lines_closed (tag : Tag) :
    tag.lines.map (closeLine ·.reverse) = tag.closed.lines ∧ Printable tag.lines := by
  have start := plain_start tag
  have ending := tag.solid_ending
  unfold Tag.closed Tag.lines
  cases tag.listing with
  | bare entries apart =>
    have plain := start.concat ((plain_entries entries).concat (isPlain_of_solid ending))
    exact ⟨congrArg (· :: []) (closeLine_reverse plain), .last plain (List.cons_ne_nil _ _)⟩
  | enclosed opening closing pair rows last =>
    obtain ⟨opens, closes⟩ := bracket_solid pair
    have front := start.concat (isPlain_of_solid (List.forall_mem_singleton.2 opens))
    have closer : ∀ c ∈ closing :: tag.ending, isWhite c = false :=
      List.forall_mem_cons.2 ⟨closes, ending⟩
    have closed := close_rows front closer (List.cons_ne_nil _ _) last rows
    have printable := printable_rows front closer (List.cons_ne_nil _ _) last rows
    rw [List.append_assoc] at closed printable
    rw [List.append_assoc] at closed
    exact ⟨closed, printable⟩

theorem nodes_closed (tag : Tag) : tag.closed.nodes = tag.nodes := by
  have count : tag.closed.lines.length = tag.lines.length := by
    rw [← (lines_closed tag).1, List.length_map]
  have attrs : tag.closed.attrs = tag.attrs := by
    unfold Tag.closed Tag.attrs
    cases tag.listing with
    | bare entries apart => rfl
    | enclosed opening closing pair rows last =>
      simp only [Listing.closed, Listing.attrs, attrsOf, List.flatMap_map]
      rfl
  rw [Tag.nodes, count, attrs]
  rfl

end TagLayout

end TemplateMarkup
