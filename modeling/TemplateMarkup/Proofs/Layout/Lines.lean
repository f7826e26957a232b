import TemplateMarkup.Proofs.Layout.Items
import TemplateMarkup.Proofs.Line.Rest
import TemplateMarkup.Proofs.Reading.Dispatch
import TemplateMarkup.Proofs.Text.Lines
import TemplateMarkup.Proofs.Text.Spans

/-! The lines of a layout, one by one: each is a line of its own, starts no doctype header, and is
taken for what it was printed from. -/
namespace TemplateMarkup

/-- The keyword of a doctype needs white space behind it. -/
theorem dropDoctype_eq_none {cs : List Char} (h : ∀ c ∈ cs, isWhite c = false) :
    dropDoctype cs = none := by
  rw [dropDoctype_eq_none_iff]
  rintro value ⟨keyword, white, rfl, -, seen⟩
  rw [h white (by simp)] at seen
  cases seen

namespace Head

/-- An engine's name is followed by a colon. -/
theorem engine?_eq_none {cs : List Char} (h : (cs.dropWhile isWord).head? ≠ some ':') :
    engine? cs = none := by
  rw [engine?_eq_none_iff]
  rintro engine ⟨white, rfl, -, word, -⟩
  rw [dropWhile_append_of_stops word (stops_cons.2 (by decide))] at h
  exact h rfl

/-- A name ends in front of the first character that cannot go on with it. -/
theorem ofAngle_name {c : Char} (word : isWord c = true) {name rest : List Char}
    (tail : ∀ d ∈ name, isNameTail d = true) (stop : Stops isNameTail rest)
    (noEngine : engine? (c :: (name ++ rest)) = none) :
    ofAngle (c :: (name ++ rest)) = tag (some (c :: name)) rest := by
  have taken := takeWhile_append_of_stops tail stop
  have left := dropWhile_append_of_stops tail stop
  have bang : c ≠ '!' := ne_of_isWord word (by decide)
  have hash : c ≠ '#' := ne_of_isWord word (by decide)
  have dot : c ≠ '.' := ne_of_isWord word (by decide)
  unfold ofAngle
  rw [noEngine]
  simp only
  split
  · next h => exact absurd (List.cons.inj h).1 bang
  · next h => exact absurd (List.cons.inj h).1 bang
  · next h =>
    obtain ⟨rfl, rfl⟩ := List.cons.inj h
    simp [hash, dot, word, taken, left]
  · next h => cases h

theorem condition?_eq {cs : List Char} (trimmed : trim cs = cs) :
    condition? ('[' :: (cs ++ [']'])) = some cs :=
  condition?_iff.2 ⟨cs, ⟨[], rfl, rfl⟩, trimmed.symm⟩

end Head

namespace Layout

variable {width : Nat} {cs : List Char}

/-- What is printed on a line starts with no white space, can be read back as a line, and starts no
doctype header. -/
structure Printed (cs : List Char) : Prop where
  filled : ∃ c rest, cs = c :: rest ∧ isWhite c = false
  line : Line.IsPlain cs
  noHeader : doctypeHeader? cs = none

theorem Printed.indent_line (h : Printed cs) (width : Nat) : (indent width cs).IsPlain := by
  obtain ⟨c, rest, rfl, -⟩ := h.filled
  refine ⟨?_, ?_⟩
  · simpa [indent, List.mem_replicate] using h.line.unbroken
  · simpa [indent] using h.line.noReturn

theorem Printed.indent_ne_nil (h : Printed cs) (width : Nat) : indent width cs ≠ [] := by
  obtain ⟨c, rest, rfl, -⟩ := h.filled
  simp [indent]

theorem Printed.trimLeft_indent (h : Printed cs) (width : Nat) : trimLeft (indent width cs) = cs := by
  obtain ⟨c, rest, rfl, hc⟩ := h.filled
  have blank : isBlank (List.replicate width ' ') = true := by
    simp only [isBlank, List.all_eq_true]
    intro d hd
    rw [List.eq_of_mem_replicate hd]
    rfl
  rw [indent, trimLeft_append_of_blank blank, trimLeft_cons_of_not_white hc]

theorem Printed.indent_filled (h : Printed cs) (width : Nat) : isBlank (indent width cs) = false := by
  obtain ⟨c, rest, rfl, hc⟩ := h.filled
  simp [indent, isBlank, hc]

theorem Printed.indentWidth_indent (h : Printed cs) (tab width : Nat) :
    indentWidth tab (indent width cs) = width := by
  obtain ⟨c, rest, rfl, hc⟩ := h.filled
  apply indentWidth_replicate
  have space : c ≠ ' ' := by
    rintro rfl
    cases hc
  have tabulator : c ≠ '\t' := by
    rintro rfl
    cases hc
  simp [indentWidth, columnsOf]

theorem Printed.indent_noHeader (h : Printed cs) (width : Nat) :
    doctypeHeader? (indent width cs) = none := by
  cases width with
  | zero => exact h.noHeader
  | succ width => rfl

theorem Name.not_white (name : Name) : ∀ c ∈ name.chars, isWhite c = false := by
  intro c hc
  obtain rfl | hc := List.mem_cons.1 hc
  · exact isWhite_of_isWord name.word
  · obtain word | rfl := name.plain c hc
    · exact isWhite_of_isWord word
    · rfl

theorem Name.tail (name : Name) : ∀ c ∈ name.rest, isNameTail c = true := by
  intro c hc
  obtain word | rfl := name.plain c hc
  · exact isNameTail_of_isWord word
  · rfl

theorem printed_angle {cs : List Char} (h : ∀ c ∈ cs, isWhite c = false) : Printed ('<' :: cs) := by
  have solid : ∀ c ∈ '<' :: cs, isWhite c = false := by
    intro c hc
    obtain rfl | hc := List.mem_cons.1 hc
    · rfl
    · exact h c hc
  refine ⟨⟨_, _, rfl, rfl⟩, ⟨?_, ?_⟩, ?_⟩
  · intro broken
    cases solid _ broken
  · intro last
    cases solid _ (List.mem_of_getLast? last)
  · simp [doctypeHeader?, dropDoctype_eq_none h]

/-- A mark that ends with a space, and code. -/
theorem printed_code {c : Char} (filled : isWhite c = false) (angle : c ≠ '<') (mark : List Char)
    (unbroken : '\n' ∉ c :: (mark ++ [' '])) (phrase : Phrase) :
    Printed (c :: (mark ++ ' ' :: phrase.chars)) := by
  refine ⟨⟨_, _, rfl, filled⟩, ⟨?_, ?_⟩, ?_⟩
  · simpa [phrase.unbroken] using unbroken
  · have last : (c :: (mark ++ ' ' :: phrase.chars)).getLast? =
        (' ' :: phrase.chars).getLast? := by
      rw [← List.cons_append, List.getLast?_append, List.getLast?_cons, Option.some_or]
    rw [last]
    cases h : phrase.chars.getLast? with
    | none => simp [List.getLast?_cons, h]
    | some d =>
      rintro hd
      have white := getLast_of_trim phrase.trimmed h
      simp only [List.getLast?_cons, h, Option.getD_some, Option.some.injEq] at hd
      rw [hd] at white
      cases white
  · unfold doctypeHeader?
    split
    · next h => exact absurd (List.cons.inj h).1 angle
    · rfl

theorem printed_conditional (condition : Phrase) : Printed (Header.conditional condition).print := by
  refine ⟨⟨_, _, rfl, rfl⟩, ⟨?_, ?_⟩, rfl⟩
  · simp [Header.print, condition.unbroken]
  · simp [Header.print, List.getLast?_cons]

theorem printed_header (header : Header) : Printed header.print := by
  cases header with
  | tag name => exact printed_angle name.not_white
  | control code =>
    exact printed_code (by decide) (by decide) [] (by decide) code.toPhrase
  | output escape code =>
    cases escape with
    | true => exact printed_code (by decide) (by decide) ['\''] (by decide) code.toPhrase
    | false =>
      exact printed_code (by decide) (by decide) ['=', '\''] (by decide) code.toPhrase
  | conditional condition => exact printed_conditional condition

theorem printed_void (name : Name) : Printed name.printVoid := by
  apply printed_angle
  intro c hc
  obtain hc | hc := List.mem_append.1 hc
  · exact name.not_white c hc
  · obtain rfl | hc := List.mem_cons.1 hc
    · rfl
    · obtain rfl := List.mem_singleton.1 hc
      rfl

/-- What a header opens. -/
def Header.owner : Header → Owner
  | tag name => .tag name.text []
  | control code => .control code.text
  | output escape code => .output escape code.text
  | conditional condition => .conditional condition.text

theorem Header.enclose_owner (header : Header) (nodes : List Node) :
    header.owner.enclose nodes = header.node (.multi nodes) := by
  cases header <;> rfl

theorem Name.letters (name : Name) : ∀ c ∈ name.chars, isWord c = true ∨ c = '-' :=
  List.forall_mem_cons.2 ⟨.inl name.word, name.plain⟩

/-- No colon follows the word that a tag's name starts with. -/
theorem head_dropWhile_isWord {cs rest : List Char} (plain : ∀ c ∈ cs, isWord c = true ∨ c = '-')
    (stop : Stops isNameTail rest) : ((cs ++ rest).dropWhile isWord).head? ≠ some ':' := by
  induction cs with
  | nil =>
    have noWord : Stops isWord rest := stop.of_imp fun _ => isNameTail_of_isWord
    rw [List.nil_append, noWord.dropWhile_eq_self]
    intro colon
    cases stop ':' colon
  | cons c cs ih =>
    obtain ⟨here, onward⟩ := List.forall_mem_cons.1 plain
    obtain word | rfl := here
    · rw [List.cons_append, List.dropWhile_cons_of_pos word]
      exact ih onward
    · rw [List.cons_append, List.dropWhile_cons_of_neg (by decide), List.head?_cons]
      decide

theorem read_name (name : Name) {rest : List Char} (stop : Stops isNameTail rest) :
    Head.read ('<' :: (name.chars ++ rest)) = .tag (some name.chars) rest :=
  Head.ofAngle_name name.word name.tail stop
    (Head.engine?_eq_none (head_dropWhile_isWord name.letters stop))

end Layout

end TemplateMarkup
