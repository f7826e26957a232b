import TemplateMarkup.Proofs.Passage.Gathering
import TemplateMarkup.Proofs.Reading.Opening
import TemplateMarkup.Proofs.Tag.Readers

/-! Reading back a passage: the text of an embedded engine, and text that starts on a tag's line. -/
namespace TemplateMarkup

variable {settings : Settings}

section

variable {column : Nat} {lines printed : List Line}

theorem close_written (plain : ∀ line ∈ lines, line.IsPlain)
    (written : List.Forall₂ (WrittenAt column) lines printed) :
    List.Forall₂ (WrittenAt column) lines (printed.map (closeLine ·.reverse)) := by
  have both := (List.forall₂_and_left lines printed).2 ⟨plain, written⟩
  exact List.forall₂_map_right_iff.2 (both.imp fun _ _ h => h.2.close h.1)

/-- Written lines can be read back, unless the last one is written for an empty one. -/
theorem printable_written (filled : lines ≠ []) (plain : ∀ line ∈ lines, line.IsPlain)
    (last : lines.getLast? ≠ some []) (written : List.Forall₂ (WrittenAt column) lines printed) :
    Printable printed := by
  induction written with
  | nil => exact absurd rfl filled
  | @cons line shown lines printed here below ih =>
    obtain ⟨clean, onward⟩ := List.forall_mem_cons.1 plain
    cases below with
    | nil =>
      have seen : line ≠ [] := fun empty => last (congrArg some empty)
      refine .last (here.isPlain clean seen) ?_
      rw [here.eq_of_ne_nil seen]
      exact List.append_ne_nil_of_right_ne_nil _ seen
    | cons next below =>
      exact .cons (here.unbroken clean) (ih (List.cons_ne_nil _ _) onward last)

/-- A text of some plain lines and, below them, of lines written at a column is read as if no line
ended with a return, and its last line need not be ended. -/
theorem parse_written {openers : List Line} {tree : Node}
    (opening : openers ≠ []) (solid : ∀ line ∈ openers, line.IsPlain ∧ line ≠ [])
    (plain : ∀ line ∈ lines, line.IsPlain) (last : lines.getLast? ≠ some [])
    (written : List.Forall₂ (WrittenAt column) lines printed)
    (read : ∀ printed, List.Forall₂ (WrittenAt column) lines printed →
      ∃ b, readLines settings (openers ++ printed) = .ok b ∧ b.tree = tree) :
    parse settings (String.ofList (printLines (openers ++ printed))) = .ok tree ∧
    parse settings (String.ofList (List.intercalate ['\n'] (openers ++ printed))) = .ok tree := by
  obtain ⟨b, hb, rfl⟩ := read _ (close_written plain written)
  have printable : Printable (openers ++ printed) := by
    cases lines with
    | nil =>
      rw [List.forall₂_nil_left_iff.1 written, List.append_nil]
      exact .of_solid solid opening
    | cons line lines =>
      exact .append (fun line hline => (solid line hline).1.unbroken)
        (printable_written (List.cons_ne_nil _ _) plain last written)
  refine parse_lines printable ?_
  rwa [List.map_append, map_closeLine fun line hline => (solid line hline).1]

/-- The tree of a text whose first lines open a block and whose other lines go into it. -/
theorem readLines_passage {root : List Node} {owner : Owner} {verbatim : Bool} {base : Nat}
    {openers first more printed : List Line} {s : State} (deep : 0 < base)
    (opened : openers.foldlM (State.feed settings) {} = .ok s)
    (gathers : s.Gathers root owner verbatim base first)
    (kept : ∀ line ∈ more, line ≠ [] → Kept verbatim line)
    (last : (first ++ more).getLast? ≠ some [])
    (written : List.Forall₂ (WrittenAt base) more printed) :
    ∃ b, readLines settings (openers ++ printed) = .ok b ∧
      b.tree = .multi (root.reverse ++ [owner.enclose (passage (first ++ more))]) := by
  obtain ⟨t, run, gathers'⟩ := gathers.foldlM settings deep written kept
  obtain ⟨b, finished, tree⟩ := gathers'.finish last
  refine ⟨b, ?_, tree⟩
  rw [readLines_append opened]
  exact (congrArg (· >>= State.finish) run).trans finished

end

/-! Embedded text. -/

theorem Head.ofAngle_engine {engine : List Char} (filled : engine ≠ [])
    (word : ∀ c ∈ engine, isWord c = true) :
    Head.ofAngle (engine ++ [':']) = .embedded engine := by
  have found : engine? (engine ++ [':']) = some engine :=
    engine?_iff.2 ⟨[], rfl, filled, word, rfl⟩
  unfold ofAngle
  rw [found]

/-- The lines of an embedded text. The first one shows its column and the last one its end; any line
may hold whatever it likes, but one without anything to be seen is empty. -/
structure Embeddable (first : Line) (rest : List Line) : Prop where
  plain : ∀ line ∈ first :: rest, line.IsPlain
  seen : isBlank first = false
  flush : Stops isIndent first
  solid : ∀ line ∈ rest, line = [] ∨ isBlank line = false
  last : rest.getLast? ≠ some []

theorem kept_of_seen {line : Line} (seen : isBlank line = false) : Kept true line :=
  ⟨seen, fun h => Bool.noConfusion h, fun h => Bool.noConfusion h⟩

theorem ne_nil_of_seen {line : Line} (seen : isBlank line = false) : line ≠ [] := by
  rintro rfl
  cases seen

theorem feed_embedded (settings : Settings) {engine : List Char} (filled : engine ≠ [])
    (word : ∀ c ∈ engine, isWord c = true) {base : Nat} (deep : 0 < base) {first : Line}
    (seen : isBlank first = false) (flush : Stops isIndent first) :
    ∃ s : State, ['<' :: (engine ++ [':']), List.replicate base ' ' ++ first].foldlM
        (State.feed settings) {} = .ok s ∧
      s.Gathers [.newline] (.embedded (String.ofList engine)) true base [first] := by
  have solid : ∀ c ∈ engine ++ [':'], isWhite c = false := by
    intro c hc
    obtain hc | hc := List.mem_append.1 hc
    · exact isWhite_of_isWord (word c hc)
    · obtain rfl := List.mem_singleton.1 hc
      rfl
  have noHeader : doctypeHeader? ('<' :: (engine ++ [':'])) = none := by
    rw [doctypeHeader?, dropDoctype_eq_none solid]
  have opened := State.feed_angle settings noHeader
  rw [Head.ofAngle_engine filled word] at opened
  obtain ⟨block, added, holds⟩ := TextBlock.holds_first base (kept_of_seen seen)
    (flush.indentWidth_eq_zero settings.tabSize)
  have taken : (TextBlock.empty true 0).takes settings.tabSize 0
      (List.replicate base ' ' ++ first) = true := TextBlock.takes_written deep (.text first)
  let s := (State.opening ('<' :: (engine ++ [':']))).breakLine.begin
    (.embedded (String.ofList engine))
  have joined : ((s.takeText (.empty true 0)).feed settings (List.replicate base ' ' ++ first)) =
      .ok { s with number := 2, phase := .text block } := by
    have width : s.builder.width = 0 := rfl
    simp only [State.feed, State.takeText, width, taken, if_true, added]
    rfl
  refine ⟨{ s with number := 2, phase := .text block }, ?_, ⟨rfl, rfl, rfl⟩, block, rfl, holds⟩
  rw [List.foldlM_cons, opened]
  exact (congrArg (· >>= pure) joined)

theorem plain_engine {engine : List Char} (word : ∀ c ∈ engine, isWord c = true) :
    Line.IsPlain ('<' :: (engine ++ [':'])) := by
  refine ⟨?_, by simp [List.getLast?_cons]⟩
  simp only [List.mem_cons, List.mem_append, List.not_mem_nil, not_or, or_false]
  refine ⟨by decide, fun broken => ?_, by decide⟩
  exact ne_of_isWord (word _ broken) (by decide) rfl

theorem getLast_cons_ne_nil {first : Line} {rest : List Line} (seen : first ≠ [])
    (last : rest.getLast? ≠ some []) : (first :: rest).getLast? ≠ some [] := by
  cases hlast : rest.getLast? with
  | none => simp [List.getLast?_cons, hlast, seen]
  | some line => simpa [List.getLast?_cons, hlast] using last

/-- Embedded text is captured as it is. Whatever its lines hold, behind their column's spaces they
are parsed back to just themselves; an empty one may be written as any blank line. -/
theorem parse_embedded {engine : List Char} (filled : engine ≠ [])
    (word : ∀ c ∈ engine, isWord c = true) {column : Nat} (deep : 0 < column) {first : Line}
    {rest printed : List Line} (text : Embeddable first rest)
    (written : List.Forall₂ (WrittenAt column) (first :: rest) printed) :
    let lines := ('<' :: (engine ++ [':'])) :: printed
    let tree := Node.multi
      [.newline, .embedded (String.ofList engine) (.multi (passage (first :: rest)))]
    parse settings (String.ofList (printLines lines)) = .ok tree ∧
    parse settings (String.ofList (List.intercalate ['\n'] lines)) = .ok tree := by
  obtain ⟨shown, below, here, onward, rfl⟩ := List.forall₂_cons_left_iff.1 written
  have visible : first ≠ [] := ne_nil_of_seen text.seen
  obtain rfl := here.eq_of_ne_nil visible
  obtain ⟨clean, plain⟩ := List.forall_mem_cons.1 text.plain
  have last := getLast_cons_ne_nil visible text.last
  have kept : ∀ line ∈ rest, line ≠ [] → Kept true line := by
    intro line hline filled
    exact kept_of_seen ((text.solid line hline).resolve_left filled)
  obtain ⟨s, opened, gathers⟩ :=
    feed_embedded settings filled word deep text.seen text.flush
  have solid : ∀ line : Line,
      line ∈ ['<' :: (engine ++ [':']), List.replicate column ' ' ++ first] →
        line.IsPlain ∧ line ≠ [] := by
    refine List.forall_mem_cons.2 ⟨⟨plain_engine word, by simp⟩, List.forall_mem_singleton.2 ?_⟩
    exact ⟨here.isPlain clean visible, List.append_ne_nil_of_right_ne_nil _ visible⟩
  have read (printed : List Line) (written : List.Forall₂ (WrittenAt column) rest printed) :=
    readLines_passage deep opened gathers kept last written
  intro lines tree
  have split : lines = ['<' :: (engine ++ [':']), List.replicate column ' ' ++ first] ++ below := rfl
  rw [split]
  exact parse_written (List.cons_ne_nil _ _) solid plain text.last onward read

/-- Marks and remarks are text like any other, and so are tabs behind the column. -/
theorem parse_embedded_marks :
    parse {} "<css:\n  > a\n \t\n  \t#b -- c\n" = .ok (.multi [.newline, .embedded "css"
      (.multi [.interpolate "> a\n\n\t#b -- c", .newline, .newline, .newline])]) := by
  have text : Embeddable "> a".toList [[], "\t#b -- c".toList] :=
    ⟨by decide, by decide, by decide, by decide, by decide⟩
  have written : List.Forall₂ (WrittenAt 2) ["> a".toList, [], "\t#b -- c".toList]
      ["  > a".toList, " \t".toList, "  \t#b -- c".toList] :=
    .cons (.text _) (.cons (.blank (by decide) (by decide)) (.cons (.text _) .nil))
  have word : ∀ c ∈ ['c', 's', 's'], isWord c = true := List.all_eq_true.1 (by decide)
  exact (parse_embedded (by simp) word (by decide) text written).1

/-! Text that starts on a tag's line. -/

namespace Layout

/-- The start of a line that a tag shares with its text, perhaps with a space that is dropped. -/
def Name.lead (name : Name) (spaced : Bool) : List Char :=
  '<' :: (name.chars ++ '>' :: (if spaced then [' '] else []))

end Layout

/-- The lines of a text that starts on a tag's line: what stands there could be nothing but text, no
line holds a remark, and any line below is empty or starts, behind its indentation, with something
to be seen that is no marker. -/
structure Inlinable (first : Line) (rest : List Line) : Prop where
  plain : ∀ line ∈ first :: rest, line.IsPlain
  unremarked : ∀ line ∈ first :: rest, IsUnremarked line
  seen : isBlank first = false
  flush : first.head? ≠ some ' '
  noOutput : (trimLeft first).head? ≠ some '='
  noVoid : ¬ ['/', '>'] <+: trimLeft first
  solid : ∀ line ∈ rest,
    line = [] ∨ (isBlankText line = false ∧ (afterIndent line).head? ≠ some '>')
  last : rest.getLast? ≠ some []

theorem Tail.read_inline {first : Line} (seen : isBlank first = false)
    (flush : first.head? ≠ some ' ') (noOutput : (trimLeft first).head? ≠ some '=')
    (noVoid : ¬ ['/', '>'] <+: trimLeft first) (spaced : Bool) :
    Tail.read true ((if spaced then [' '] else []) ++ first) = .ok (.text first) := by
  have trimmed : trimLeft ((if spaced then [' '] else []) ++ first) = trimLeft first :=
    trimLeft_append_of_blank (by cases spaced <;> rfl) first
  unfold Tail.read
  rw [trimmed]
  split
  · next none_left =>
    have blank : isBlank first = true := List.all_eq_true.2 (List.dropWhile_eq_nil_iff.1 none_left)
    rw [blank] at seen
    cases seen
  · next found => exact absurd (by rw [found]; rfl) noOutput
  · next rest found => exact absurd ⟨rest, found.symm⟩ noVoid
  · rw [if_neg (by simp)]
    cases spaced with
    | true => rfl
    | false =>
      simp only [Bool.false_eq_true, if_false, List.nil_append]
      split
      · exact absurd rfl flush
      · rfl

theorem Layout.Name.columnAfter_lead (name : Name) (spaced : Bool) (tab : Nat) :
    columnAfter tab (name.lead spaced) = (name.lead spaced).length :=
  Nat.zero_add _

theorem Layout.Name.lead_unbroken (name : Name) (spaced : Bool) : '\n' ∉ name.lead spaced := by
  have solid : '\n' ∉ name.chars := by
    intro broken
    cases name.not_white _ broken
  cases spaced <;> simp [lead, solid]

/-- The column of a text is where it starts on its line. -/
theorem State.takeTail_text (s : State) (tab : Nat) (tag : TagHead) (lead text : List Char) :
    s.takeTail tab tag (lead ++ text) (.text text) =
      (State.begin { s with gap := true } (.tag tag.name tag.attrs)).takeText
        (.startAt (columnAfter tab lead) (cutRemark text)) := by
  simp [State.takeTail]

theorem feed_inline (settings : Settings) (name : Layout.Name) (spaced : Bool) {first : Line}
    {rest : List Line} (text : Inlinable first rest) :
    ∃ s, State.feed settings {} (name.lead spaced ++ first) = .ok s ∧
      s.Gathers [] (.tag name.text []) false (name.lead spaced).length [first] := by
  let behind := (if spaced then [' '] else []) ++ first
  have whole : name.lead spaced ++ first = '<' :: (name.chars ++ '>' :: behind) := by
    simp [Layout.Name.lead, behind]
  have stop : Stops isNameTail ('>' :: behind) := stops_cons.2 rfl
  have opened := State.feed_tag settings name stop fun _ => stops_cons.2 rfl
  have noShortcuts : readShortcuts ('>' :: behind) = ([], '>' :: behind) :=
    readShortcuts_end (stops_cons.2 rfl)
  have noAttributes : readAttributes none ('>' :: behind) = .ok ([], '>' :: behind) :=
    readAttributes_end (stops_cons.2 rfl)
  have tail := Tail.read_inline text.seen text.flush text.noOutput text.noVoid spaced
  rw [← whole] at opened
  have taken : (State.opening (name.lead spaced ++ first)).takeTag settings.tabSize name.text
      (name.lead spaced ++ first) ('>' :: behind) =
      .ok ((State.opening (name.lead spaced ++ first)).takeTail settings.tabSize
        ⟨name.text, [], 1, name.lead spaced ++ first⟩ (name.lead spaced ++ first) (.text first)) := by
    simp [State.takeTag, noShortcuts, closingBracket, State.takeAttributes, noAttributes,
      readListEnd, behind, tail]
    rfl
  rw [State.takeTail_text, name.columnAfter_lead] at taken
  have holds := TextBlock.holds_startAt (name.lead spaced).length (text.unremarked first (by simp))
  exact ⟨_, opened.trans taken, ⟨rfl, rfl, rfl⟩, _, rfl, holds⟩

/-- Text that starts on a tag's line goes on below. Lines that are written under its first character
are parsed back to just themselves, and an empty one may be written as any blank line. -/
theorem parse_tag_text (name : Layout.Name) (spaced : Bool) {first : Line}
    {rest printed : List Line} (text : Inlinable first rest)
    (written : List.Forall₂ (WrittenAt (name.lead spaced).length) rest printed) :
    let lines := (name.lead spaced ++ first) :: printed
    let tree := Node.multi [.tag name.text [] (.multi (passage (first :: rest)))]
    parse settings (String.ofList (printLines lines)) = .ok tree ∧
    parse settings (String.ofList (List.intercalate ['\n'] lines)) = .ok tree := by
  obtain ⟨clean, plain⟩ := List.forall_mem_cons.1 text.plain
  have visible := ne_nil_of_seen text.seen
  have last := getLast_cons_ne_nil visible text.last
  have kept : ∀ line ∈ rest, line ≠ [] → Kept false line := by
    intro line hline filled
    obtain ⟨seen, noMarker⟩ := (text.solid line hline).resolve_left filled
    have unmarked : line.head? ≠ some '>' := by
      intro marker
      obtain ⟨behind, rfl⟩ := List.head?_eq_some_iff.1 marker
      exact noMarker rfl
    exact ⟨seen, fun _ => unmarked, fun _ => text.unremarked line (by simp [hline])⟩
  obtain ⟨s, fed, gathers⟩ := feed_inline settings name spaced text
  have opened : [name.lead spaced ++ first].foldlM (State.feed settings) {} = .ok s := by
    rw [List.foldlM_cons, fed]
    rfl
  have solid : ∀ line : Line, line ∈ [name.lead spaced ++ first] → line.IsPlain ∧ line ≠ [] :=
    List.forall_mem_singleton.2 ⟨clean.append visible (name.lead_unbroken spaced), List.cons_ne_nil _ _⟩
  have read (printed : List Line)
      (written : List.Forall₂ (WrittenAt (name.lead spaced).length) rest printed) :
      ∃ b, readLines settings ([name.lead spaced ++ first] ++ printed) = .ok b ∧
        b.tree = .multi [.tag name.text [] (.multi (passage (first :: rest)))] :=
    readLines_passage (Nat.succ_pos _) opened gathers kept last written
  intro lines tree
  have split : lines = [name.lead spaced ++ first] ++ printed := rfl
  rw [split]
  exact parse_written (List.cons_ne_nil _ _) solid plain text.last written read

/-- An output mark below, a splice, an escaped hash sign and a marker within a line are text. -/
theorem parse_tag_text_marks :
    parse {} "<dt> one/>\n \t\r\n     = #\x7btwo\x7d >\n\n       \\# three" =
      .ok (.multi [.tag "dt" [] (.multi [.interpolate "one/>\n\n= #\x7btwo\x7d >\n\n  \\# three",
        .newline, .newline, .newline, .newline, .newline])]) := by
  let name : Layout.Name :=
    ⟨'d', ['t'], by decide, List.forall_mem_singleton.2 (.inl (by decide))⟩
  have text : Inlinable "one/>".toList
      [[], "= #\x7btwo\x7d >".toList, [], "  \\# three".toList] :=
    ⟨by decide, by decide, by decide, by decide, by decide, by decide, by decide, by decide⟩
  have written : List.Forall₂ (WrittenAt (name.lead true).length)
      [[], "= #\x7btwo\x7d >".toList, [], "  \\# three".toList]
      [" \t\r".toList, "     = #\x7btwo\x7d >".toList, [], "       \\# three".toList] :=
    .cons (.blank (by decide) (by decide)) (.cons (.text _)
      (.cons (.blank (by decide) (by decide)) (.cons (.text _) .nil)))
  exact (parse_tag_text name true text written).2

end TemplateMarkup
