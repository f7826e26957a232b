import TemplateMarkup.Proofs.Builder.Sole
import TemplateMarkup.Proofs.Reading.Opening
import TemplateMarkup.Proofs.Tag.Lines

/-! Reading back a tag, however its attributes are laid out. -/
namespace TemplateMarkup

namespace TagLayout

/-- A list is over with the text that ends it, and nothing stands behind. -/
structure Closes (close : Option Char) (stop : Char) (closer : List Char) : Prop where
  final : IsFinal stop closer
  ended : ∃ angle, readListEnd close closer = .ok (.closed angle [])

theorem closes_bare (tag : Tag) : Closes none '>' tag.ending := by
  unfold Tag.ending
  cases tag.angle with
  | true => exact ⟨by simp [IsFinal], true, rfl⟩
  | false => exact ⟨by simp [IsFinal], false, rfl⟩

theorem closes_enclosed (tag : Tag) (closing : Char) :
    Closes (some closing) closing (closing :: tag.ending) := by
  unfold Tag.ending
  cases tag.angle with
  | true => exact ⟨by simp [IsFinal], true, by simp [readListEnd]⟩
  | false => exact ⟨by simp [IsFinal], false, by simp [readListEnd]⟩

theorem isStop_bare : IsStop none '>' := ⟨rfl, by decide⟩

theorem isStop_enclosed {opening closing : Char} (pair : closingBracket opening = some closing) :
    IsStop (some closing) closing := by
  have all : ∀ p ∈ bracketPairs, p.2 ∈ ['>', ')', ']', '}'] := by decide
  exact ⟨rfl, all _ (mem_bracketPairs pair)⟩

end TagLayout

namespace State
open TagLayout

variable (settings : Settings) {s : State} {tag : TagHead} {n : Nat}

theorem takeTag_bare (s : State) (tab : Nat) (name : String) (line : Line)
    {cs rest : List Char} {attrs : List Attr} (read : readShortcuts cs = (attrs, rest))
    (bare : ∀ c ∈ rest.head?, closingBracket c = none) :
    s.takeTag tab name line cs = s.takeAttributes tab ⟨name, attrs, s.number, line⟩ none line rest := by
  cases rest with
  | nil => simp [takeTag, read]
  | cons c rest =>
    have noBracket := bare c rfl
    simp [takeTag, read, noBracket]

theorem takeTag_enclosed (s : State) (tab : Nat) (name : String) (line : Line)
    {cs inner : List Char} {attrs : List Attr} {opening closing : Char}
    (read : readShortcuts cs = (attrs, opening :: inner))
    (pair : closingBracket opening = some closing) :
    s.takeTag tab name line cs =
      s.takeAttributes tab ⟨name, attrs, s.number, line⟩ (some closing) line inner := by
  simp [takeTag, read, pair]

/-- A row of attributes that is not the last one is read, and the list goes on. -/
theorem takeAttributes_row {closing : Char} (h : IsStop (some closing) closing) (s : State)
    (tab : Nat) (tag : TagHead) (line : Line) (row : Row closing) :
    s.takeAttributes tab tag (some closing) line row.print = .ok { s.breakLine with
      phase := .attributes { tag with attrs := tag.attrs ++ row.attrs } closing } := by
  have final : IsFinal closing [] := by simp [IsFinal]
  have read := readAttributes_row h row final
  rw [List.append_nil] at read
  simp only [takeAttributes, read, readListEnd]

/-- The last row is read with what ends the list, and the tag opens a block that nothing follows. -/
theorem takeAttributes_last {close : Option Char} {stop : Char} (h : IsStop close stop)
    (margin : s.builder.Margin n) (tab : Nat) (tag : TagHead) (line : Line) (row : Row stop)
    {closer : List Char} (closes : Closes close stop closer) :
    ∃ t b, s.takeAttributes tab tag close line (row.print ++ closer) = .ok t ∧ t.finish = .ok b ∧
      b.tree = .multi (List.replicate n .newline ++
        [.tag tag.name (tag.attrs ++ row.attrs) (.multi [.newline])]) := by
  obtain ⟨final, angle, ended⟩ := closes
  have none_left : Tail.read angle [] = .ok .block := rfl
  have taken : s.takeAttributes tab tag close line (row.print ++ closer) =
      .ok (s.takeTail tab { tag with attrs := tag.attrs ++ row.attrs } line .block) := by
    simp only [takeAttributes, readAttributes_row h row final, ended, none_left]
  have tree := (margin.sole (.tag tag.name (tag.attrs ++ row.attrs))).tree_closeAll
  rw [List.reverse_replicate] at tree
  exact ⟨_, _, taken, rfl, tree⟩

theorem feed_of_attributes {closing : Char} (line : Line)
    (under : s.phase = .attributes tag closing) :
    s.feed settings line = takeAttributes { s with number := s.number + 1 } settings.tabSize tag
      (some closing) line line := by
  simp [feed, under]

/-- All rows of a list are read, with a line end placed for each but the last. -/
theorem takeAttributes_rows {closing : Char} (h : IsStop (some closing) closing)
    (margin : s.builder.Margin n) (tag : TagHead) (line : Line) (rows : List (Row closing))
    (last : Row closing) {closer : List Char} (closes : Closes (some closing) closing closer) :
    ∃ t b, s.takeAttributes settings.tabSize tag (some closing) line (printRows closer last rows).1 =
        .ok t ∧
      ((printRows closer last rows).2.foldlM (feed settings) t >>= finish) = .ok b ∧
      b.tree = .multi (List.replicate (n + rows.length) .newline ++
        [.tag tag.name (tag.attrs ++ attrsOf rows last) (.multi [.newline])]) := by
  induction rows generalizing s tag n line with
  | nil => exact takeAttributes_last h margin settings.tabSize tag line last closes
  | cons row rows ih =>
    have taken := takeAttributes_row h s settings.tabSize tag line row
    let next : State := { s.breakLine with
      phase := .attributes { tag with attrs := tag.attrs ++ row.attrs } closing }
    have fed := feed_of_attributes (s := next) settings (printRows closer last rows).1 rfl
    have margin' : ({ next with number := next.number + 1 } : State).builder.Margin (n + 1) :=
      margin.place
    obtain ⟨t, b, here, below, tree⟩ := ih margin' { tag with attrs := tag.attrs ++ row.attrs }
      (printRows closer last rows).1
    refine ⟨next, b, taken, ?_, ?_⟩
    · rw [printRows, List.foldlM_cons, fed, here]
      exact below
    · rw [tree, attrsOf, attrsOf, List.flatMap_cons, List.length_cons, Nat.add_right_comm,
        Nat.add_assoc n, List.append_assoc, List.append_assoc]

end State

namespace TagLayout

variable (settings : Settings)

/-- A tag's line is taken from the end of its shortcuts on. -/
theorem feed_start {tag : Tag} (other : ¬ tag.name.IsDoctype) {front : List Char}
    (stop : Stops isShortcutTail front) (ended : Stops isShortcutMark (trimLeft front)) :
    ∃ cs, State.feed settings {} (tag.start ++ front) =
        (State.opening (tag.start ++ front)).takeTag settings.tabSize tag.name.text
          (tag.start ++ front) cs ∧
      readShortcuts cs = (tag.shortcuts.map Shortcut.attr, front) := by
  have noName : Stops isNameTail (tag.shortcuts.flatMap Shortcut.print ++ front) :=
    stops_shortcuts ⟨by decide, by decide⟩ tag.shortcuts
      (stop.of_imp fun _ => isShortcutTail_of_isNameTail)
  have whole : tag.start ++ front =
      '<' :: (tag.name.chars ++ (tag.shortcuts.flatMap Shortcut.print ++ front)) := by
    simp [Tag.start]
  rw [whole]
  exact ⟨_, State.feed_tag settings tag.name noName fun doctype => absurd doctype other,
    readShortcuts_shortcuts tag.shortcuts stop ended⟩

theorem margin_opening (line : Line) : (State.opening line).builder.Margin 0 := ⟨rfl, rfl, rfl⟩

/-- What may stand right behind the shortcuts, if no bracket does. -/
theorem front_bare {entries : List (Entry '>')}
    (apart : ∀ entry ∈ entries, entry.gap.chars.head? = some ' ') (tag : Tag) :
    let front := entries.flatMap Entry.print ++ tag.ending
    Stops isShortcutTail front ∧ Stops isShortcutMark (trimLeft front) ∧
      ∀ c ∈ front.head?, closingBracket c = none := by
  cases entries with
  | nil =>
    unfold Tag.ending
    cases tag.angle with
    | true => exact ⟨by decide, by decide, by simp [closingBracket]⟩
    | false => exact ⟨by decide, by decide, by simp⟩
  | cons entry entries =>
    obtain ⟨gap, hgap⟩ := List.head?_eq_some_iff.1 (apart entry (by simp))
    obtain ⟨c, cs, hprint, word⟩ := entry.item.cons
    rw [List.flatMap_cons, List.append_assoc]
    intro front
    have shown : front =
        ' ' :: (gap ++ (entry.item.print ++ (entries.flatMap Entry.print ++ tag.ending))) := by
      simp [front, Entry.print, hgap]
    have trimmed : trimLeft front = c :: (cs ++ (entries.flatMap Entry.print ++ tag.ending)) := by
      rw [entry.trimLeft_append, hprint]
      rfl
    rw [trimmed, shown]
    refine ⟨stops_cons.2 (by decide), stops_cons.2 ?_, ?_⟩
    · have hash : c ≠ '#' := ne_of_isWord word (by decide)
      have dot : c ≠ '.' := ne_of_isWord word (by decide)
      simp [isShortcutMark, hash, dot]
    · rintro c hc
      cases hc
      rfl

/-- No shortcut goes on with a bracket. -/
theorem front_enclosed {opening closing : Char} (pair : closingBracket opening = some closing)
    (inner : List Char) :
    Stops isShortcutTail (opening :: inner) ∧
      Stops isShortcutMark (trimLeft (opening :: inner)) := by
  have all : ∀ p ∈ bracketPairs, isShortcutTail p.1 = false ∧ isShortcutMark p.1 = false ∧
      isWhite p.1 = false := by decide
  obtain ⟨noTail, noMark, solid⟩ := all _ (mem_bracketPairs pair)
  rw [trimLeft_cons_of_not_white solid]
  exact ⟨stops_cons.2 noTail, stops_cons.2 noMark⟩

/-- A tag with its attributes on its own line. -/
theorem readLines_bare {tag : Tag} (other : ¬ tag.name.IsDoctype) {entries : List (Entry '>')}
    (apart : ∀ entry ∈ entries, entry.gap.chars.head? = some ' ')
    (listing : tag.listing = .bare entries apart) :
    ∃ b, readLines settings tag.lines = .ok b ∧ b.tree = .multi tag.nodes := by
  obtain ⟨stop, ended, noBracket⟩ := front_bare apart tag
  obtain ⟨cs, fed, read⟩ := feed_start settings other stop ended
  have gapped : ∀ entry ∈ entries.tail, entry.gap.chars ≠ [] := by
    intro entry hentry empty
    have gap := apart entry (List.mem_of_mem_tail hentry)
    rw [empty] at gap
    cases gap
  let row : Row '>' := ⟨entries, gapped, ⟨[], rfl, by simp⟩⟩
  have printed : row.print = entries.flatMap Entry.print := List.append_nil _
  have lines : tag.lines = [tag.start ++ (row.print ++ tag.ending)] := by
    rw [Tag.lines, listing, printed]
    rfl
  rw [State.takeTag_bare _ _ _ _ read noBracket, ← printed] at fed
  let line := tag.start ++ (row.print ++ tag.ending)
  obtain ⟨t, b, taken, finished, tree⟩ := State.takeAttributes_last isStop_bare
    (margin_opening line) settings.tabSize ⟨tag.name.text, tag.shortcuts.map Shortcut.attr, 1, line⟩
    line row (closes_bare tag)
  refine ⟨b, ?_, ?_⟩
  · rw [readLines, lines, List.foldlM_cons, fed.trans taken]
    exact finished
  · rw [tree, Tag.nodes, lines, Tag.attrs, listing]
    rfl

/-- A tag with its attributes in brackets. -/
theorem readLines_enclosed {tag : Tag} (other : ¬ tag.name.IsDoctype) {opening closing : Char}
    (pair : closingBracket opening = some closing) (rows : List (Row closing)) (last : Row closing)
    (listing : tag.listing = .enclosed opening closing pair rows last) :
    ∃ b, readLines settings tag.lines = .ok b ∧ b.tree = .multi tag.nodes := by
  obtain ⟨stop, ended⟩ := front_enclosed pair (printRows (closing :: tag.ending) last rows).1
  obtain ⟨cs, fed, read⟩ := feed_start settings other stop ended
  rw [State.takeTag_enclosed _ _ _ _ read pair] at fed
  let line := tag.start ++ opening :: (printRows (closing :: tag.ending) last rows).1
  obtain ⟨t, b, taken, finished, tree⟩ := State.takeAttributes_rows settings (isStop_enclosed pair)
    (margin_opening line) ⟨tag.name.text, tag.shortcuts.map Shortcut.attr, 1, line⟩ line rows last
    (closes_enclosed tag closing)
  have lines : tag.lines = line :: (printRows (closing :: tag.ending) last rows).2 := by
    rw [Tag.lines, listing]
    rfl
  refine ⟨b, ?_, ?_⟩
  · rw [readLines, lines, List.foldlM_cons, fed.trans taken]
    exact finished
  · rw [tree, Tag.nodes, lines, List.length_cons, length_printRows, Tag.attrs, listing, Nat.zero_add]
    rfl

theorem readLines_tag {tag : Tag} (other : ¬ tag.name.IsDoctype) :
    ∃ b, readLines settings tag.lines = .ok b ∧ b.tree = .multi tag.nodes := by
  cases listing : tag.listing with
  | bare entries apart => exact readLines_bare settings other apart listing
  | enclosed opening closing pair rows last =>
    exact readLines_enclosed settings other pair rows last listing

variable {settings : Settings}

/-- Attributes round trip, however they are laid out. Every tag, printed with its shortcuts and with
its attributes on its own line or in brackets on any number of lines, is parsed back to just its
attributes in their order, whether or not its last line is ended. -/
theorem parse_tag (tag : Tag) (other : ¬ tag.name.IsDoctype) :
    parse settings (String.ofList (printLines tag.lines)) = .ok (.multi tag.nodes) ∧
    parse settings (String.ofList (List.intercalate ['\n'] tag.lines)) = .ok (.multi tag.nodes) := by
  have other' : ¬ tag.closed.name.IsDoctype := other
  obtain ⟨b, read, tree⟩ := readLines_tag settings other'
  obtain ⟨closed, printable⟩ := lines_closed tag
  rw [← closed] at read
  rw [← nodes_closed, ← tree]
  exact parse_lines printable read

/-- A list over four lines, one of them blank and two ended by returns: a splice that holds the quote,
an equals sign with spaces around it, the bracket within a value, a value without quotes, and a
flag. -/
theorem parse_tag_brackets :
    parse {} "<p-x#a.b:c[x=\"t #\x7bf(\"\x7b\x7d\")\x7d\" \r\n\t\n  d:e = '\"]'\r\n zz=(=) y]>" =
      .ok (.multi [.newline, .newline, .newline, .tag "p-x" [.shortcut "id" "a",
        .shortcut "class" "b:c", .valued "x" (.interpolate "t #\x7bf(\"\x7b\x7d\")\x7d"),
        .valued "d:e" (.interpolate "\"]"), .valued "zz" (.interpolate "(=)"), .flag "y"]
        (.multi [.newline])]) := by
  have spliced : readQuoted '"' 0 "t #\x7bf(\"\x7b\x7d\")\x7d\"".toList =
      some ("t #\x7bf(\"\x7b\x7d\")\x7d".toList, []) := by decide
  have bracketed : readQuoted '\'' 0 "\"]'".toList = some ("\"]".toList, []) := by decide
  let gap : Gap := ⟨[], rfl, by decide⟩
  let space : Gap := ⟨[' '], rfl, by decide⟩
  let rows : List (Row ']') := [
    ⟨[⟨gap, .valued ⟨['x'], by decide⟩ gap gap
      (.quoted '"' _ (.inl rfl) (quotable_of_readQuoted spliced) (by decide))⟩], by simp,
      ⟨[' ', '\r'], rfl, by decide⟩⟩,
    ⟨[], by simp, ⟨['\t'], rfl, by decide⟩⟩,
    ⟨[⟨⟨[' ', ' '], rfl, by decide⟩, .valued ⟨['d', ':', 'e'], by decide⟩ space space
      (.quoted '\'' _ (.inr rfl) (quotable_of_readQuoted bracketed) (by decide))⟩], by simp,
      ⟨['\r'], rfl, by decide⟩⟩]
  have solid : ∀ c ∈ ['(', '=', ')'], isWhite c = false ∧ c ≠ ']' := by
    simp [isWhite]
  let last : Row ']' := ⟨[⟨space, .valued ⟨['z', 'z'], by decide⟩ gap gap
    (.bare '(' ['=', ')'] (by decide) solid)⟩, ⟨space, .flag ⟨['y'], by decide⟩⟩],
    by simp [space], gap⟩
  let name : Layout.Name := ⟨'p', ['-', 'x'], by decide,
    List.forall_mem_cons.2 ⟨.inr rfl, List.forall_mem_singleton.2 (.inl (by decide))⟩⟩
  have other : ¬ name.IsDoctype := by decide
  let tag : Tag := ⟨name,
    [⟨true, ⟨['a'], by decide⟩⟩, ⟨false, ⟨['b', ':', 'c'], by decide⟩⟩],
    .enclosed '[' ']' rfl rows last, true⟩
  exact (parse_tag tag other).2

end TagLayout

end TemplateMarkup
