import Mathlib.Data.List.DropRight
import TemplateMarkup.Proofs.Tag.Layouts
import TemplateMarkup.Proofs.Tag.Listed
import TemplateMarkup.Proofs.Text.Spans
import TemplateMarkup.Tag.Tail

/-! What the readers of a tag's line make of what is written for them. -/
namespace TemplateMarkup

/-- The marks that shortcuts start with. -/
def isShortcutMark (c : Char) : Bool := c = '#' || c = '.'

theorem isNameTail_of_isWhite {c : Char} (h : isWhite c = true) : isNameTail c = false := by
  have colon : c ≠ ':' := by rintro rfl; cases h
  have hyphen : c ≠ '-' := by rintro rfl; cases h
  simp [isNameTail, isWord_of_isWhite h, colon, hyphen]

theorem isShortcutTail_of_isNameTail {c : Char} (h : isNameTail c = true) :
    isShortcutTail c = true := by
  simp only [isNameTail, Bool.or_eq_true] at h
  obtain (word | colon) | hyphen := h
  · simp [isShortcutTail, isShortcutHead, word]
  · simp [isShortcutTail, colon]
  · simp [isShortcutTail, hyphen]

theorem readShortcuts_end {cs : List Char} (h : Stops isShortcutMark (trimLeft cs)) :
    readShortcuts cs = ([], cs) := by
  unfold readShortcuts
  split
  · next mark c rest same =>
    rw [same, stops_cons] at h
    simp only [isShortcutMark] at h
    simp [h]
  · rfl

theorem readName_end {cs : List Char} (h : Stops isWord (trimLeft cs)) : readName cs = none := by
  unfold readName
  split
  · next same =>
    rw [same, stops_cons] at h
    simp [h]
  · rfl

theorem readAttributes_end {close : Option Char} {cs : List Char}
    (h : Stops isWord (trimLeft cs)) : readAttributes close cs = .ok ([], trimLeft cs) := by
  rw [readAttributes_eq, readName_end h]

theorem trimLeft_trimLeft (cs : List Char) : trimLeft (trimLeft cs) = trimLeft cs :=
  List.dropWhile_idempotent isWhite cs

theorem readName_trimLeft (cs : List Char) : readName (trimLeft cs) = readName cs := by
  rw [readName, trimLeft_trimLeft, ← readName]

/-- White space in front of attributes makes no difference. -/
theorem readAttributes_trimLeft (close : Option Char) (cs : List Char) :
    readAttributes close (trimLeft cs) = readAttributes close cs := by
  rw [readAttributes_eq, readAttributes_eq close cs, readName_trimLeft, trimLeft_trimLeft]

namespace TagLayout

theorem Label.cons (label : Label) : ∃ c cs, label.chars = c :: cs ∧ isWord c = true ∧
    ∀ d ∈ cs, isNameTail d = true := by
  obtain ⟨chars, named⟩ := label
  cases chars with
  | nil => cases named
  | cons c cs =>
    rw [isName, Bool.and_eq_true, List.all_eq_true] at named
    exact ⟨c, cs, rfl, named⟩

theorem readShortcuts_shortcut (shortcut : Shortcut) {rest left : List Char} {attrs : List Attr}
    (stop : Stops isShortcutTail rest) (behind : readShortcuts rest = (attrs, left)) :
    readShortcuts (shortcut.print ++ rest) = (shortcut.attr :: attrs, left) := by
  obtain ⟨isId, value⟩ := shortcut
  obtain ⟨c, cs, hchars, word, tail⟩ := value.cons
  have inside : ∀ d ∈ cs, isShortcutTail d = true := fun d hd =>
    isShortcutTail_of_isNameTail (tail d hd)
  have taken := takeWhile_append_of_stops inside stop
  have ended := dropWhile_append_of_stops inside stop
  have head : isShortcutHead c = true := by simp [isShortcutHead, word]
  have printed : trimLeft (Shortcut.print ⟨isId, value⟩ ++ rest) =
      (if isId then '#' else '.') :: c :: (cs ++ rest) := by
    cases isId with
    | true => simp [Shortcut.print, hchars, trimLeft, isWhite]
    | false => simp [Shortcut.print, hchars, trimLeft, isWhite]
  unfold readShortcuts
  split
  · next mark d more same =>
    rw [printed] at same
    obtain ⟨rfl, tails⟩ := List.cons.inj same
    obtain ⟨rfl, rfl⟩ := List.cons.inj tails
    simp only [taken, ended, behind]
    cases isId with
    | true => simp [head, Shortcut.attr, Label.text, hchars]
    | false => simp [head, Shortcut.attr, Label.text, hchars]
  · next other => exact absurd printed (other _ _ _)

theorem stops_shortcuts {p : Char → Bool} (marks : p '#' = false ∧ p '.' = false)
    (shortcuts : List Shortcut) {rest : List Char} (stop : Stops p rest) :
    Stops p (shortcuts.flatMap Shortcut.print ++ rest) := by
  cases shortcuts with
  | nil => exact stop
  | cons shortcut shortcuts =>
    rw [List.flatMap_cons, List.append_assoc, Shortcut.print, List.cons_append, stops_cons]
    cases shortcut.isId with
    | true => exact marks.1
    | false => exact marks.2

/-- All shortcuts are read, up to what can go on with none of them. -/
theorem readShortcuts_shortcuts (shortcuts : List Shortcut) {rest : List Char}
    (stop : Stops isShortcutTail rest) (ended : Stops isShortcutMark (trimLeft rest)) :
    readShortcuts (shortcuts.flatMap Shortcut.print ++ rest) =
      (shortcuts.map Shortcut.attr, rest) := by
  induction shortcuts with
  | nil => exact readShortcuts_end ended
  | cons shortcut shortcuts ih =>
    rw [List.flatMap_cons, List.append_assoc]
    exact readShortcuts_shortcut shortcut (stops_shortcuts ⟨rfl, rfl⟩ shortcuts stop) ih

/-- What ends a list that ends with `close`: its bracket, or else an angle bracket. -/
structure IsStop (close : Option Char) (stop : Char) : Prop where
  same : close.getD '>' = stop
  bracket : stop ∈ ['>', ')', ']', '}']

/-- What may stand behind an attribute: white space or the end of the list, and no equals sign. -/
structure Follows (stop : Char) (rest : List Char) : Prop where
  ended : ∀ c ∈ rest.head?, isWhite c = true ∨ c = stop
  unvalued : (trimLeft rest).head? ≠ some '='

/-- The text ends, or a list that `stop` ends does. -/
def IsFinal (stop : Char) (rest : List Char) : Prop := ∀ c ∈ rest.head?, c = stop

section

variable {close : Option Char} {stop : Char} {rest left : List Char} {attrs : List Attr}

theorem endsValue_eq (h : IsStop close stop) (c : Char) :
    endsValue close c = (isWhite c || decide (c = stop)) := by
  obtain ⟨rfl, -⟩ := h
  cases close <;> rfl

theorem IsStop.outside (h : IsStop close stop) : isNameTail stop = false ∧ isWhite stop = false ∧
    stop ≠ '=' := by
  have bracket := h.bracket
  simp only [List.mem_cons, List.not_mem_nil, or_false] at bracket
  obtain rfl | rfl | rfl | rfl := bracket
  all_goals decide

/-- A name goes on with nothing that may follow an attribute. -/
theorem Follows.stops_name (h : IsStop close stop) (follows : Follows stop rest) :
    Stops isNameTail rest := by
  intro c hc
  obtain white | rfl := follows.ended c hc
  · exact isNameTail_of_isWhite white
  · exact h.outside.1

/-- Neither does a value without quotes. -/
theorem Follows.stops_value (h : IsStop close stop) (follows : Follows stop rest) :
    Stops (!endsValue close ·) rest := by
  intro c hc
  obtain white | rfl := follows.ended c hc
  · simp [endsValue_eq h, white]
  · simp [endsValue_eq h]

theorem readName_label (gap : Gap) (label : Label) (ended : Stops isNameTail rest) :
    readName (gap.chars ++ (label.chars ++ rest)) = some (label.chars, trimLeft rest) := by
  obtain ⟨c, cs, hchars, word, tail⟩ := label.cons
  have front : trimLeft (gap.chars ++ (label.chars ++ rest)) = c :: (cs ++ rest) := by
    rw [trimLeft_append_of_blank gap.white, hchars]
    exact trimLeft_cons_of_not_white (isWhite_of_isWord word) _
  unfold readName
  rw [front]
  simp only [word, if_true, takeWhile_append_of_stops tail ended, dropWhile_append_of_stops tail ended,
    hchars]

theorem readValue_value (h : IsStop close stop) (value : Value stop) (follows : Follows stop rest) :
    readValue close (value.print ++ rest) = .ok (value.chars, rest) := by
  cases value with
  | quoted quote text mark quotable unbroken =>
    have read := readQuoted_quotable mark quotable rest
    have front : (Value.quoted quote text mark quotable unbroken : Value stop).print ++ rest =
        quote :: (text ++ quote :: rest) := by simp [Value.print]
    have isQuote : (quote = '"' || quote = '\'') = true := by simpa using mark
    rw [front]
    unfold readValue
    simp only [isQuote, if_true, read]
    rfl
  | bare first more noQuote solid =>
    have inside : ∀ c ∈ first :: more, (!endsValue close c) = true := by
      intro c hc
      obtain ⟨solid, other⟩ := solid c hc
      simp [endsValue_eq h, solid, other]
    have taken := takeWhile_append_of_stops inside (follows.stops_value h)
    have ended := dropWhile_append_of_stops inside (follows.stops_value h)
    have isQuote : (first = '"' || first = '\'') = false := by simpa using noQuote
    unfold readValue
    simp only [Value.print, List.cons_append] at taken ended ⊢
    simp only [isQuote, Bool.false_eq_true, if_false, taken, ended]
    rfl

theorem Gap.white_of_cons {gap : Gap} {c : Char} {cs : List Char} (h : gap.chars = c :: cs) :
    isWhite c = true :=
  List.all_eq_true.1 gap.white c (by rw [h]; simp)

theorem Gap.stops {p : Char → Bool} (gap : Gap) (white : ∀ c, isWhite c = true → p c = false)
    (ended : Stops p rest) : Stops p (gap.chars ++ rest) := by
  cases h : gap.chars with
  | nil => exact ended
  | cons c cs => exact stops_cons.2 (white c (Gap.white_of_cons h))

theorem Gap.trimLeft_append (gap : Gap) (rest : List Char) :
    trimLeft (gap.chars ++ rest) = trimLeft rest :=
  trimLeft_append_of_blank gap.white rest

/-- A value starts with no white space. -/
theorem Value.stops_print (value : Value stop) (rest : List Char) :
    Stops isWhite (value.print ++ rest) := by
  cases value with
  | quoted quote text mark quotable unbroken =>
    refine stops_cons.2 ?_
    rcases mark with rfl | rfl <;> rfl
  | bare first more noQuote solid => exact stops_cons.2 (solid first (by simp)).1

theorem readAttributes_item (h : IsStop close stop) (gap : Gap) (item : Attribute stop)
    (follows : Follows stop rest) (behind : readAttributes close rest = .ok (attrs, left)) :
    readAttributes close (gap.chars ++ (item.print ++ rest)) = .ok (item.attr :: attrs, left) := by
  rw [readAttributes_iff]
  cases item with
  | flag name =>
    have found := readName_label gap name (follows.stops_name h)
    have bare : ∀ after, trimLeft rest ≠ '=' :: after := by
      intro after same
      exact follows.unvalued (by rw [same]; rfl)
    rw [← readAttributes_trimLeft] at behind
    exact .flag found bare (readAttributes_iff.1 behind)
  | valued name before after value =>
    have ended : Stops isNameTail (before.chars ++ '=' :: (after.chars ++ (value.print ++ rest))) :=
      before.stops (fun _ => isNameTail_of_isWhite) (stops_cons.2 (by decide))
    have found := readName_label gap name ended
    have mark : trimLeft ('=' :: (after.chars ++ (value.print ++ rest))) =
        '=' :: (after.chars ++ (value.print ++ rest)) := trimLeft_cons_of_not_white (by decide) _
    have given : readValue close (trimLeft (after.chars ++ (value.print ++ rest))) =
        .ok (value.chars, rest) := by
      rw [after.trimLeft_append, (value.stops_print rest).trimLeft_eq_self]
      exact readValue_value h value follows
    rw [before.trimLeft_append, mark] at found
    rw [Attribute.print]
    simp only [List.append_assoc, List.cons_append]
    exact .valued found given (readAttributes_iff.1 behind)

/-- An attribute starts with its name. -/
theorem Attribute.cons (item : Attribute stop) :
    ∃ c cs, item.print = c :: cs ∧ isWord c = true := by
  cases item with
  | flag name =>
    obtain ⟨c, cs, hchars, word, -⟩ := name.cons
    exact ⟨c, cs, hchars, word⟩
  | valued name before after value =>
    obtain ⟨c, cs, hchars, word, -⟩ := name.cons
    exact ⟨c, _, by rw [Attribute.print, hchars, List.cons_append], word⟩

theorem Entry.trimLeft_append (entry : Entry stop) (rest : List Char) :
    trimLeft (entry.print ++ rest) = entry.item.print ++ rest := by
  obtain ⟨c, cs, hprint, word⟩ := entry.item.cons
  rw [Entry.print, List.append_assoc, entry.gap.trimLeft_append, hprint]
  exact trimLeft_cons_of_not_white (isWhite_of_isWord word) _

theorem IsFinal.trimLeft_eq_self (h : IsStop close stop) (final : IsFinal stop rest) :
    trimLeft rest = rest := by
  refine Stops.trimLeft_eq_self fun c hc => ?_
  rw [final c hc]
  exact h.outside.2.1

theorem follows_final (h : IsStop close stop) (trailing : Gap) (final : IsFinal stop rest) :
    Follows stop (trailing.chars ++ rest) := by
  constructor
  · intro c hc
    cases hgap : trailing.chars with
    | nil =>
      rw [hgap] at hc
      exact .inr (final c hc)
    | cons d ds =>
      rw [hgap] at hc
      cases hc
      exact .inl (Gap.white_of_cons hgap)
  · rw [trailing.trimLeft_append, final.trimLeft_eq_self h]
    intro equals
    exact h.outside.2.2 (final '=' equals).symm

theorem follows_entries (h : IsStop close stop) {entries : List (Entry stop)}
    (apart : ∀ entry ∈ entries, entry.gap.chars ≠ []) (trailing : Gap) (final : IsFinal stop rest) :
    Follows stop (entries.flatMap Entry.print ++ (trailing.chars ++ rest)) := by
  cases entries with
  | nil => exact follows_final h trailing final
  | cons entry entries =>
    have filled := apart entry (by simp)
    rw [List.flatMap_cons, List.append_assoc]
    constructor
    · intro c hc
      obtain ⟨d, ds, hgap⟩ := List.exists_cons_of_ne_nil filled
      rw [Entry.print, hgap] at hc
      cases hc
      exact .inl (Gap.white_of_cons hgap)
    · obtain ⟨c, cs, hprint, word⟩ := entry.item.cons
      rw [entry.trimLeft_append, hprint, List.cons_append, List.head?_cons]
      intro equals
      exact ne_of_isWord word (by decide) (Option.some.inj equals)

/-- All attributes are read, up to the end of the list. -/
theorem readAttributes_entries (h : IsStop close stop) {entries : List (Entry stop)}
    (apart : ∀ entry ∈ entries.tail, entry.gap.chars ≠ []) (trailing : Gap)
    (final : IsFinal stop rest) :
    readAttributes close (entries.flatMap Entry.print ++ (trailing.chars ++ rest)) =
      .ok (entries.map Entry.attr, rest) := by
  induction entries with
  | nil =>
    have left : trimLeft (trailing.chars ++ rest) = rest := by
      rw [trailing.trimLeft_append, final.trimLeft_eq_self h]
    have noName : Stops isWord rest := by
      refine Stops.of_imp (p := isNameTail) (fun c hc => ?_) fun _ => isNameTail_of_isWord
      rw [final c hc]
      exact h.outside.1
    have none_left : readAttributes close (trailing.chars ++ rest) =
        .ok ([], trimLeft (trailing.chars ++ rest)) := readAttributes_end (by rwa [left])
    rwa [left] at none_left
  | cons entry entries ih =>
    -- Any gap may stand in front of the first entry; those behind it are set apart, so that they may
    -- follow it.
    have behind := ih fun entry hentry => apart entry (List.mem_of_mem_tail hentry)
    rw [List.flatMap_cons, Entry.print, List.append_assoc, List.append_assoc]
    exact readAttributes_item h entry.gap entry.item (follows_entries h apart trailing final) behind

theorem readAttributes_row (h : IsStop close stop) (row : Row stop) (final : IsFinal stop rest) :
    readAttributes close (row.print ++ rest) = .ok (row.attrs, rest) := by
  rw [Row.print, List.append_assoc]
  exact readAttributes_entries h row.apart row.trailing final

end

end TagLayout

end TemplateMarkup
