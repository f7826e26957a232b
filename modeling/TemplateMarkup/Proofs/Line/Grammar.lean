import TemplateMarkup.Proofs.Layout.Lines
import TemplateMarkup.Proofs.Line.Remarked
import TemplateMarkup.Proofs.RemarkBlocks
import TemplateMarkup.Proofs.WellFormed.Line

/-! The grammar of a line, told by the characters that each construct is spelled with, and that the
head of a line is read by it. -/
namespace TemplateMarkup

variable {cs rest : List Char}

/-- The longest name that a text starts with. -/
structure IsLongestName (cs name : List Char) : Prop where
  named : isName name = true
  front : name <+: cs
  longest : ∀ other, isName other = true → other <+: cs → other <+: name

theorem IsLongestName.unique {name other : List Char} (h : IsLongestName cs name)
    (h' : IsLongestName cs other) : name = other :=
  (h'.longest name h.named h.front).eq_of_length_le
    (h.longest other h'.named h'.front).length_le

theorem isLongestName_takeWhile {c : Char} (word : isWord c = true) (rest : List Char) :
    IsLongestName (c :: rest) (c :: rest.takeWhile isNameTail) where
  named := by simp [isName, word, List.all_takeWhile]
  front := by simpa using List.takeWhile_prefix isNameTail
  longest other named front := by
    cases other with
    | nil => cases named
    | cons d other =>
      obtain ⟨rfl, more, rfl⟩ := List.cons_prefix_cons.1 front
      have tail : ∀ c ∈ other, isNameTail c = true :=
        List.all_eq_true.1 (Bool.and_eq_true_iff.1 named).2
      rw [List.takeWhile_append_of_pos tail, List.cons_prefix_cons]
      exact ⟨rfl, List.prefix_append _ _⟩

/-! The constructs. -/

/-- What a line stands for. -/
inductive Construct where
  | control
  | output (raw : Bool)
  | embedded (engine : String)
  | comment
  | tag (name : String)
  | conditional (condition : String)
  | remark
  | doctype (value : String)
  | text
  deriving DecidableEq

/-- What a line stands for, by the characters from the first one that is not white space. Tags that
are written without a name have the name `fallback`. Where two constructs could be spelled alike,
the second one needs that the first one is not. -/
inductive Spells (fallback : String) : List Char → Construct → Prop
  | control (code : List Char) : Spells fallback ('-' :: code) .control
  | output {cs : List Char} (once : cs.head? ≠ some '=') : Spells fallback ('=' :: cs) (.output false)
  | raw (cs : List Char) : Spells fallback ('=' :: '=' :: cs) (.output true)
  | embedded {cs engine : List Char} (named : IsEngine cs engine) :
      Spells fallback ('<' :: cs) (.embedded (String.ofList engine))
  | comment (cs : List Char) : Spells fallback ('<' :: '!' :: '-' :: '-' :: cs) .comment
  | nameless {mark : Char} (cs : List Char) (shortcut : mark = '#' ∨ mark = '.') :
      Spells fallback ('<' :: mark :: cs) (.tag fallback)
  | named {cs name : List Char} (free : ∀ engine, ¬ IsEngine cs engine)
      (longest : IsLongestName cs name) : Spells fallback ('<' :: cs) (.tag (String.ofList name))
  | splice (cs : List Char) : Spells fallback ('#' :: '{' :: cs) .text
  | conditional {cs inner : List Char} (enclosed : IsCondition cs inner) :
      Spells fallback ('#' :: cs) (.conditional (String.ofList (trim inner)))
  | remark {cs : List Char} (plain : cs.head? ≠ some '{') (free : ∀ inner, ¬ IsCondition cs inner) :
      Spells fallback ('#' :: cs) .remark
  | glued (cs : List Char) : Spells fallback ('>' :: cs) .text
  | doctype {cs value : List Char} (keyword : IsDoctype cs value) :
      Spells fallback cs (.doctype (String.ofList (trim value)))
  | text {c : Char} {cs : List Char} (unmarked : c ∉ ['-', '=', '<', '#', '>'])
      (free : ∀ value, ¬ IsDoctype (c :: cs) value) : Spells fallback (c :: cs) .text

/-- What a head stands for, if it is known. -/
def Head.construct? (fallback : String) : Head → Option Construct
  | control _ => some .control
  | output mark _ => some (.output (!mark.escape))
  | embedded engine => some (.embedded (String.ofList engine))
  | comment .. => some .comment
  | tag name _ => some (.tag ((name.map String.ofList).getD fallback))
  | conditional condition => some (.conditional (String.ofList condition))
  | remark => some .remark
  | doctype value => some (.doctype (String.ofList value))
  | text .. => some .text
  | unknown _ => none

variable {fallback : String} {text : List Char} {c : Construct}

theorem OutputMark.escape_read (cs : List Char) :
    (OutputMark.read cs).1.escape = decide (cs.head? ≠ some '=') := by
  unfold OutputMark.read
  split
  next escape rest found =>
    have same : escape = decide (cs.head? ≠ some '=') := by
      split at found
      · cases found
        rfl
      · next other =>
        cases found
        refine (decide_eq_true ?_).symm
        intro raw
        obtain ⟨more, rfl⟩ := List.head?_eq_some_iff.1 raw
        exact other more rfl
    split <;> exact same

/-- No mark is taken for a letter of the keyword. -/
theorem IsDoctype.unmarked {value : List Char} (h : IsDoctype cs value) :
    ∃ c rest, cs = c :: rest ∧ c ∉ ['-', '=', '<', '#', '>'] := by
  obtain ⟨keyword, white, rfl, lower, -⟩ := h
  obtain ⟨c, rest, rfl, first, -⟩ := List.map_eq_cons_iff.1 lower
  refine ⟨c, _, rfl, ?_⟩
  intro mark
  simp only [List.mem_cons, List.not_mem_nil, or_false] at mark
  rcases mark with rfl | rfl | rfl | rfl | rfl <;> cases first

theorem not_opens_comment {c : Char} (other : c ≠ '!') (cs : List Char) :
    ¬ ['!', '-', '-'] <+: c :: cs := by
  rintro ⟨more, same⟩
  exact other (List.cons.inj same).1.symm

theorem ofAngle_comment (cs : List Char) :
    ∃ spaced rest, Head.ofAngle ('!' :: '-' :: '-' :: cs) = .comment spaced rest := by
  cases cs with
  | nil => exact ⟨false, [], by simp [Head.ofAngle, Head.engine?_mark]⟩
  | cons c cs =>
    by_cases space : c = ' '
    · subst space
      exact ⟨true, cs, by simp [Head.ofAngle, Head.engine?_mark]⟩
    · exact ⟨false, c :: cs, by simp [Head.ofAngle, Head.engine?_mark, space]⟩

theorem ofAngle_nameless {mark : Char} (shortcut : mark = '#' ∨ mark = '.') (cs : List Char) :
    Head.ofAngle (mark :: cs) = .tag none (mark :: cs) := by
  have other : isWord mark = false ∧ mark ≠ '!' := by
    rcases shortcut with rfl | rfl <;> decide
  rw [Head.ofAngle_plain cs (engine?_of_not_word other.1 cs) (not_opens_comment other.2 cs),
    if_pos (by simpa using shortcut)]

theorem ofAngle_named {name : List Char} (free : ∀ engine, ¬ IsEngine cs engine)
    (longest : IsLongestName cs name) : ∃ rest, Head.ofAngle cs = .tag (some name) rest := by
  obtain ⟨more, rfl⟩ := longest.front
  cases name with
  | nil => cases longest.named
  | cons c tail =>
    have word : isWord c = true := (Bool.and_eq_true_iff.1 longest.named).1
    have same := longest.unique (isLongestName_takeWhile word (tail ++ more))
    have plain := Head.ofAngle_plain (tail ++ more) (engine?_eq_none_iff.2 free)
      (not_opens_comment (ne_of_isWord word (by decide)) _)
    refine ⟨(tail ++ more).dropWhile isNameTail, ?_⟩
    rw [List.cons_append, plain, if_neg, if_pos word, ← same]
    simpa using ⟨ne_of_isWord word (by decide), ne_of_isWord word (by decide)⟩

theorem construct_of_spells (spelled : Spells fallback text c) :
    (Head.read text).construct? fallback = some c := by
  cases spelled with
  | control code => rfl
  | @output cs once =>
    change some (Construct.output (!(OutputMark.read cs).1.escape)) = _
    rw [OutputMark.escape_read, decide_eq_true once]
    rfl
  | raw cs =>
    change some (Construct.output (!(OutputMark.read ('=' :: cs)).1.escape)) = _
    rw [OutputMark.escape_read]
    rfl
  | embedded named =>
    rw [Head.read, Head.ofAngle.eq_def, engine?_iff.2 named]
    rfl
  | comment cs =>
    obtain ⟨spaced, rest, read⟩ := ofAngle_comment cs
    rw [Head.read, read]
    rfl
  | nameless cs shortcut =>
    rw [Head.read, ofAngle_nameless shortcut]
    rfl
  | named free longest =>
    obtain ⟨rest, read⟩ := ofAngle_named free longest
    rw [Head.read, read]
    rfl
  | splice cs => rfl
  | conditional enclosed =>
    have found := condition?_iff.2 ⟨_, enclosed, rfl⟩
    obtain ⟨white, rfl, -⟩ := enclosed
    simp [Head.read, Head.ofHash, found, Head.construct?]
  | remark plain free =>
    have read : Head.read ('#' :: _) = .remark :=
      IsRemark.read ⟨_, rfl, plain, condition?_eq_none_iff.2 free⟩
    rw [read]
    rfl
  | glued cs => rfl
  | doctype keyword =>
    obtain ⟨c, rest, rfl, unmarked⟩ := keyword.unmarked
    rw [Head.read_other unmarked, dropDoctype_iff.2 keyword]
    rfl
  | text unmarked free =>
    rw [Head.read_other unmarked, dropDoctype_eq_none_iff.2 free]
    rfl

theorem spells_of_ofAngle (read : (Head.ofAngle cs).construct? fallback = some c) :
    Spells fallback ('<' :: cs) c := by
  unfold Head.ofAngle at read
  split at read
  · next engine found =>
    cases read
    exact .embedded (engine?_iff.1 found)
  · next free =>
    split at read
    · cases read
      exact .comment _
    · cases read
      exact .comment _
    · next rest _ _ =>
      split at read
      · next shortcut =>
        cases read
        exact .nameless rest (by simpa using shortcut)
      · split at read
        · next word =>
          cases read
          exact .named (engine?_eq_none_iff.1 free) (isLongestName_takeWhile word rest)
        · cases read
    · cases read

theorem spells_of_ofHash (read : (Head.ofHash cs).construct? fallback = some c) :
    Spells fallback ('#' :: cs) c := by
  unfold Head.ofHash at read
  split at read
  · cases read
    exact .splice _
  · next plain =>
    split at read
    · next condition found =>
      cases read
      obtain ⟨inner, enclosed, rfl⟩ := condition?_iff.1 found
      exact .conditional enclosed
    · next free =>
      cases read
      refine .remark ?_ (condition?_eq_none_iff.1 free)
      intro splice
      obtain ⟨rest, rfl⟩ := List.head?_eq_some_iff.1 splice
      exact plain rest rfl

/-- A head is read from a line for what the line spells, and the line spells nothing else. -/
theorem spells_iff (filled : text ≠ []) :
    Spells fallback text c ↔ (Head.read text).construct? fallback = some c := by
  refine ⟨construct_of_spells, fun read => ?_⟩
  unfold Head.read at read
  split at read
  · cases read
    exact .control _
  · next cs =>
    change some (Construct.output (!(OutputMark.read cs).1.escape)) = some c at read
    rw [OutputMark.escape_read] at read
    by_cases raw : cs.head? = some '='
    · obtain ⟨rest, rfl⟩ := List.head?_eq_some_iff.1 raw
      cases read
      exact .raw rest
    · rw [decide_eq_true raw] at read
      cases read
      exact .output raw
  · exact spells_of_ofAngle read
  · exact spells_of_ofHash read
  · cases read
    exact .glued _
  · next dash equals angle hash greater =>
    cases found : dropDoctype text with
    | some value =>
      rw [found] at read
      cases read
      exact .doctype (dropDoctype_iff.1 found)
    | none =>
      rw [found] at read
      cases read
      obtain ⟨first, rest, rfl⟩ := List.exists_cons_of_ne_nil filled
      refine .text ?_ (dropDoctype_eq_none_iff.1 found)
      simp only [List.mem_cons, List.not_mem_nil, or_false, not_or]
      refine ⟨?_, ?_, ?_, ?_, ?_⟩
      · rintro rfl
        exact dash rest rfl
      · rintro rfl
        exact equals rest rfl
      · rintro rfl
        exact angle rest rfl
      · rintro rfl
        exact hash rest rfl
      · rintro rfl
        exact greater rest rfl

theorem angle_of_unknown (read : Head.read text = .unknown rest) : text = '<' :: rest := by
  unfold Head.read at read
  split at read
  · cases read
  · cases read
  · next cs =>
    unfold Head.ofAngle at read
    split at read
    · cases read
    · split at read
      · cases read
      · cases read
      · split at read
        · cases read
        · split at read
          · cases read
          · cases read
            rfl
      · cases read
        rfl
  · unfold Head.ofHash at read
    split at read
    · cases read
    · split at read <;> cases read
  · cases read
  · split at read <;> cases read

/-- Only a text that starts with an angle bracket spells nothing. -/
theorem unspelled_iff (filled : text ≠ []) :
    (∀ c, ¬ Spells fallback text c) ↔ ∃ rest, text = '<' :: rest ∧ Head.read text = .unknown rest := by
  have none_ : (∀ c, ¬ Spells fallback text c) ↔ (Head.read text).construct? fallback = none := by
    rw [Option.eq_none_iff_forall_ne_some]
    simp only [Ne, spells_iff filled]
  rw [none_]
  constructor
  · intro unknown
    cases read : Head.read text with
    | unknown rest => exact ⟨rest, angle_of_unknown read, rfl⟩
    | control | output | embedded | comment | tag | conditional | remark | doctype | text =>
      rw [read] at unknown
      cases unknown
  · rintro ⟨rest, -, read⟩
    rw [read]
    rfl

end TemplateMarkup
