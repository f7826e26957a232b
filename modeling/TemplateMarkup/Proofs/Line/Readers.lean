import Mathlib.Data.List.Basic
import TemplateMarkup.Line.Head
import TemplateMarkup.Proofs.Text.Spans
import TemplateMarkup.Proofs.Text.Words

/-! What the readers of a line's head find: each finds what is spelled in a way of its own, and all
of that. -/
namespace TemplateMarkup

variable {cs rest : List Char}

theorem dropKeyword_iff {ks : List Char} :
    dropKeyword ks cs = some rest ↔ ∃ word, cs = word ++ rest ∧ word.map Char.toLower = ks := by
  induction ks generalizing cs with
  | nil =>
    rw [dropKeyword, Option.some.injEq]
    constructor
    · rintro rfl
      exact ⟨[], rfl, rfl⟩
    · rintro ⟨word, rfl, none_⟩
      rw [List.map_eq_nil_iff.1 none_, List.nil_append]
  | cons k ks ih =>
    constructor
    · intro dropped
      cases cs with
      | nil => cases dropped
      | cons c cs =>
        rw [dropKeyword] at dropped
        split at dropped
        · next same =>
          obtain ⟨word, rfl, lower⟩ := ih.1 dropped
          exact ⟨c :: word, rfl, by rw [List.map_cons, same, lower]⟩
        · cases dropped
    · rintro ⟨word, rfl, lower⟩
      obtain ⟨c, word, rfl, same, lower⟩ := List.map_eq_cons_iff.1 lower
      rw [List.cons_append, dropKeyword, if_pos same]
      exact ih.2 ⟨word, rfl, lower⟩

/-- The keyword of a doctype, in any case of its letters, and the white space that it needs. -/
def IsDoctype (cs value : List Char) : Prop :=
  ∃ keyword white, cs = keyword ++ white :: value ∧
    keyword.map Char.toLower = ['d', 'o', 'c', 't', 'y', 'p', 'e'] ∧ isWhite white = true

theorem dropDoctype_iff {value : List Char} : dropDoctype cs = some value ↔ IsDoctype cs value := by
  unfold dropDoctype
  constructor
  · intro dropped
    split at dropped
    · next c more found =>
      obtain ⟨keyword, rfl, lower⟩ := dropKeyword_iff.1 found
      split at dropped
      · next white =>
        cases dropped
        exact ⟨keyword, c, rfl, lower, white⟩
      · cases dropped
    · cases dropped
  · rintro ⟨keyword, c, rfl, lower, white⟩
    rw [dropKeyword_iff.2 ⟨keyword, rfl, lower⟩]
    exact if_pos white

theorem dropDoctype_eq_none_iff : dropDoctype cs = none ↔ ∀ value, ¬ IsDoctype cs value := by
  rw [Option.eq_none_iff_forall_ne_some]
  simp only [Ne, dropDoctype_iff]

theorem dropDoctype_suffix (h : dropDoctype cs = some rest) : rest <:+ cs := by
  obtain ⟨keyword, white, rfl, -⟩ := dropDoctype_iff.1 h
  exact (List.suffix_cons white rest).trans (List.suffix_append keyword _)

/-- A doctype header: the keyword in any case of its letters, white space and a value, and perhaps
an angle bracket with some text behind it. -/
def IsHeader (line : Line) (value : List Char) (behind : Option (List Char)) : Prop :=
  ∃ cs, line = '<' :: cs ∧ IsDoctype cs (value ++ behind.elim [] ('>' :: ·)) ∧ '>' ∉ value

theorem IsHeader.read {line : Line} {value : List Char} {behind : Option (List Char)}
    (header : IsHeader line value behind) :
    doctypeHeader? line = some (trim value, behind.getD []) := by
  obtain ⟨cs, rfl, keyword, bare⟩ := header
  have inside : ∀ c ∈ value, decide (c ≠ '>') = true := by
    intro c mem
    refine decide_eq_true ?_
    rintro rfl
    exact bare mem
  have stop : Stops (decide <| · ≠ '>') (behind.elim [] ('>' :: ·)) := by
    cases behind <;> simp
  rw [doctypeHeader?, dropDoctype_iff.2 keyword]
  simp only
  rw [takeWhile_append_of_stops inside stop, dropWhile_append_of_stops inside stop]
  cases behind <;> rfl

/-- The value ends in front of the first angle bracket, or with the line. -/
theorem doctypeHeader?_iff {line : Line} {value rest : List Char} :
    doctypeHeader? line = some (value, rest) ↔ ∃ written behind, IsHeader line written behind ∧
      value = trim written ∧ rest = behind.getD [] := by
  constructor
  · intro found
    unfold doctypeHeader? at found
    split at found
    · next cs =>
      split at found
      · cases found
      · next text dropped =>
        have keyword := dropDoctype_iff.1 dropped
        have bare : '>' ∉ text.takeWhile (· ≠ '>') := by
          intro mem
          simpa using List.mem_takeWhile_imp mem
        have whole := List.takeWhile_append_dropWhile (p := (· ≠ '>')) (l := text)
        simp only at found
        split at found
        · next ended =>
          cases found
          rw [ended] at whole
          refine ⟨text.takeWhile (· ≠ '>'), none, ⟨cs, rfl, ?_, bare⟩, rfl, rfl⟩
          rwa [Option.elim_none, whole]
        · next c after stopped =>
          cases found
          have angle : c = '>' := by
            have head := List.head?_dropWhile_not (· ≠ '>') text
            rw [stopped] at head
            simpa using head
          rw [stopped, angle] at whole
          refine ⟨text.takeWhile (· ≠ '>'), some rest, ⟨cs, rfl, ?_, bare⟩, rfl, rfl⟩
          rwa [Option.elim_some, whole]
    · cases found
  · rintro ⟨written, behind, header, rfl, rfl⟩
    exact header.read

/-- A name with a colon behind it, and nothing more on the line. -/
def IsEngine (cs name : List Char) : Prop :=
  ∃ white, cs = name ++ ':' :: white ∧ name ≠ [] ∧ (∀ c ∈ name, isWord c = true) ∧
    isBlank white = true

theorem engine?_iff {name : List Char} : Head.engine? cs = some name ↔ IsEngine cs name := by
  constructor
  · intro found
    unfold Head.engine? at found
    split at found
    · cases found
    · next rest behind filled =>
      split at found
      · next blank =>
        cases found
        refine ⟨_, ?_, ?_, ?_, blank⟩
        · rw [← behind, List.takeWhile_append_dropWhile]
        · exact filled
        · exact fun c mem => List.mem_takeWhile_imp mem
      · cases found
    · cases found
  · rintro ⟨white, rfl, filled, word, blank⟩
    have stop : Stops isWord (':' :: white) := stops_cons.2 (by decide)
    unfold Head.engine?
    rw [takeWhile_append_of_stops word stop, dropWhile_append_of_stops word stop]
    split
    · exact absurd rfl filled
    · next same =>
      cases same
      exact if_pos blank
    · next other => exact absurd rfl (other white)

theorem engine?_eq_none_iff : Head.engine? cs = none ↔ ∀ engine, ¬ IsEngine cs engine := by
  rw [Option.eq_none_iff_forall_ne_some]
  simp only [Ne, engine?_iff]

theorem IsEngine.word {c : Char} {engine : List Char} (h : IsEngine (c :: cs) engine) :
    isWord c = true := by
  obtain ⟨white, same, filled, word, -⟩ := h
  cases engine with
  | nil => exact absurd rfl filled
  | cons d engine =>
    obtain ⟨rfl, -⟩ := List.cons.inj same
    exact word c List.mem_cons_self

theorem engine?_of_not_word {c : Char} (other : isWord c = false) (cs : List Char) :
    Head.engine? (c :: cs) = none := by
  rw [engine?_eq_none_iff]
  intro engine named
  rw [named.word] at other
  cases other

/-- A text in brackets, of which the last one ends the line. -/
def IsCondition (cs inner : List Char) : Prop :=
  ∃ white, cs = '[' :: (inner ++ ']' :: white) ∧ isBlank white = true

theorem condition?_iff {condition : List Char} :
    Head.condition? cs = some condition ↔ ∃ inner, IsCondition cs inner ∧ condition = trim inner := by
  constructor
  · intro found
    unfold Head.condition? at found
    split at found
    · next inner =>
      simp only at found
      split at found
      · next last =>
        cases found
        obtain ⟨white, whole, blank⟩ := trimRight_append_blank inner
        refine ⟨(trimRight inner).dropLast, ⟨white, ?_, blank⟩, rfl⟩
        rw [List.append_cons, List.dropLast_append_getLast? _ last, ← whole]
      · cases found
    · cases found
  · rintro ⟨inner, ⟨white, rfl, blank⟩, rfl⟩
    have front := trimRight_append_white (inner ++ [']']) white blank
    rw [trimRight_concat (by decide), ← List.append_cons] at front
    simp [Head.condition?, front]

theorem condition?_eq_none_iff : Head.condition? cs = none ↔ ∀ inner, ¬ IsCondition cs inner := by
  rw [Option.eq_none_iff_forall_ne_some]
  simp only [Ne, condition?_iff]
  constructor
  · exact fun free inner enclosed => free _ ⟨inner, enclosed, rfl⟩
  · rintro free condition ⟨inner, enclosed, -⟩
    exact free inner enclosed

end TemplateMarkup
