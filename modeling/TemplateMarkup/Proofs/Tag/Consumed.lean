import TemplateMarkup.Proofs.Tag.Ended
import TemplateMarkup.Proofs.WellFormed.Line

/-! The last character that is read of a tag's line. No name, shortcut or value ends in an angle
bracket, except for a value in a list that a bracket has to end; so the last character read is an
angle bracket just if one closed the list. -/
namespace TemplateMarkup

/-- `rest` is left of a text, and what is read of it does not end in an angle bracket. -/
def ReadsOpen (cs rest : List Char) : Prop :=
  ∃ front, cs = front ++ rest ∧ front.getLast? ≠ some '>'

namespace ReadsOpen

variable {cs mid rest : List Char}

theorem refl (cs : List Char) : ReadsOpen cs cs := ⟨[], rfl, by simp⟩

theorem suffix (h : ReadsOpen cs rest) : rest <:+ cs := by
  obtain ⟨front, same, -⟩ := h
  exact ⟨front, same.symm⟩

theorem cons {c : Char} (other : c ≠ '>') (cs : List Char) : ReadsOpen (c :: cs) cs :=
  ⟨[c], rfl, by simpa using other⟩

theorem trans (h : ReadsOpen cs mid) (h' : ReadsOpen mid rest) : ReadsOpen cs rest := by
  obtain ⟨front, rfl, last⟩ := h
  obtain ⟨behind, rfl, last'⟩ := h'
  refine ⟨front ++ behind, (List.append_assoc _ _ _).symm, ?_⟩
  rw [List.getLast?_append]
  cases found : behind.getLast? with
  | none => exact last
  | some c => rwa [← found, Option.or_of_isSome (by rw [found]; rfl)]

/-- A class of characters that has no angle bracket in it cannot end in one. -/
theorem dropWhile {p : Char → Bool} (out : p '>' = false) (cs : List Char) :
    ReadsOpen cs (cs.dropWhile p) := by
  refine ⟨cs.takeWhile p, List.takeWhile_append_dropWhile.symm, ?_⟩
  intro last
  have inside := List.mem_takeWhile_imp (List.mem_of_getLast? last)
  rw [out] at inside
  cases inside

theorem trimLeft (cs : List Char) : ReadsOpen cs (trimLeft cs) := dropWhile (by decide) cs

end ReadsOpen

variable {cs rest behind : List Char} {attrs : List Attr} {angle : Bool}

theorem readsOpen_name {name : List Char} (h : readName cs = some (name, rest)) :
    ReadsOpen cs rest := by
  have skipped := ReadsOpen.trimLeft cs
  unfold readName at h
  split at h
  · next c tail text =>
    split at h
    · next word =>
      cases h
      rw [text] at skipped
      have first : c ≠ '>' := ne_of_isWord word (by decide)
      have name := ReadsOpen.dropWhile (p := isNameTail) (by decide) tail
      exact ((skipped.trans (.cons first tail)).trans name).trans (.trimLeft _)
    · cases h
  · cases h

/-- A value in quotes ends with the quote, and one without them ends in front of an angle bracket. -/
theorem readsOpen_value {value : List Char} (h : readValue none cs = .ok (value, rest)) :
    ReadsOpen cs rest := by
  have bare : ReadsOpen cs (cs.dropWhile (!endsValue none ·)) := .dropWhile (by decide) cs
  unfold readValue at h
  simp only at h
  split at h
  · next c tail =>
    split at h
    · next mark =>
      split at h
      · next result quoted =>
        cases h
        refine ⟨c :: (value ++ [c]), by simp [eq_append_of_readQuoted quoted], ?_⟩
        rw [← List.cons_append, List.getLast?_concat]
        rintro ⟨rfl⟩
        cases mark
      · cases h
    · split at h
      · cases h
      · cases h
        exact bare
  · split at h
    · cases h
    · cases h
      exact bare

theorem readsOpen_attributes (h : readAttributes none cs = .ok (attrs, rest)) :
    ReadsOpen cs rest := by
  rw [readAttributes_iff] at h
  induction h with
  | @done cs => exact .trimLeft cs
  | @valued cs name after value tail rest attrs named given onward ih =>
    have front := (readsOpen_name named).trans (.cons (by decide) after)
    exact ((front.trans (.trimLeft after)).trans (readsOpen_value given)).trans ih
  | flag named bare onward ih => exact (readsOpen_name named).trans ih

theorem readsOpen_shortcuts (cs : List Char) : ReadsOpen cs (readShortcuts cs).2 := by
  fun_induction readShortcuts cs with
  | case1 cs mark c rest text cond value more left read ih =>
    rw [read] at ih
    obtain ⟨marked, head⟩ := Bool.and_eq_true_iff.1 cond
    have sign : mark ≠ '>' := by
      rintro rfl
      cases marked
    have first : c ≠ '>' := by
      rintro rfl
      cases head
    have skipped := ReadsOpen.trimLeft cs
    rw [text] at skipped
    have named := ReadsOpen.dropWhile (p := isShortcutTail) (by decide) rest
    exact (((skipped.trans (.cons sign _)).trans (.cons first rest)).trans named).trans ih
  | case2 => exact .refl _
  | case3 => exact .refl _

theorem readsOpen_head {name : Option (List Char)} (h : Head.read cs = .tag name rest) :
    ReadsOpen cs rest := by
  obtain ⟨text, rfl, start⟩ := Head.tagStart_of_read h
  refine (ReadsOpen.cons (by decide) text).trans ?_
  cases start with
  | nameless more mark => exact .refl _
  | named more word =>
    exact (ReadsOpen.cons (ne_of_isWord word (by decide)) more).trans (.dropWhile (by decide) more)

theorem readsOpen_openList (cs : List Char) : ReadsOpen cs (openList cs).2 := by
  cases cs with
  | nil => exact .refl _
  | cons c inner =>
    rw [openList]
    cases opens : closingBracket c with
    | none => exact .refl _
    | some bracket =>
      refine .cons ?_ inner
      rintro rfl
      cases opens

/-! The end of the list. -/

theorem closingBracket_ne_angle {c bracket : Char} (h : closingBracket c = some bracket) :
    bracket ≠ '>' := by
  unfold closingBracket at h
  split at h <;> cases h <;> decide

theorem openList_ne_angle (cs : List Char) : (openList cs).1 ≠ some '>' := by
  cases cs with
  | nil => simp [openList]
  | cons c inner =>
    rw [openList]
    cases opens : closingBracket c with
    | none => simp
    | some bracket => simpa using closingBracket_ne_angle opens

/-- Of a text that is read in two parts, the second one up to the end of a list, the last character
read is an angle bracket just if one closed the list. -/
theorem EndsList.consumed {line : List Char} {close : Option Char} (front : ReadsOpen line cs)
    (other : close ≠ some '>') (ended : EndsList close cs attrs angle behind) :
    ∃ consumed, line = consumed ++ behind ∧ (consumed.getLast? = some '>' ↔ angle = true) := by
  obtain ⟨rest, read, closed⟩ := ended
  have whole := eq_append_of_readListEnd closed
  obtain ⟨lead, lines⟩ : ∃ lead, line = lead ++ rest := by
    obtain ⟨opening, rfl, -⟩ := front
    have left := readAttributes_suffix close cs
    rw [read] at left
    obtain ⟨list, rfl⟩ := left
    exact ⟨opening ++ list, (List.append_assoc _ _ _).symm⟩
  cases angle with
  | true =>
    refine ⟨lead ++ close.toList ++ ['>'], by simp [lines, whole], ?_⟩
    rw [List.getLast?_concat]
    exact ⟨fun _ => rfl, fun _ => rfl⟩
  | false =>
    cases close with
    | none =>
      obtain rfl : rest = behind := whole
      obtain ⟨consumed, same, last⟩ := front.trans (readsOpen_attributes read)
      exact ⟨consumed, same, fun found => absurd found last, fun found => by cases found⟩
    | some bracket =>
      refine ⟨lead ++ [bracket], by simp [lines, whole], ?_⟩
      rw [List.getLast?_concat]
      exact ⟨fun found => absurd found other, fun found => by cases found⟩

namespace State

/-- No list that is under way waits for an angle bracket. -/
def Bracketed (s : State) : Prop := ∀ tag close, s.phase = .attributes tag close → close ≠ '>'

variable {settings : Settings} {s t u : State} {line : Line} {tag : TagHead}

theorem bracketed_takeCode (s : State) (owner : CodeOwner) (segments : List (List Char))
    (line : Line) (cs : List Char) : (s.takeCode owner segments line cs).Bracketed := by
  intro tag close under
  unfold takeCode at under
  simp only at under
  split at under <;> cases under

theorem bracketed_takeTail (s : State) (tab : Nat) (tag : TagHead) (line : Line) (tail : Tail) :
    (s.takeTail tab tag line tail).Bracketed := by
  cases tail with
  | output mark cs => exact bracketed_takeCode _ _ _ _ _
  | void | block | text =>
    intro tag close under
    cases under

theorem bracketed_takeAttributes {tab : Nat} {close : Option Char} (other : close ≠ some '>')
    (taken : s.takeAttributes tab tag close line cs = .ok t) : t.Bracketed := by
  obtain ⟨attrs, rest, -, ⟨bracket, continued, rfl⟩ | ⟨angle, behind, tail, -, -, rfl⟩⟩ :=
    takeAttributes_cases taken
  · rintro tag close ⟨rfl, rfl⟩ rfl
    exact other (bracket_of_continued continued)
  · exact bracketed_takeTail _ _ _ _ _

theorem bracketed_takeHead {head : Head} (taken : takeHead settings s line head = .ok t) :
    t.Bracketed := by
  cases head with
  | control cs =>
    cases taken
    exact bracketed_takeCode _ _ _ _ _
  | output mark cs =>
    cases taken
    exact bracketed_takeCode _ _ _ _ _
  | tag name cs =>
    rw [takeHead, takeTag_openList] at taken
    exact bracketed_takeAttributes (openList_ne_angle _) taken
  | embedded | comment | conditional | remark | doctype | text =>
    cases taken
    intro tag close under
    cases under
  | unknown => cases taken

theorem bracketed_step (bracketed : s.Bracketed) (step : Step settings line s t) :
    t.Bracketed := by
  cases step with
  | blank start blank => exact bracketed
  | header value rest start found clean =>
    intro tag close under
    cases under
  | code owner segments last under => exact bracketed_takeCode _ _ _ _ _
  | attributes t tag close under taken =>
    refine bracketed_takeAttributes (s := { s with number := s.number + 1 }) ?_ taken
    simpa using bracketed tag close under
  | text block more under joined taken =>
    intro tag close under
    cases under
  | remark under inside => exact bracketed
  | dispatch u t before taken =>
    obtain ⟨-, rfl⟩ | ⟨builder, moved, -, -, taken⟩ := dispatch_cases taken
    · intro tag close under
      cases under
    · exact bracketed_takeHead taken

theorem bracketed_foldlM {lines : List Line} (run : lines.foldlM (feed settings) {} = .ok s) :
    s.Bracketed := by
  have start : ({} : State).Bracketed := by
    intro tag close under
    cases under
  exact @run_induction settings (fun _ s => s.Bracketed) (fun _ => bracketed_step) lines [] {} s
    steady_start start run

/-- What is read of the line that ends an attribute list has an angle bracket for its last character
just if one closed the list. -/
theorem EndsTag.consumed (ended : s.EndsTag settings line tag angle behind u)
    (bracketed : s.Bracketed) :
    ∃ consumed, line = consumed ++ behind ∧ (consumed.getLast? = some '>' ↔ angle = true) := by
  cases ended with
  | here dispatched head ended =>
    have front := (ReadsOpen.trimLeft line).trans (readsOpen_head head)
    have list := (front.trans (readsOpen_shortcuts _)).trans (readsOpen_openList _)
    exact ended.consumed list (openList_ne_angle _)
  | below under ended =>
    exact ended.consumed (.refl line) (by simpa using bracketed _ _ under)

end State

end TemplateMarkup
