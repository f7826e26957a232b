import TemplateMarkup.Proofs.Line.Rest
import TemplateMarkup.Proofs.Text.Words
import TemplateMarkup.Proofs.WellFormed.Tree

/-! What the readers of a line give: names, shortcuts, attributes and values that hold no line
break, as the line holds none. -/
namespace TemplateMarkup

@[simp] theorem oneLine_ofList {cs : List Char} : OneLine (String.ofList cs) ↔ '\n' ∉ cs := by
  simp [OneLine]

theorem ofList_cons_ne_empty (c : Char) (cs : List Char) : String.ofList (c :: cs) ≠ "" := by
  intro empty
  have chars := congrArg String.toList empty
  simp at chars

/-- A class of characters that has no line break in it cannot give one. -/
theorem newline_not_mem_of_all {p : Char → Bool} (out : p '\n' = false) {cs : List Char}
    (all : ∀ c ∈ cs, p c = true) : '\n' ∉ cs := by
  intro mem
  rw [all _ mem] at out
  cases out

theorem isWord_newline : isWord '\n' = false := isWord_of_isWhite (by decide)

theorem isNameTail_newline : isNameTail '\n' = false := by
  simp [isNameTail, isWord_newline]

theorem isShortcutTail_newline : isShortcutTail '\n' = false := by
  simp [isShortcutTail, isShortcutHead, isWord_newline]

theorem isShortcutTail_of_head {c : Char} (h : isShortcutHead c = true) :
    isShortcutTail c = true := by
  simp [isShortcutTail, h]

theorem isName_cons_takeWhile {c : Char} (h : isWord c = true) (cs : List Char) :
    isName (c :: cs.takeWhile isNameTail) = true := by
  simp [isName, h, List.all_takeWhile]

theorem newline_not_mem_of_isName {cs : List Char} (h : isName cs = true) : '\n' ∉ cs := by
  cases cs with
  | nil => cases h
  | cons c cs =>
    rw [isName, Bool.and_eq_true, List.all_eq_true] at h
    refine newline_not_mem_of_all isNameTail_newline ?_
    exact List.forall_mem_cons.2 ⟨isNameTail_of_isWord h.1, h.2⟩

theorem ne_empty_of_isName {cs : List Char} (h : isName cs = true) : String.ofList cs ≠ "" := by
  cases cs with
  | nil => cases h
  | cons c cs => exact ofList_cons_ne_empty c cs

theorem isShortcut_readShortcuts (cs : List Char) :
    ∀ attr ∈ (readShortcuts cs).1, attr.IsShortcut := by
  fun_induction readShortcuts cs with
  | case1 cs mark c rest h hcond value attrs left hrec ih =>
    rw [hrec] at ih
    rw [Bool.and_eq_true] at hcond
    have line : '\n' ∉ c :: rest.takeWhile isShortcutTail := by
      refine newline_not_mem_of_all isShortcutTail_newline ?_
      exact List.forall_mem_cons.2
        ⟨isShortcutTail_of_head hcond.2, fun _ mem => List.mem_takeWhile_imp mem⟩
    refine List.forall_mem_cons.2 ⟨.intro ?_ (ofList_cons_ne_empty c _) (oneLine_ofList.2 line), ih⟩
    split
    · exact .inl rfl
    · exact .inr rfl
  | case2 => simp
  | case3 => simp

theorem isName_readName {cs name rest : List Char} (h : readName cs = some (name, rest)) :
    isName name = true := by
  unfold readName at h
  split at h
  · next c tail hc =>
    split at h
    · next word =>
      cases h
      exact isName_cons_takeWhile word tail
    · cases h
  · cases h

theorem readValue_subset {close : Option Char} {cs value rest : List Char}
    (h : readValue close cs = .ok (value, rest)) : value ⊆ cs := by
  have bare : cs.takeWhile (!endsValue close ·) ⊆ cs := List.takeWhile_subset _
  unfold readValue at h
  simp only at h
  split at h
  · next c tail =>
    split at h
    · split at h
      · next result hq =>
        obtain ⟨v, r⟩ := result
        cases h
        rw [eq_append_of_readQuoted hq]
        intro d mem
        simp [mem]
      · cases h
    · split at h
      · cases h
      · cases h
        exact bare
  · split at h
    · cases h
    · cases h
      exact bare

theorem isListed_readAttributes {close : Option Char} {cs : List Char} {attrs : List Attr}
    {rest : List Char} (unbroken : '\n' ∉ cs) (h : readAttributes close cs = .ok (attrs, rest)) :
    ∀ attr ∈ attrs, attr.IsListed := by
  rw [readAttributes_iff] at h
  induction h with
  | done => simp
  | @valued cs name after value tail rest attrs named given onward ih =>
    have left := (readName_suffix named).trans (trimLeft_suffix cs)
    have behind := (trimLeft_suffix after).trans ((List.suffix_cons '=' after).trans left)
    have isName := isName_readName named
    have text : '\n' ∉ value := fun mem => unbroken (behind.subset (readValue_subset given mem))
    have below : '\n' ∉ tail :=
      fun mem => unbroken (((readValue_suffix given).trans behind).subset mem)
    refine List.forall_mem_cons.2 ⟨.valued (ne_empty_of_isName isName) ?_ ?_, ih below⟩
    · exact oneLine_ofList.2 (newline_not_mem_of_isName isName)
    · exact oneLine_ofList.2 text
  | @flag cs name left rest attrs named bare onward ih =>
    have isName := isName_readName named
    have below : '\n' ∉ left :=
      fun mem => unbroken (((readName_suffix named).trans (trimLeft_suffix cs)).subset mem)
    refine List.forall_mem_cons.2 ⟨.flag (ne_empty_of_isName isName) ?_, ih below⟩
    exact oneLine_ofList.2 (newline_not_mem_of_isName isName)

namespace Head

/-- What the parts of a head are, the text apart that it has still to read. -/
def Sound : Head → Prop
  | tag name _ => ∀ written ∈ name, isName written = true
  | embedded cs | conditional cs | doctype cs => '\n' ∉ cs
  | _ => True

theorem newline_not_mem_engine {cs name : List Char} (h : engine? cs = some name) :
    '\n' ∉ name := by
  obtain ⟨white, -, -, word, -⟩ := engine?_iff.1 h
  exact newline_not_mem_of_all isWord_newline word

theorem condition_subset {cs condition : List Char} (h : condition? cs = some condition) :
    condition ⊆ cs := by
  obtain ⟨inner, ⟨white, rfl, -⟩, rfl⟩ := condition?_iff.1 h
  intro c mem
  have inside := trim_subset inner mem
  exact List.mem_cons_of_mem '[' (List.mem_append_left _ inside)

theorem sound_ofAngle (cs : List Char) : (ofAngle cs).Sound := by
  unfold ofAngle
  split
  · next name found => exact newline_not_mem_engine found
  · split
    · trivial
    · trivial
    · next c rest _ _ _ =>
      split
      · simp [Sound]
      · split
        · next word => simpa [Sound] using isName_cons_takeWhile word rest
        · trivial
    · trivial

theorem sound_ofHash {cs : List Char} (unbroken : '\n' ∉ cs) : (ofHash cs).Sound := by
  unfold ofHash
  split
  · trivial
  · split
    · next condition found => exact fun mem => unbroken (condition_subset found mem)
    · trivial

theorem sound_read {cs : List Char} (unbroken : '\n' ∉ cs) : (read cs).Sound := by
  unfold read
  split
  · trivial
  · trivial
  · exact sound_ofAngle _
  · exact sound_ofHash (List.not_mem_of_not_mem_cons unbroken)
  · trivial
  · split
    · next value found =>
      exact fun mem => unbroken ((dropDoctype_suffix found).subset (trim_subset value mem))
    · trivial

/-- A tag starts with the mark of a shortcut and has no name, or it starts with a word character. -/
inductive TagStart : Option (List Char) → List Char → List Char → Prop
  | nameless {c : Char} (more : List Char) (mark : c = '#' ∨ c = '.') :
      TagStart none (c :: more) (c :: more)
  | named {c : Char} (more : List Char) (word : isWord c = true) :
      TagStart (some (c :: more.takeWhile isNameTail)) (more.dropWhile isNameTail) (c :: more)

theorem tagStart_of_ofAngle {cs rest : List Char} {name : Option (List Char)}
    (h : ofAngle cs = .tag name rest) : TagStart name rest cs := by
  unfold ofAngle at h
  split at h
  · cases h
  · split at h
    · cases h
    · cases h
    · next c more _ _ _ =>
      split at h
      · next mark =>
        cases h
        exact .nameless more (by simpa using mark)
      · split at h
        · next word =>
          cases h
          exact .named more word
        · cases h
    · cases h

theorem tagStart_of_read {cs rest : List Char} {name : Option (List Char)}
    (h : read cs = .tag name rest) : ∃ text, cs = '<' :: text ∧ TagStart name rest text := by
  unfold read at h
  split at h
  · cases h
  · cases h
  · exact ⟨_, rfl, tagStart_of_ofAngle h⟩
  · unfold ofHash at h
    split at h
    · cases h
    · split at h <;> cases h
  · cases h
  · split at h <;> cases h

end Head

theorem doctypeHeader?_subset {line : Line} {value rest : List Char}
    (h : doctypeHeader? line = some (value, rest)) : value ⊆ line := by
  obtain ⟨written, behind, ⟨cs, rfl, ⟨keyword, white, rfl, -⟩, -⟩, rfl, -⟩ := doctypeHeader?_iff.1 h
  intro c mem
  have inside := trim_subset written mem
  simp [inside]

end TemplateMarkup
