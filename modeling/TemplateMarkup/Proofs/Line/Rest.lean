import TemplateMarkup.Proofs.Line.Readers
import TemplateMarkup.Proofs.Tag.Listed
import TemplateMarkup.Tag.Tail

/-! What the readers of a line leave unread is the end of the line; and what each of them refuses. -/
namespace TemplateMarkup

theorem trim_subset (cs : List Char) : trim cs ⊆ cs := by
  intro c hc
  have left := trimRight_prefix (trimLeft cs)
  exact (trimLeft_suffix cs).subset (left.subset hc)

theorem OutputMark.read_suffix (cs : List Char) : (OutputMark.read cs).2 <:+ cs := by
  unfold OutputMark.read
  split
  next e ds h =>
    have left : ds <:+ cs := by
      split at h
      · cases h; exact List.suffix_cons _ _
      · cases h; exact List.suffix_rfl
    refine List.IsSuffix.trans ?_ left
    split
    · exact List.suffix_cons _ _
    · exact List.suffix_rfl

/-- The text that a head has still to be read from. -/
def Head.unread : Head → List Char
  | .control cs | .output _ cs | .comment _ cs | .tag _ cs | .text _ cs | .unknown cs => cs
  | .embedded _ | .conditional _ | .remark | .doctype _ => []

theorem Head.ofAngle_unread (cs : List Char) : (Head.ofAngle cs).unread <:+ cs := by
  unfold Head.ofAngle
  split
  · exact List.nil_suffix
  · split
    · exact ⟨['!', '-', '-', ' '], rfl⟩
    · exact ⟨['!', '-', '-'], rfl⟩
    · split
      · exact List.suffix_rfl
      · split
        · exact (List.dropWhile_suffix _).trans (List.suffix_cons _ _)
        · exact List.suffix_rfl
    · exact List.suffix_rfl

/-- A splice at the start of a text keeps its hash sign. -/
theorem Head.ofHash_unread (cs : List Char) : (Head.ofHash cs).unread <:+ '#' :: cs := by
  unfold Head.ofHash
  split
  · exact List.suffix_rfl
  · split
    · exact List.nil_suffix
    · exact List.nil_suffix

theorem Head.read_unread (cs : List Char) : (Head.read cs).unread <:+ cs := by
  unfold Head.read
  split
  · exact List.suffix_cons _ _
  · next rest =>
    exact (OutputMark.read_suffix rest).trans (List.suffix_cons '=' rest)
  · next rest => exact (Head.ofAngle_unread rest).trans (List.suffix_cons '<' rest)
  · next rest => exact Head.ofHash_unread rest
  · exact List.suffix_cons _ _
  · split
    · exact List.nil_suffix
    · exact List.suffix_rfl

/-- A header starts where its line does. -/
theorem doctypeHeader?_suffix {line : Line} {value rest : List Char}
    (h : doctypeHeader? line = some (value, rest)) : rest <:+ trimLeft line := by
  obtain ⟨written, behind, ⟨cs, rfl, ⟨keyword, white, rfl, -⟩, -⟩, -, rfl⟩ := doctypeHeader?_iff.1 h
  have inside : behind.getD [] <:+ behind.elim [] ('>' :: ·) := by
    cases behind with
    | none => exact List.suffix_rfl
    | some text => exact List.suffix_cons '>' text
  have front : '<' :: (keyword ++ white :: written) ++ behind.elim [] ('>' :: ·) =
      trimLeft ('<' :: (keyword ++ white :: (written ++ behind.elim [] ('>' :: ·)))) := by
    rw [trimLeft_cons_of_not_white (by decide)]
    simp
  exact inside.trans (front ▸ List.suffix_append _ _)

theorem readShortcuts_suffix (cs : List Char) : (readShortcuts cs).2 <:+ cs := by
  fun_induction readShortcuts cs with
  | case1 cs mark c rest h hcond value attrs left hrec ih =>
    have before : rest.dropWhile isShortcutTail <:+ cs := by
      refine (List.dropWhile_suffix _).trans ?_
      exact (List.suffix_append [mark, c] rest).trans (by simpa [h] using trimLeft_suffix cs)
    rw [hrec] at ih
    exact ih.trans before
  | case2 => exact List.suffix_rfl
  | case3 => exact List.suffix_rfl

theorem readName_suffix {cs name rest : List Char} (h : readName cs = some (name, rest)) :
    rest <:+ trimLeft cs := by
  unfold readName at h
  split at h
  · next c tail hc =>
    split at h
    · obtain ⟨-, rfl⟩ := Prod.mk.inj (Option.some.inj h)
      rw [hc]
      refine (trimLeft_suffix _).trans ((List.dropWhile_suffix _).trans ?_)
      exact List.suffix_cons c tail
    · cases h
  · cases h

theorem readValue_suffix {close : Option Char} {cs value rest : List Char}
    (h : readValue close cs = .ok (value, rest)) : rest <:+ cs := by
  have bare : cs.dropWhile (!endsValue close ·) <:+ cs := List.dropWhile_suffix _
  unfold readValue at h
  simp only at h
  split at h
  · next c tail =>
    split at h
    · split at h
      · next result hq =>
        obtain ⟨v, r⟩ := result
        cases h
        exact ⟨c :: (value ++ [c]), by simp [eq_append_of_readQuoted hq]⟩
      · cases h
    · split at h
      · cases h
      · cases h; exact bare
  · split at h
    · cases h
    · cases h; exact bare

/-- A value lacks its closing quote, or it is empty. -/
theorem readValue_error {close : Option Char} {cs : List Char} {snag : Snag}
    (h : readValue close cs = .error snag) :
    (∃ quote, (quote = '"' ∨ quote = '\'') ∧ snag = ⟨.expectedQuote quote, []⟩) ∨
      snag = ⟨.emptyAttribute, cs⟩ := by
  unfold readValue at h
  simp only at h
  split at h
  · split at h
    · next quoted =>
      split at h
      · cases h
      · cases h
        exact .inl ⟨_, by simpa using quoted, rfl⟩
    · split at h
      · cases h
        exact .inr rfl
      · cases h
  · split at h
    · cases h
      exact .inr rfl
    · cases h

theorem readValue_snag {close : Option Char} {cs : List Char} {snag : Snag}
    (h : readValue close cs = .error snag) : snag.rest <:+ cs := by
  obtain ⟨quote, -, rfl⟩ | rfl := readValue_error h
  · exact List.nil_suffix
  · exact List.suffix_rfl

/-- What the reader of attributes leaves, whether it succeeds or not. -/
def leftOf : Except Snag (List Attr × List Char) → List Char
  | .ok (_, rest) => rest
  | .error snag => snag.rest

/-- The white space in front of the attributes is read, even where there are none. -/
theorem readAttributes_left (close : Option Char) (cs : List Char) :
    leftOf (readAttributes close cs) <:+ trimLeft cs := by
  have skip (cs : List Char) : trimLeft cs <:+ cs := trimLeft_suffix cs
  fun_induction readAttributes close cs with
  | case1 cs hn => exact List.suffix_rfl
  | case2 cs name after hn snag hv =>
    have behind := (List.suffix_cons '=' after).trans (readName_suffix hn)
    exact (readValue_snag hv).trans ((skip after).trans behind)
  | case3 cs name after hn value tail hv ih =>
    have behind := (List.suffix_cons '=' after).trans (readName_suffix hn)
    have left := (ih.trans (skip tail)).trans
      ((readValue_suffix hv).trans ((skip after).trans behind))
    cases hr : readAttributes close tail with
    | error snag => rwa [hr] at left
    | ok result => rwa [hr] at left
  | case4 cs name rest hne hn ih =>
    have left := (ih.trans (skip rest)).trans (readName_suffix hn)
    cases hr : readAttributes close rest with
    | error snag => rwa [hr] at left
    | ok result => rwa [hr] at left

theorem readAttributes_suffix (close : Option Char) (cs : List Char) :
    leftOf (readAttributes close cs) <:+ cs :=
  (readAttributes_left close cs).trans (trimLeft_suffix cs)

/-- The end of a list is its bracket, if a bracket opened it, and the angle bracket, if one closes
it. -/
theorem eq_append_of_readListEnd {close : Option Char} {cs rest : List Char} {angle : Bool}
    (h : readListEnd close cs = .ok (.closed angle rest)) :
    cs = close.toList ++ ((if angle then ['>'] else []) ++ rest) := by
  unfold readListEnd at h
  split at h
  · cases h
  · split at h
    · next same =>
      subst same
      split at h
      · cases h
        rfl
      · cases h
        rfl
    · cases h
  · cases h
    rfl
  · cases h
    rfl
  · cases h
    rfl
  · cases h
    rfl
  · split at h
    · cases h
      rfl
    · cases h

theorem readListEnd_suffix {close : Option Char} {cs rest : List Char} {angle : Bool}
    (h : readListEnd close cs = .ok (.closed angle rest)) : rest <:+ cs := by
  rw [eq_append_of_readListEnd h, ← List.append_assoc]
  exact List.suffix_append _ rest

theorem readListEnd_error {close : Option Char} {cs : List Char} {snag : Snag}
    (h : readListEnd close cs = .error snag) : snag = ⟨.expectedAttribute, cs⟩ := by
  unfold readListEnd at h
  split at h
  · cases h
  · split at h
    · split at h <;> cases h
    · cases h
      rfl
  · cases h
  · cases h
  · cases h
  · cases h
  · split at h
    · cases h
    · cases h
      rfl

/-- The text of an output or of a line of text that a tail holds. -/
def Tail.unread : Tail → List Char
  | .output _ cs | .text cs => cs
  | .void | .block => []

theorem Tail.read_unread {angle : Bool} {cs : List Char} {tail : Tail}
    (h : Tail.read angle cs = .ok tail) : tail.unread <:+ cs := by
  unfold Tail.read at h
  split at h
  · cases h; exact List.nil_suffix
  · next code hc =>
    cases h
    refine (OutputMark.read_suffix code).trans ?_
    exact (List.suffix_cons '=' code).trans (hc ▸ trimLeft_suffix cs)
  · split at h
    · cases h; exact List.nil_suffix
    · cases h
  · split at h
    · cases h; exact List.nil_suffix
    · split at h
      · cases h; exact List.suffix_cons _ _
      · cases h; exact List.suffix_rfl

/-- What follows a tag that closes itself is at fault as a whole. -/
theorem Tail.read_error {angle : Bool} {cs : List Char} {snag : Snag}
    (h : Tail.read angle cs = .error snag) : snag = ⟨.contentAfterVoidTag, []⟩ := by
  unfold Tail.read at h
  split at h
  · cases h
  · cases h
  · split at h
    · cases h
    · cases h
      rfl
  · split at h
    · cases h
    · split at h <;> cases h

end TemplateMarkup
