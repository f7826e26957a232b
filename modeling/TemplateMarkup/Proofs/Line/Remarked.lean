import TemplateMarkup.Proofs.Tag.Remarked
import TemplateMarkup.Proofs.Text.Blank

/-! Lines with a sign in them. What is read in front of the sign does not depend on what stands
behind it: it is no indentation and belongs to no keyword, and the text that a line shows starts in
front of it. -/
namespace TemplateMarkup

variable {m : Char} {cs front keep x y : List Char}

theorem indentWidth_sign (sign : IsSign m) (tab : Nat) (front x : List Char) :
    indentWidth tab (front ++ m :: x) = indentWidth tab front := by
  induction front with
  | nil =>
    refine Stops.indentWidth_eq_zero (stops_sign ?_ x) tab
    have space : m ≠ ' ' := sign.ne_of_white rfl
    have tab : m ≠ '\t' := sign.ne_of_white rfl
    simp [isIndent, space, tab]
  | cons c front ih => rw [List.cons_append, indentWidth, indentWidth, ih]

theorem isBlank_sign (sign : IsSign m) (front x : List Char) :
    isBlank (front ++ m :: x) = false := by
  simp [isBlank, sign.seen]

theorem isBlankText_hash (front x : List Char) : isBlankText (front ++ '#' :: x) = false := by
  rw [isBlankText, trimLeft_sign .hash]
  cases trimLeft front with
  | nil => rfl
  | cons c rest => simp [isBlank_sign .hash]

theorem dropKeyword_sign (sign : IsSign m) {ks : List Char} (plain : m ∉ ks) (cs x : List Char) :
    dropKeyword ks (cs ++ m :: x) = (dropKeyword ks cs).map (· ++ m :: x) := by
  induction ks generalizing cs with
  | nil => rfl
  | cons k ks ih =>
    rw [List.mem_cons, not_or] at plain
    cases cs with
    | nil => simp [dropKeyword, sign.caseless, plain.1]
    | cons c cs =>
      rw [List.cons_append, dropKeyword, dropKeyword, ih plain.2]
      split <;> rfl

theorem dropDoctype_sign (sign : IsSign m) (cs x : List Char) :
    dropDoctype (cs ++ m :: x) = (dropDoctype cs).map (· ++ m :: x) := by
  have plain : m ∉ ['d', 'o', 'c', 't', 'y', 'p', 'e'] := by
    intro letter
    have word : isWord m = true := List.all_eq_true.1 (by decide) m letter
    rw [sign.not_isWord] at word
    cases word
  unfold dropDoctype
  rw [dropKeyword_sign sign plain]
  cases dropKeyword ['d', 'o', 'c', 't', 'y', 'p', 'e'] cs with
  | none => rfl
  | some rest =>
    cases rest with
    | nil => simp [sign.seen]
    | cons c rest =>
      simp only [Option.map_some, List.cons_append]
      split <;> rfl

/-- Whether a line is a doctype header is told in front of the sign. -/
theorem doctypeHeader?_sign (sign : IsSign m) (h : doctypeHeader? (front ++ m :: x) = none)
    (y : List Char) : doctypeHeader? (front ++ m :: y) = none := by
  cases front with
  | nil => simp [doctypeHeader?, (sign.ne_of_plain (by decide) : m ≠ '<')]
  | cons c front =>
    by_cases angle : c = '<'
    · subst angle
      rw [List.cons_append, doctypeHeader?, dropDoctype_sign sign] at h ⊢
      cases found : dropDoctype front with
      | none => simp
      | some cs =>
        simp only [found, Option.map_some] at h
        split at h <;> cases h
    · simp [doctypeHeader?, angle]

/-! The head of a line. -/

/-- What a line with text in it is. -/
inductive TextKind where
  | text (glued : Bool)
  | comment (spaced : Bool)
  | tag (name : Option (List Char)) (shortcuts attrs : List Attr)
  /-- The last line of an attribute list that goes on from above. -/
  | list (attrs : List Attr)
  /-- A line of a text that goes on from above. -/
  | below

namespace Head

theorem engine?_sign (sign : IsSign m) (cs x : List Char) : engine? (cs ++ m :: x) = none := by
  rw [engine?_eq_none_iff]
  rintro engine ⟨white, same, -, word, blank⟩
  have mem : m ∈ engine ++ ':' :: white := by
    rw [← same]
    simp
  rw [List.mem_append, List.mem_cons] at mem
  obtain inside | colon | behind := mem
  · have named := word m inside
    rw [sign.not_isWord] at named
    cases named
  · exact sign.ne_of_tail (by decide) colon
  · have seen := List.all_eq_true.1 blank m behind
    rw [sign.seen] at seen
    cases seen

/-- The head of a line with an angle bracket is told in front of the sign. -/
inductive Angled (m : Char) (front : List Char) : Prop
  | comment (spaced : Bool) (rest : List Char)
      (read : ∀ x, ofAngle (front ++ m :: x) = .comment spaced (rest ++ m :: x))
  | tag (name : Option (List Char)) (rest : List Char)
      (read : ∀ x, ofAngle (front ++ m :: x) = .tag name (rest ++ m :: x))
  | unknown (read : ∀ x, ofAngle (front ++ m :: x) = .unknown (front ++ m :: x))

theorem ofAngle_plain {c : Char} (cs : List Char) (engine : engine? (c :: cs) = none)
    (noComment : ¬ ['!', '-', '-'] <+: c :: cs) :
    ofAngle (c :: cs) =
      if c = '#' || c = '.' then .tag none (c :: cs)
      else if isWord c then .tag (c :: cs.takeWhile isNameTail) (cs.dropWhile isNameTail)
      else .unknown (c :: cs) := by
  unfold ofAngle
  rw [engine]
  simp only
  split
  · next same => exact absurd ⟨_, same.symm⟩ noComment
  · next same => exact absurd ⟨_, same.symm⟩ noComment
  · next same =>
    obtain ⟨rfl, rfl⟩ := List.cons.inj same
    simp
  · next same => cases same

theorem engine?_mark (cs : List Char) : engine? ('!' :: cs) = none :=
  engine?_of_not_word (by decide) cs

theorem ofAngle_sign (sign : IsSign m) (front : List Char) : Angled m front := by
  by_cases opened : ['!', '-', '-'] <+: front
  · obtain ⟨behind, rfl⟩ := opened
    match behind with
    | [] =>
      have filled : m ≠ ' ' := sign.ne_of_white rfl
      exact .comment false [] fun x => by simp [ofAngle, engine?_mark, filled]
    | c :: rest =>
      by_cases space : c = ' '
      · subst space
        exact .comment true rest fun x => by simp [ofAngle, engine?_mark]
      · exact .comment false (c :: rest) fun x => by simp [ofAngle, engine?_mark, space]
  · have dash : m ≠ '-' := sign.ne_of_tail (by decide)
    have plain (x : List Char) : ¬ ['!', '-', '-'] <+: front ++ m :: x := by
      match front, opened with
      | [], _ => simp [(sign.ne_of_plain (by decide) : m ≠ '!').symm]
      | [c], _ => simp [dash.symm]
      | [c, d], _ => simp [dash.symm]
      | c :: d :: e :: rest, opened => simpa using opened
    cases front with
    | nil =>
      have read (x : List Char) := ofAngle_plain x (engine?_sign sign [] x) (plain x)
      by_cases mark : (m = '#' || m = '.') = true
      · refine .tag none [] fun x => ?_
        rw [List.nil_append, read x, if_pos mark]
      · refine .unknown fun x => ?_
        rw [List.nil_append, read x, if_neg mark, if_neg (by simp [sign.not_isWord])]
    | cons c rest =>
      have read (x : List Char) :=
        ofAngle_plain (rest ++ m :: x) (engine?_sign sign (c :: rest) x) (plain x)
      have stops (x : List Char) : Stops isNameTail (m :: x) := stops_sign sign.not_isNameTail x
      by_cases mark : (c = '#' || c = '.') = true
      · refine .tag none (c :: rest) fun x => ?_
        rw [List.cons_append, read x, if_pos mark]
      · by_cases word : isWord c = true
        · refine .tag (c :: rest.takeWhile isNameTail) (rest.dropWhile isNameTail) fun x => ?_
          rw [List.cons_append, read x, if_neg mark, if_pos word, (stops x).takeWhile_append,
            (stops x).dropWhile_append]
        · refine .unknown fun x => ?_
          rw [List.cons_append, read x, if_neg mark, if_neg word]

/-- A head that shows text: text itself, a comment, or a tag whose attributes text follows. -/
inductive Shows : Head → TextKind → List Char → Prop
  | text (glued : Bool) (cs : List Char) : Shows (.text glued cs) (.text glued) cs
  | comment (spaced : Bool) (cs : List Char) : Shows (.comment spaced cs) (.comment spaced) cs
  | tag (name : Option (List Char)) {cs inline : List Char} {shortcuts attrs : List Attr}
      (found : TagText cs shortcuts attrs inline) :
      Shows (.tag name cs) (.tag name shortcuts attrs) inline

variable {cs part : List Char} {kind : TextKind}

@[simp] theorem shows_text {glued : Bool} :
    (text glued cs).Shows kind part ↔ kind = .text glued ∧ cs = part := by
  constructor
  · rintro ⟨⟩
    exact ⟨rfl, rfl⟩
  · rintro ⟨rfl, rfl⟩
    exact .text glued cs

@[simp] theorem shows_comment {spaced : Bool} :
    (comment spaced cs).Shows kind part ↔ kind = .comment spaced ∧ cs = part := by
  constructor
  · rintro ⟨⟩
    exact ⟨rfl, rfl⟩
  · rintro ⟨rfl, rfl⟩
    exact .comment spaced cs

@[simp] theorem shows_tag {name : Option (List Char)} :
    (tag name cs).Shows kind part ↔
      ∃ shortcuts attrs, kind = .tag name shortcuts attrs ∧ TagText cs shortcuts attrs part := by
  constructor
  · rintro ⟨⟩
    exact ⟨_, _, rfl, ‹_›⟩
  · rintro ⟨shortcuts, attrs, rfl, found⟩
    exact .tag name found

theorem read_other {c : Char} (plain : c ∉ ['-', '=', '<', '#', '>']) (cs : List Char) :
    read (c :: cs) =
      match dropDoctype (c :: cs) with
      | some value => doctype (trim value)
      | none => text false (c :: cs) := by
  simp only [List.mem_cons, List.not_mem_nil, or_false, not_or] at plain
  obtain ⟨dash, equals, angle, hash, greater⟩ := plain
  unfold read
  split
  · next same => exact absurd (List.cons.inj same).1 dash
  · next same => exact absurd (List.cons.inj same).1 equals
  · next same => exact absurd (List.cons.inj same).1 angle
  · next same => exact absurd (List.cons.inj same).1 hash
  · next same => exact absurd (List.cons.inj same).1 greater
  · rfl

/-- Behind a hash sign that starts a line, text can only go on with a splice. -/
theorem shows_ofHash (h : (ofHash cs).Shows kind part) :
    cs.head? = some '{' ∧ kind = .text false ∧ part = '#' :: cs := by
  unfold ofHash at h
  split at h
  · obtain ⟨kind, same⟩ := shows_text.1 h
    exact ⟨rfl, kind, same.symm⟩
  · split at h <;> cases h

theorem Angled.shows (angled : Angled '#' front)
    (h : (ofAngle (front ++ '#' :: x)).Shows kind (part ++ '#' :: x)) (y : List Char) :
    (ofAngle (front ++ '#' :: y)).Shows kind (part ++ '#' :: y) := by
  cases angled with
  | comment spaced rest read =>
    rw [read] at h
    obtain ⟨rfl, same⟩ := shows_comment.1 h
    rw [read, List.append_cancel_right same]
    exact .comment spaced _
  | tag name rest read =>
    rw [read] at h
    obtain ⟨shortcuts, attrs, rfl, found⟩ := shows_tag.1 h
    rw [read]
    exact .tag name (found.of_hash y)
  | unknown read =>
    rw [read] at h
    cases h

/-- A line that shows text with a hash sign in it shows it whatever stands behind the sign. -/
theorem shows_read_hash (h : (read (front ++ '#' :: x)).Shows kind (part ++ '#' :: x))
    (noSplice : x.head? ≠ some '{') (y : List Char) :
    (read (front ++ '#' :: y)).Shows kind (part ++ '#' :: y) := by
  cases front with
  | nil => exact absurd (shows_ofHash h).1 noSplice
  | cons c front =>
    by_cases marker : c ∈ ['-', '=', '<', '#', '>']
    · simp only [List.mem_cons, List.not_mem_nil, or_false] at marker
      obtain rfl | rfl | rfl | rfl | rfl := marker
      · cases h
      · cases h
      · exact (ofAngle_sign .hash front).shows h y
      · obtain ⟨splice, rfl, same⟩ := shows_ofHash h
        cases front with
        | nil => exact absurd splice (by simp)
        | cons c front =>
          obtain rfl : c = '{' := by simpa using splice
          obtain rfl : part = '#' :: '{' :: front := List.append_cancel_right same
          exact .text false _
      · obtain ⟨rfl, same⟩ := shows_text.1 h
        obtain rfl : front = part := List.append_cancel_right same
        exact .text true _
    · have other (z : List Char) := read_other marker (front ++ '#' :: z)
      simp only [← List.cons_append, dropDoctype_sign .hash] at other
      rw [other] at h ⊢
      cases found : dropDoctype (c :: front) with
      | some value =>
        rw [found] at h
        cases h
      | none =>
        rw [found] at h
        obtain ⟨rfl, same⟩ := shows_text.1 h
        obtain rfl : c :: front = part := List.append_cancel_right same
        exact .text false _

end Head

end TemplateMarkup
