import TemplateMarkup.Proofs.Line.Rest
import TemplateMarkup.Proofs.Tag.Quoted
import TemplateMarkup.Proofs.Tag.Readers
import TemplateMarkup.Reading.Feed

/-! Tags with a sign behind them: the hash sign of a remark, or an angle bracket. A sign is neither
white space nor part of a name, and a value, an attribute list or a tag that ends in front of it
ends there whatever follows. -/
namespace TemplateMarkup

/-- A character that belongs to no name, and opens no value, list, comment or tag. -/
structure IsSign (c : Char) : Prop where
  seen : isWhite c = false
  unnamed : isShortcutTail c = false
  caseless : c.toLower = c
  plain : c ∉ ['"', '\'', '=', '(', '[', '{', '<', '!']

namespace IsSign

variable {c : Char}

protected theorem hash : IsSign '#' := ⟨rfl, by decide, rfl, by decide⟩

protected theorem angle : IsSign '>' := ⟨rfl, by decide, rfl, by decide⟩

theorem not_isWord (sign : IsSign c) : isWord c = false := by
  have outside := sign.unnamed
  simp only [isShortcutTail, isShortcutHead, Bool.or_eq_false_iff] at outside
  exact outside.1.1.1

theorem not_isNameTail (sign : IsSign c) : isNameTail c = false := by
  have outside := sign.unnamed
  simp only [isShortcutTail, Bool.or_eq_false_iff] at outside
  simp [isNameTail, sign.not_isWord, outside.1.2, outside.2]

theorem ne_of_plain (sign : IsSign c) {d : Char}
    (other : d ∈ ['"', '\'', '=', '(', '[', '{', '<', '!']) : c ≠ d := by
  rintro rfl
  exact sign.plain other

theorem ne_of_tail (sign : IsSign c) {d : Char} (tail : isShortcutTail d = true) : c ≠ d := by
  rintro rfl
  rw [sign.unnamed] at tail
  cases tail

theorem ne_of_white (sign : IsSign c) {d : Char} (white : isWhite d = true) : c ≠ d := by
  rintro rfl
  rw [sign.seen] at white
  cases white

theorem ne_equals (sign : IsSign c) : c ≠ '=' := sign.ne_of_plain (by decide)

theorem closingBracket_eq_none (sign : IsSign c) : closingBracket c = none := by
  have plain := sign.plain
  unfold closingBracket
  split <;> simp_all

end IsSign

variable {m : Char} {cs front keep x y : List Char}

theorem stops_sign {p : Char → Bool} (out : p m = false) (x : List Char) : Stops p (m :: x) :=
  stops_cons.2 out

theorem trimLeft_sign (sign : IsSign m) (front x : List Char) :
    trimLeft (front ++ m :: x) = trimLeft front ++ m :: x :=
  (stops_sign sign.seen x).dropWhile_append front

/-- A hash sign is not trimmed, and neither is what is in front of it. -/
theorem trimRight_hash_ne (front x : List Char) : trimRight (front ++ '#' :: x) ≠ ['/'] := by
  intro same
  have mem : '#' ∈ (front ++ '#' :: x).reverse := by simp
  rw [← List.takeWhile_append_dropWhile (p := isWhite) (l := (front ++ '#' :: x).reverse)] at mem
  obtain white | kept := List.mem_append.1 mem
  · cases List.mem_takeWhile_imp white
  · have inside : '#' ∈ trimRight (front ++ '#' :: x) := List.mem_reverse.2 kept
    rw [same] at inside
    cases inside with
    | tail _ none => cases none

/-! Attributes. -/

theorem readName_sign (sign : IsSign m) (cs x : List Char) :
    readName (cs ++ m :: x) = (readName cs).map fun (name, rest) => (name, rest ++ m :: x) := by
  have stop : Stops isNameTail (m :: x) := stops_sign sign.not_isNameTail x
  unfold readName
  rw [trimLeft_sign sign]
  cases trimLeft cs with
  | nil => simp [sign.not_isWord]
  | cons c rest =>
    simp only [List.cons_append, stop.takeWhile_append, stop.dropWhile_append, trimLeft_sign sign]
    split <;> rfl

/-- A span that ends in front of the sign, or right there, does so whatever follows. -/
theorem dropWhile_sign {p : Char → Bool}
    (h : (front ++ m :: x).dropWhile p = keep ++ m :: x) (y : List Char) :
    (front ++ m :: y).dropWhile p = keep ++ m :: y ∧
      (front ++ m :: y).takeWhile p = (front ++ m :: x).takeWhile p := by
  induction front with
  | nil =>
    cases out : p m with
    | false =>
      have stops (z : List Char) : Stops p (m :: z) := stops_sign out z
      rw [List.nil_append, (stops x).dropWhile_eq_self] at h
      obtain rfl := List.self_eq_append_left.1 h
      exact ⟨(stops y).dropWhile_eq_self,
        (stops y).takeWhile_eq_nil.trans (stops x).takeWhile_eq_nil.symm⟩
    | true =>
      have short := congrArg List.length h
      have le := (List.dropWhile_suffix p (l := x)).length_le
      simp only [List.nil_append, List.dropWhile_cons, out, if_true, List.length_append,
        List.length_cons] at short
      omega
  | cons c front ih =>
    simp only [List.cons_append, List.dropWhile_cons, List.takeWhile_cons] at h ⊢
    split at h
    · next inside => simpa [inside] using ih h
    · next outside =>
      have same : c :: front = keep := by
        rw [← List.cons_append] at h
        exact List.append_cancel_right h
      simp [outside, ← same]

/-- What stands in front of the sign in what is left of a text. -/
theorem exists_keep_of_suffix {tail : List Char} (h : keep ++ m :: x <:+ tail) :
    ∃ more, tail = more ++ m :: x := by
  obtain ⟨front, rfl⟩ := h
  exact ⟨front ++ keep, List.append_assoc _ _ _ |>.symm⟩

theorem readValue_quoted {close : Option Char} {quote : Char} (mark : quote = '"' ∨ quote = '\'')
    (cs : List Char) :
    readValue close (quote :: cs) =
      match readQuoted quote 0 cs with
      | some result => .ok result
      | none => .error ⟨.expectedQuote quote, []⟩ := by
  obtain rfl | rfl := mark
  · rfl
  · rfl

theorem readValue_bare {close : Option Char}
    (other : ∀ c ∈ cs.head?, ¬ (c = '"' ∨ c = '\'')) :
    readValue close cs =
      match cs.takeWhile (!endsValue close ·) with
      | [] => .error ⟨.emptyAttribute, cs⟩
      | value => .ok (value, cs.dropWhile (!endsValue close ·)) := by
  cases cs with
  | nil => rfl
  | cons c cs =>
    have plain : ¬ (c = '"' ∨ c = '\'') := other c rfl
    exact if_neg (by simpa using plain)

theorem readValue_sign (sign : IsSign m) {close : Option Char} {value : List Char}
    (h : readValue close (front ++ m :: x) = .ok (value, keep ++ m :: x)) (y : List Char) :
    readValue close (front ++ m :: y) = .ok (value, keep ++ m :: y) := by
  by_cases quoted : ∃ quote rest, front = quote :: rest ∧ (quote = '"' ∨ quote = '\'')
  · obtain ⟨quote, rest, rfl, mark⟩ := quoted
    rw [List.cons_append, readValue_quoted mark] at h ⊢
    split at h
    · next found =>
      cases h
      have whole := eq_append_of_readQuoted found
      rw [← List.cons_append, ← List.append_assoc] at whole
      obtain rfl := List.append_cancel_right whole
      rw [List.append_assoc, List.cons_append,
        readQuoted_quotable mark (quotable_of_readQuoted found)]
    · cases h
  · have other (z : List Char) : ∀ c ∈ (front ++ m :: z).head?, ¬ (c = '"' ∨ c = '\'') := by
      intro c head mark
      cases front with
      | nil =>
        obtain rfl : m = c := by simpa using head
        exact absurd sign.plain (by simp [← or_assoc, mark])
      | cons d rest =>
        obtain rfl : d = c := by simpa using head
        exact quoted ⟨d, rest, rfl, mark⟩
    rw [readValue_bare (other x)] at h
    rw [readValue_bare (other y)]
    split at h
    · cases h
    · next found =>
      obtain ⟨rfl, left⟩ := Prod.mk.inj (Except.ok.inj h)
      obtain ⟨left', same⟩ := dropWhile_sign left y
      rw [left', same]
      split
      · next empty => exact absurd empty found
      · rfl

/-- Attributes that end in front of the sign are read alike whatever follows. -/
theorem readAttributes_sign (sign : IsSign m) {close : Option Char} {attrs : List Attr}
    (h : readAttributes close (front ++ m :: x) = .ok (attrs, keep ++ m :: x)) (y : List Char) :
    readAttributes close (front ++ m :: y) = .ok (attrs, keep ++ m :: y) := by
  rw [readAttributes_iff] at h ⊢
  generalize whole : front ++ m :: x = cs, left : keep ++ m :: x = rest at h
  induction h generalizing front with
  | done nameless =>
    subst whole
    rw [readName_sign sign, Option.map_eq_none_iff] at nameless
    rw [trimLeft_sign sign] at left
    rw [List.append_cancel_right left, ← trimLeft_sign sign]
    refine .done ?_
    rw [readName_sign sign, nameless]
    rfl
  | @valued cs name after value tail rest attrs named given onward ih =>
    subst whole left
    rw [readName_sign sign] at named
    obtain ⟨⟨name, behind⟩, found, same⟩ := Option.map_eq_some_iff.1 named
    obtain ⟨rfl, unread⟩ := Prod.mk.inj same
    cases behind with
    | nil => exact absurd (List.cons.inj unread).1 sign.ne_equals
    | cons c behind =>
      obtain ⟨rfl, onto⟩ := List.cons.inj unread
      obtain rfl : after = behind ++ m :: x := onto.symm
      obtain ⟨between, rfl⟩ : ∃ between, tail = between ++ m :: x := by
        have suffix := readAttributes_suffix close tail
        rw [readAttributes_iff.2 onward] at suffix
        exact exists_keep_of_suffix suffix
      have again : readName (front ++ m :: y) = some (name, '=' :: (behind ++ m :: y)) := by
        rw [readName_sign sign, found]
        rfl
      rw [trimLeft_sign sign] at given
      have alike := readValue_sign sign given y
      rw [← trimLeft_sign sign] at alike
      exact .valued again alike (ih rfl rfl)
  | @flag cs name behind rest attrs named bare onward ih =>
    subst whole left
    rw [readName_sign sign] at named
    obtain ⟨⟨name, behind⟩, found, same⟩ := Option.map_eq_some_iff.1 named
    obtain ⟨rfl, rfl⟩ := Prod.mk.inj same
    have again : readName (front ++ m :: y) = some (name, behind ++ m :: y) := by
      rw [readName_sign sign, found]
      rfl
    refine .flag again ?_ (ih rfl rfl)
    intro after valued
    cases behind with
    | nil => exact absurd (List.cons.inj valued).1 sign.ne_equals
    | cons c behind =>
      obtain ⟨rfl, -⟩ := List.cons.inj valued
      exact bare _ rfl

/-! The end of an attribute list, and the text behind it. -/

/-- The attributes of one line are `attrs`, and `inline` is the text that follows their list. -/
def EndsInText (close : Option Char) (cs : List Char) (attrs : List Attr) (inline : List Char) :
    Prop :=
  ∃ rest angle behind, readAttributes close cs = .ok (attrs, rest) ∧
    readListEnd close rest = .ok (.closed angle behind) ∧
    Tail.read angle behind = .ok (.text inline)

/-- The text without the character `c`, if it starts with it. -/
def dropFront (c : Char) : List Char → List Char
  | [] => []
  | d :: cs => if d = c then cs else d :: cs

theorem dropFront_suffix (c : Char) (cs : List Char) : dropFront c cs <:+ cs := by
  cases cs with
  | nil => exact List.suffix_rfl
  | cons d cs =>
    rw [dropFront]
    split
    · exact List.suffix_cons d cs
    · exact List.suffix_rfl

theorem dropFront_hash {c : Char} (other : c ≠ '#') (front x : List Char) :
    dropFront c (front ++ '#' :: x) = dropFront c front ++ '#' :: x := by
  cases front with
  | nil => exact if_neg other.symm
  | cons d front =>
    rw [List.cons_append, dropFront, dropFront]
    split <;> rfl

/-- What stands behind an attribute list is text unless it is blank, an output or the end of a tag
that closes itself. -/
theorem Tail.read_eq_text_iff {angle : Bool} {inline : List Char} :
    Tail.read angle cs = .ok (.text inline) ↔
      trimLeft cs ≠ [] ∧ (trimLeft cs).head? ≠ some '=' ∧ ¬ ['/', '>'] <+: trimLeft cs ∧
        (angle = true ∨ trimRight (trimLeft cs) ≠ ['/']) ∧ inline = dropFront ' ' cs := by
  unfold Tail.read
  split
  · next empty => simp [empty]
  · next code same => simp [same]
  · next rest same =>
    simp only [same]
    split <;> simp
  · next filled noOutput noVoid =>
    have start : (trimLeft cs).head? ≠ some '=' := by
      intro output
      obtain ⟨code, same⟩ := List.head?_eq_some_iff.1 output
      exact noOutput code same
    have stays : ¬ ['/', '>'] <+: trimLeft cs := by
      rintro ⟨rest, same⟩
      exact noVoid rest same.symm
    have some_left : trimLeft cs ≠ [] := fun empty => filled empty
    split
    · next lone =>
      have void : ¬ (angle = true ∨ trimRight (trimLeft cs) ≠ ['/']) := by simpa [not_or] using lone
      simp [void]
    · next open' =>
      have other : angle = true ∨ trimRight (trimLeft cs) ≠ ['/'] := by
        cases angle with
        | true => exact .inl rfl
        | false => exact .inr (by simpa using open')
      split
      · constructor
        · rintro ⟨⟩
          exact ⟨some_left, start, stays, other, rfl⟩
        · rintro ⟨-, -, -, -, rfl⟩
          rfl
      · next unspaced =>
        have same : dropFront ' ' cs = cs := by
          cases cs with
          | nil => rfl
          | cons c cs => exact if_neg fun space => unspaced cs (by rw [space])
        rw [same]
        constructor
        · rintro ⟨⟩
          exact ⟨some_left, start, stays, other, rfl⟩
        · rintro ⟨-, -, -, -, rfl⟩
          rfl

theorem Tail.read_hash {angle : Bool} {part : List Char}
    (h : Tail.read angle (front ++ '#' :: x) = .ok (.text (part ++ '#' :: x))) (y : List Char) :
    Tail.read angle (front ++ '#' :: y) = .ok (.text (part ++ '#' :: y)) := by
  rw [Tail.read_eq_text_iff, trimLeft_sign .hash, dropFront_hash (by decide)] at h ⊢
  obtain ⟨-, noOutput, noVoid, -, same⟩ := h
  refine ⟨by simp, ?_, ?_, .inr (trimRight_hash_ne _ y), ?_⟩
  · cases start : trimLeft front with
    | nil => simp
    | cons c rest => simpa [start] using noOutput
  · match start : trimLeft front with
    | [] => simp
    | [c] => simp
    | c :: d :: rest => simpa [start] using noVoid
  · rw [List.append_cancel_right same]

theorem trimLeft_of_lone_slash (h : trimRight cs = ['/']) : trimLeft cs = cs := by
  obtain ⟨more, same⟩ := trimRight_prefix cs
  rw [← same, h]
  rfl

/-- Text follows a list without brackets only behind an angle bracket. -/
theorem angle_of_text {rest behind inline : List Char} {angle : Bool}
    (ended : readListEnd none rest = .ok (.closed angle behind))
    (text : Tail.read angle behind = .ok (.text inline)) : rest = '>' :: behind := by
  obtain ⟨filled, noOutput, noVoid, open', -⟩ := Tail.read_eq_text_iff.1 text
  unfold readListEnd at ended
  split at ended
  · cases ended
  · next same => cases same
  · cases ended
    rfl
  · cases ended
    exact absurd rfl filled
  · cases ended
    exact absurd rfl noOutput
  · next more _ =>
    cases ended
    exact absurd ⟨more, rfl⟩ noVoid
  · split at ended
    · next lone =>
      cases ended
      rw [trimLeft_of_lone_slash lone] at open'
      exact absurd lone (open'.resolve_left Bool.false_ne_true)
    · cases ended

theorem readListEnd_bracket (bracket c : Char) (rest : List Char) :
    readListEnd (some bracket) (c :: rest) =
      if c = bracket then .ok (.closed (rest.head? = some '>') (dropFront '>' rest))
      else .error ⟨.expectedAttribute, c :: rest⟩ := by
  unfold readListEnd
  refine if_congr Iff.rfl ?_ rfl
  cases rest with
  | nil => rfl
  | cons d rest =>
    by_cases angle : d = '>'
    · subst angle
      rfl
    · simp [dropFront, angle]

theorem readListEnd_hash {bracket : Char} {angle : Bool}
    (h : readListEnd (some bracket) (front ++ '#' :: x) = .ok (.closed angle (keep ++ '#' :: x)))
    (y : List Char) :
    readListEnd (some bracket) (front ++ '#' :: y) = .ok (.closed angle (keep ++ '#' :: y)) := by
  cases front with
  | nil =>
    -- The bracket is read, so the sign cannot be it.
    rw [List.nil_append, readListEnd_bracket] at h
    split at h
    · have left := (ListEnd.closed.inj (Except.ok.inj h)).2
      have short := (dropFront_suffix '>' x).length_le
      rw [left, List.length_append, List.length_cons] at short
      omega
    · cases h
  | cons c front =>
    rw [List.cons_append, readListEnd_bracket, dropFront_hash (by decide)] at h ⊢
    split at h
    · next same =>
      obtain ⟨marked, left⟩ := ListEnd.closed.inj (Except.ok.inj h)
      have head : (front ++ '#' :: y).head? = (front ++ '#' :: x).head? := by
        cases front <;> rfl
      rw [if_pos same, head, marked, List.append_cancel_right left]
    · cases h

theorem EndsInText.suffix {close : Option Char} {attrs : List Attr} {inline : List Char}
    (h : EndsInText close cs attrs inline) : inline <:+ cs := by
  obtain ⟨rest, angle, behind, read, ended, text⟩ := h
  have left := readAttributes_suffix close cs
  rw [read] at left
  exact (Tail.read_unread text).trans ((readListEnd_suffix ended).trans left)

/-- Text that holds the sign follows an attribute list whatever stands behind the sign. -/
theorem EndsInText.of_hash {close : Option Char} {attrs : List Attr} {part : List Char}
    (h : EndsInText close (front ++ '#' :: x) attrs (part ++ '#' :: x)) (y : List Char) :
    EndsInText close (front ++ '#' :: y) attrs (part ++ '#' :: y) := by
  obtain ⟨rest, angle, behind, read, ended, text⟩ := h
  obtain ⟨keep, rfl⟩ := exists_keep_of_suffix (Tail.read_unread text)
  obtain ⟨more, rfl⟩ := exists_keep_of_suffix (readListEnd_suffix ended)
  refine ⟨more ++ '#' :: y, angle, keep ++ '#' :: y, readAttributes_sign .hash read y, ?_,
    Tail.read_hash text y⟩
  cases close with
  | some bracket => exact readListEnd_hash ended y
  | none =>
    have whole := angle_of_text ended text
    rw [whole] at ended
    obtain ⟨rfl, -⟩ := ListEnd.closed.inj (Except.ok.inj ended)
    rw [← List.cons_append] at whole
    rw [List.append_cancel_right whole]
    rfl

/-! A tag from the end of its name. -/

/-- The bracket that ends an attribute list, if a bracket opens it, and the list. -/
def openList : List Char → Option Char × List Char
  | [] => (none, [])
  | c :: inner =>
    match closingBracket c with
    | some bracket => (some bracket, inner)
    | none => (none, c :: inner)

theorem openList_suffix (cs : List Char) : (openList cs).2 <:+ cs := by
  cases cs with
  | nil => exact List.suffix_rfl
  | cons c inner =>
    rw [openList]
    cases closingBracket c with
    | some bracket => exact List.suffix_cons c inner
    | none => exact List.suffix_rfl

theorem openList_sign (sign : IsSign m) (front x : List Char) :
    openList (front ++ m :: x) = ((openList front).1, (openList front).2 ++ m :: x) := by
  cases front with
  | nil => simp [openList, sign.closingBracket_eq_none]
  | cons c front =>
    simp only [List.cons_append, openList]
    split <;> rfl

/-- Behind a tag's name, `cs` is its shortcuts, its attributes and the text `inline`, all on one
line. -/
structure TagText (cs : List Char) (shortcuts attrs : List Attr) (inline : List Char) : Prop where
  shortcuts : (readShortcuts cs).1 = shortcuts
  list : EndsInText (openList (readShortcuts cs).2).1 (openList (readShortcuts cs).2).2 attrs inline

theorem isWord_of_isShortcutMark {c : Char} (mark : isShortcutMark c = true) :
    isWord c = false := by
  simp only [isShortcutMark, Bool.or_eq_true, decide_eq_true_eq] at mark
  obtain rfl | rfl := mark
  · decide
  · decide

/-- A list that an angle bracket closes does not start like a shortcut: that would be read as one,
or be refused. -/
theorem stops_of_list {rest left : List Char} {attrs : List Attr}
    (read : readAttributes (openList rest).1 (openList rest).2 = .ok (attrs, left))
    (angle : (openList rest).1 = none → left.head? = some '>') :
    Stops isShortcutMark (trimLeft rest) := by
  cases rest with
  | nil => exact stops_nil
  | cons c inner =>
    cases opens : closingBracket c with
    | some bracket =>
      have shape : c = '(' ∨ c = '[' ∨ c = '{' := by
        unfold closingBracket at opens
        split at opens <;> simp_all
      obtain rfl | rfl | rfl := shape <;> exact stops_cons.2 rfl
    | none =>
      simp only [openList, opens] at read angle
      intro d head
      by_contra mark
      rw [Bool.not_eq_false] at mark
      have plain : Stops isWord (trimLeft (c :: inner)) := by
        intro e same
        obtain rfl := Option.some.inj (Option.mem_def.1 head ▸ Option.mem_def.1 same)
        exact isWord_of_isShortcutMark mark
      rw [readAttributes_end plain] at read
      rw [(Prod.mk.inj (Except.ok.inj read)).2, Option.mem_def, angle trivial] at head
      obtain rfl := Option.some.inj head
      cases mark

theorem stops_of_text {rest : List Char} {attrs : List Attr} {inline : List Char}
    (h : EndsInText (openList rest).1 (openList rest).2 attrs inline) :
    Stops isShortcutMark (trimLeft rest) := by
  obtain ⟨left, angle, behind, read, ended, text⟩ := h
  refine stops_of_list read fun unbracketed => ?_
  rw [unbracketed] at ended
  rw [angle_of_text ended text]
  rfl

/-- The reader of shortcuts without the proof that it ends. -/
theorem readShortcuts_eq (cs : List Char) :
    readShortcuts cs =
      match trimLeft cs with
      | mark :: c :: rest =>
        if (mark = '#' || mark = '.') && isShortcutHead c then
          let value := String.ofList (c :: rest.takeWhile isShortcutTail)
          let (attrs, rest) := readShortcuts (rest.dropWhile isShortcutTail)
          (.shortcut (if mark = '#' then "id" else "class") value :: attrs, rest)
        else ([], cs)
      | _ => ([], cs) := by
  conv => lhs; rw [readShortcuts]
  split
  · next found => rw [found]
  · next other =>
    split
    · next found => exact absurd found (other _ _ _)
    · rfl

theorem head?_trimLeft_sign (sign : IsSign m) (front x y : List Char) :
    (trimLeft (front ++ m :: x)).head? = (trimLeft (front ++ m :: y)).head? := by
  rw [trimLeft_sign sign, trimLeft_sign sign]
  cases trimLeft front <;> rfl

theorem readShortcuts_sign (sign : IsSign m) {attrs : List Attr}
    (h : readShortcuts (front ++ m :: x) = (attrs, keep ++ m :: x))
    (stop : Stops isShortcutMark (trimLeft (keep ++ m :: x))) (y : List Char) :
    readShortcuts (front ++ m :: y) = (attrs, keep ++ m :: y) := by
  have ended : readShortcuts (keep ++ m :: y) = ([], keep ++ m :: y) := by
    refine readShortcuts_end ?_
    rwa [Stops, head?_trimLeft_sign sign keep y x]
  -- Where no more shortcuts are read, all of the text is left.
  have rest_left : ∀ {front : List Char}, front ++ m :: x = keep ++ m :: x →
      readShortcuts (front ++ m :: y) = ([], keep ++ m :: y) := by
    intro front same
    rwa [List.append_cancel_right same]
  generalize whole : front ++ m :: x = cs at h
  fun_induction readShortcuts cs generalizing front attrs with
  | case1 cs mark c rest same cond value more left found =>
    rename_i ih
    subst whole
    obtain ⟨rfl, rfl⟩ := Prod.mk.inj h
    obtain ⟨between, behind⟩ : ∃ between, rest.dropWhile isShortcutTail = between ++ m :: x := by
      have suffix := readShortcuts_suffix (rest.dropWhile isShortcutTail)
      rw [found] at suffix
      exact exists_keep_of_suffix suffix
    obtain ⟨name, rfl⟩ : ∃ name, rest = name ++ m :: x :=
      exists_keep_of_suffix (behind ▸ List.dropWhile_suffix _)
    have stops (z : List Char) : Stops isShortcutTail (m :: z) := stops_sign sign.unnamed z
    have onward := ih ((stops x).dropWhile_append name).symm found
    have start : trimLeft front = mark :: c :: name := by
      rw [trimLeft_sign sign, ← List.cons_append, ← List.cons_append] at same
      exact List.append_cancel_right same
    rw [readShortcuts_eq, trimLeft_sign sign, start]
    simp only [List.cons_append, cond, if_true, (stops y).takeWhile_append,
      (stops y).dropWhile_append, onward, value, (stops x).takeWhile_append]
  | case2 cs mark c rest same cond =>
    obtain ⟨rfl, left⟩ := Prod.mk.inj h
    exact rest_left (whole.trans left)
  | case3 cs other =>
    obtain ⟨rfl, left⟩ := Prod.mk.inj h
    exact rest_left (whole.trans left)

theorem TagText.of_hash {shortcuts attrs : List Attr} {part : List Char}
    (h : TagText (front ++ '#' :: x) shortcuts attrs (part ++ '#' :: x)) (y : List Char) :
    TagText (front ++ '#' :: y) shortcuts attrs (part ++ '#' :: y) := by
  obtain ⟨begun, text⟩ := h
  have stop := stops_of_text text
  cases read : readShortcuts (front ++ '#' :: x) with
  | mk found rest =>
    rw [read] at begun text stop
    obtain ⟨keep, rfl⟩ := exists_keep_of_suffix (text.suffix.trans (openList_suffix rest))
    rw [openList_sign .hash] at text
    have read' := readShortcuts_sign .hash read stop y
    refine ⟨?_, ?_⟩
    · rw [read']
      exact begun
    · simp only [read', openList_sign .hash]
      exact text.of_hash y

end TemplateMarkup
