import TemplateMarkup.Proofs.Cursor.Scan
import TemplateMarkup.Proofs.Tag.Consumed

/-! The readers of a line as scans. Each of them comes to what the reader of the text comes to that
the cursor has ahead, and leaves the cursor in front of what the reader leaves. -/
namespace TemplateMarkup

/-- The shortcut that a text starts with, and what follows it. -/
def shortcut? (cs : List Char) : Option (Attr × List Char) :=
  match trimLeft cs with
  | mark :: c :: rest =>
    if (mark = '#' || mark = '.') && isShortcutHead c then
      let value := String.ofList (c :: rest.takeWhile isShortcutTail)
      some (.shortcut (if mark = '#' then "id" else "class") value, rest.dropWhile isShortcutTail)
    else none
  | _ => none

/-- Reads up to the closing quote, as `readQuoted` does, and counts the bytes that are read. -/
def quotedValue (quote : Char) : (depth index : Nat) → List Char → Option (List Char × Nat)
  | _, _, [] => none
  | 0, index, c :: cs =>
    if c = quote then some ([], index + c.utf8Size)
    else
      match c, cs with
      | '#', '{' :: cs =>
        (quotedValue quote 1 (index + '#'.utf8Size + '{'.utf8Size) cs).map
          fun (value, size) => ('#' :: '{' :: value, size)
      | c, cs => (quotedValue quote 0 (index + c.utf8Size) cs).map
          fun (value, size) => (c :: value, size)
  | depth + 1, index, c :: cs =>
    let depth := if c = '{' then depth + 2 else if c = '}' then depth else depth + 1
    (quotedValue quote depth (index + c.utf8Size) cs).map fun (value, size) => (c :: value, size)

/-- Whether a list without brackets ends in front of a text, though no angle bracket ends it. -/
def endsBare : List Char → Bool
  | [] | '=' :: _ | '/' :: '>' :: _ => true
  | cs => trimRight cs = ['/']

namespace Scan

/-- Consumes the mark of an output, and tells how its value is written out. -/
def outputMark : Scan OutputMark := do
  let cs ← ahead
  match cs with
  | '=' :: after =>
    let (mark, rest) := OutputMark.read after
    advance (byteSize (frontOf cs rest))
    return mark
  | _ => return ⟨true, true⟩

def nextShortcut : Scan (Option Attr) := do
  let cs ← ahead
  match shortcut? cs with
  | none => return none
  | some (attr, rest) =>
    advance (byteSize (frontOf cs rest))
    return some attr

/-- Consumes the bracket that opens an attribute list, and tells the one that closes it. -/
def bracket : Scan (Option Char) := do
  let cs ← ahead
  match cs.head?.bind closingBracket with
  | none => return none
  | some close =>
    advance 1
    return some close

/-- A value without quotes, which the text `cs` that the cursor has ahead starts with. -/
def bareValue (s : State) (close : Option Char) (cs : List Char) : Scan (List Char) :=
  let size := byteSize (cs.takeWhile (!endsValue close ·))
  if size = 0 then refuse .emptyAttribute s.number s.builder.log
  else do
    advance size
    let (value, _) ← cut cs size
    return value

def value (s : State) (close : Option Char) : Scan (List Char) := do
  let cs ← ahead
  match cs with
  | c :: _ =>
    if c = '"' ∨ c = '\'' then
      let (_, inner) ← cut cs 1
      match quotedValue c 0 0 inner with
      | some (value, size) =>
        advance (1 + size)
        return value
      | none =>
        advance (byteSize cs)
        refuse (.expectedQuote c) s.number s.builder.log
    else bareValue s close cs
  | [] => bareValue s close cs

def nextAttribute (s : State) (close : Option Char) : Scan (Option Attr) := do
  let cs ← ahead
  match readName cs with
  | none => return none
  | some (name, '=' :: after) =>
    advance (byteSize (frontOf cs (trimLeft after)))
    let value ← value s close
    return some (.valued (String.ofList name) (.interpolate (String.ofList value)))
  | some (name, rest) =>
    advance (byteSize (frontOf cs rest))
    return some (.flag (String.ofList name))

def attributes (s : State) (close : Option Char) (rounds : Nat) : Scan (List Attr) := do
  let attrs ← whileFound (nextAttribute s close) rounds
  skipWhite
  return attrs

/-- Consumes a character, if the cursor has it ahead. -/
def skipChar (c : Char) : Scan Unit := do
  let cs ← ahead
  if cs.head? = some c then advance 1 else return ()

/-- Consumes the end of an attribute list, or tells the bracket that it goes on to. -/
def listEnd (s : State) (close : Option Char) : Scan (Option Char) := do
  let cs ← ahead
  match close with
  | some bracket =>
    if cs.head? = some bracket then
      advance 1
      skipChar '>'
      return none
    else if cs.isEmpty then return some bracket
    else refuse .expectedAttribute s.number s.builder.log
  | none =>
    if cs.head? = some '>' then
      advance 1
      return none
    else if endsBare cs then return none
    else refuse .expectedAttribute s.number s.builder.log

end Scan

/-- The closing quote is found where the text is read up to, and so many bytes are counted. -/
theorem quotedValue_eq {quote : Char} (other : quote ≠ '#') (depth index : Nat) (cs : List Char) :
    quotedValue quote depth index cs = (readQuoted quote depth cs).map
      fun (value, _) => (value, index + byteSize value + quote.utf8Size) := by
  have further (c : Char) (index : Nat) (found : Option (List Char × List Char)) :
      (found.map fun (value, _) =>
          (value, index + c.utf8Size + byteSize value + quote.utf8Size)).map
        (fun (value, size) => (c :: value, size)) =
      (found.map fun (value, rest) => (c :: value, rest)).map
        fun (value, _) => (value, index + byteSize value + quote.utf8Size) := by
    cases found <;> simp [Nat.add_assoc]
  fun_induction readQuoted quote depth cs generalizing index with
  | case1 => rw [quotedValue, Option.map_none]
  | case2 cs ih =>
    rw [quotedValue, if_neg (Ne.symm other)]
    simp only [ih]
    cases readQuoted quote 1 cs <;> simp [Nat.add_assoc]
  | case3 cs => simp [quotedValue]
  | case4 c cs plain different ih =>
    rw [quotedValue, if_neg different, ih, further]
    exact plain
  | case5 depth c cs ih =>
    rw [quotedValue]
    simp only [ih, further]

theorem shortcut?_rest {cs rest : List Char} {attr : Attr} (h : shortcut? cs = some (attr, rest)) :
    rest <:+ cs ∧ rest.length < cs.length := by
  have skipped := trimLeft_suffix cs
  unfold shortcut? at h
  split at h
  · next mark c tail text =>
    split at h
    · cases h
      rw [text] at skipped
      have left := (List.dropWhile_suffix isShortcutTail (l := tail)).trans
        ((List.suffix_cons c tail).trans (List.suffix_cons mark _))
      have short := (List.dropWhile_suffix isShortcutTail (l := tail)).length_le
      have whole := skipped.length_le
      simp only [List.length_cons] at whole
      exact ⟨left.trans skipped, by omega⟩
    · cases h
  · cases h

theorem readShortcuts_of_some {cs rest : List Char} {attr : Attr}
    (h : shortcut? cs = some (attr, rest)) :
    readShortcuts cs = (attr :: (readShortcuts rest).1, (readShortcuts rest).2) := by
  rw [readShortcuts_eq]
  unfold shortcut? at h
  generalize trimLeft cs = text at h ⊢
  rcases text with _ | ⟨mark, _ | ⟨c, tail⟩⟩
  · cases h
  · cases h
  · by_cases cond : ((mark = '#' || mark = '.') && isShortcutHead c) = true
    · simp only [cond, if_true] at h ⊢
      cases h
      rfl
    · simp only [if_neg cond] at h
      cases h

theorem readShortcuts_of_none {cs : List Char} (h : shortcut? cs = none) :
    readShortcuts cs = ([], cs) := by
  rw [readShortcuts_eq]
  unfold shortcut? at h
  generalize trimLeft cs = text at h ⊢
  rcases text with _ | ⟨mark, _ | ⟨c, tail⟩⟩
  · rfl
  · rfl
  · by_cases cond : ((mark = '#' || mark = '.') && isShortcutHead c) = true
    · simp only [cond, if_true] at h
      cases h
    · simp only [if_neg cond]

namespace State

/-- The end of a reading that fails at a snag. -/
def haltAt (s : State) (line : Line) (snag : Snag) : Halt :=
  ⟨.before snag.cause s.number line snag.rest, s.builder.log⟩

/-- What a reader comes to on a line, for the cursor that has the text ahead. -/
def located {α : Type} (s : State) (line : Line) :
    Except Snag (α × List Char) → Except Halt (α × Cursor)
  | .ok (a, rest) => .ok (a, .before line rest)
  | .error snag => .error (s.haltAt line snag)

end State

namespace Scan

variable (limit : Nat → Prop) {line : Line} {cs rest : List Char}

theorem gives_outputMark (left : '=' :: rest <:+ line) :
    Gives limit outputMark (.before line ('=' :: rest))
      (.ok ((OutputMark.read rest).1, .before line (OutputMark.read rest).2)) := by
  have behind := (OutputMark.read_suffix rest).trans (List.suffix_cons '=' rest)
  exact (gives_ahead _ left).bind ((gives_advance_to _ left behind).bind (gives_pure _ _ _))

theorem gives_nextShortcut (left : cs <:+ line) :
    Gives limit nextShortcut (.before line cs) (.ok (match shortcut? cs with
      | none => (none, .before line cs)
      | some (attr, rest) => (some attr, .before line rest))) := by
  refine (gives_ahead _ left).bind ?_
  cases found : shortcut? cs with
  | none => exact gives_pure _ _ _
  | some result =>
    exact (gives_advance_to _ left (shortcut?_rest found).1).bind (gives_pure _ _ _)

theorem gives_shortcuts (left : cs <:+ line) {rounds : Nat} (enough : cs.length < rounds) :
    Gives limit (whileFound nextShortcut rounds) (.before line cs)
      (.ok ((readShortcuts cs).1, .before line (readShortcuts cs).2)) := by
  induction rounds generalizing cs with
  | zero => exact absurd enough (Nat.not_lt_zero _)
  | succ rounds ih =>
    have first := gives_nextShortcut limit left
    cases found : shortcut? cs with
    | none =>
      rw [found] at first
      rw [readShortcuts_of_none found]
      exact first.bind (gives_pure _ _ _)
    | some result =>
      obtain ⟨attr, rest⟩ := result
      rw [found] at first
      obtain ⟨inside, shorter⟩ := shortcut?_rest found
      rw [readShortcuts_of_some found]
      exact first.bind ((ih (inside.trans left) (by omega)).bind (gives_pure _ _ _))

theorem size_of_closingBracket {c close : Char} (h : closingBracket c = some close) :
    c.utf8Size = 1 ∧ close.utf8Size = 1 := by
  unfold closingBracket at h
  split at h <;> cases h <;> decide

theorem gives_bracket (left : cs <:+ line) :
    Gives limit bracket (.before line cs)
      (.ok ((openList cs).1, .before line (openList cs).2)) := by
  refine (gives_ahead _ left).bind ?_
  cases cs with
  | nil => exact gives_pure _ _ _
  | cons c inner =>
    rw [List.head?_cons, Option.bind_some, openList]
    cases opens : closingBracket c with
    | none => exact gives_pure _ _ _
    | some close =>
      have one := (size_of_closingBracket opens).1.symm
      exact (gives_advance_char _ one left).bind (gives_pure _ _ _)

theorem gives_bareValue (s : State) (close : Option Char) (left : cs <:+ line)
    (bare : ∀ c ∈ cs.head?, ¬ (c = '"' ∨ c = '\'')) :
    Gives limit (bareValue s close cs) (.before line cs) (s.located line (readValue close cs)) := by
  have whole := List.takeWhile_append_dropWhile (p := (!endsValue close ·)) (l := cs)
  rw [readValue_bare bare, bareValue]
  generalize cs.takeWhile (!endsValue close ·) = value at whole
  generalize cs.dropWhile (!endsValue close ·) = rest at whole
  subst whole
  cases value with
  | nil => exact gives_refuse _ left _ _ _
  | cons c value =>
    have size : byteSize (c :: value) ≠ 0 := (byteSize_pos (List.cons_ne_nil c value)).ne'
    rw [if_neg size]
    exact (gives_advance _ _ _ left).bind ((gives_cut _ rfl _).bind (gives_pure _ _ _))

theorem gives_value (s : State) (close : Option Char) (left : cs <:+ line) :
    Gives limit (value s close) (.before line cs) (s.located line (readValue close cs)) := by
  refine (gives_ahead _ left).bind ?_
  cases cs with
  | nil => exact gives_bareValue _ s close left (by simp)
  | cons c rest =>
    by_cases mark : c = '"' ∨ c = '\''
    · have one : c.utf8Size = 1 ∧ c ≠ '#' := by
        obtain rfl | rfl := mark
        · decide
        · decide
      have opening : c :: rest = [c] ++ rest := rfl
      have first := gives_cut limit opening (.before line (c :: rest))
      rw [byteSize_cons, byteSize_nil, one.1] at first
      simp only [if_pos mark, readValue_quoted mark, quotedValue_eq one.2]
      refine first.bind ?_
      cases quoted : readQuoted c 0 rest with
      | none =>
        have inside : c :: rest ++ [] <:+ line := by rwa [List.append_nil]
        have skipped := gives_advance limit (c :: rest) [] inside
        rw [List.append_nil] at skipped
        exact skipped.bind (gives_refuse _ List.nil_suffix _ _ _)
      | some result =>
        obtain ⟨text, behind⟩ := result
        obtain rfl := eq_append_of_readQuoted quoted
        have passed : c :: (text ++ c :: behind) = c :: (text ++ [c]) ++ behind := by simp
        have size : 1 + (0 + byteSize text + c.utf8Size) = byteSize (c :: (text ++ [c])) := by
          simp only [byteSize_cons, byteSize_append, byteSize_nil, one.1]
          omega
        rw [passed] at left ⊢
        simp only [Option.map_some, size]
        exact (gives_advance _ _ _ left).bind (gives_pure _ _ _)
    · simp only [if_neg mark]
      exact gives_bareValue _ s close left (by simpa using mark)

theorem gives_nextAttribute_none (s : State) (close : Option Char) (left : cs <:+ line)
    (nameless : readName cs = none) :
    Gives limit (nextAttribute s close) (.before line cs) (.ok (none, .before line cs)) := by
  refine (gives_ahead _ left).bind ?_
  rw [nameless]
  exact gives_pure _ _ _

/-- A name alone. -/
theorem gives_nextAttribute_flag (s : State) (close : Option Char) {name : List Char}
    (left : cs <:+ line) (named : readName cs = some (name, rest))
    (bare : ∀ after, rest ≠ '=' :: after) :
    Gives limit (nextAttribute s close) (.before line cs)
      (.ok (some (.flag (String.ofList name)), .before line rest)) := by
  have behind := (readName_suffix named).trans (trimLeft_suffix cs)
  refine (gives_ahead _ left).bind ?_
  rw [named]
  split
  · next found => cases found
  · next found =>
    cases found
    exact absurd rfl (bare _)
  · next found =>
    cases found
    exact (gives_advance_to _ left behind).bind (gives_pure _ _ _)

/-- A name with a value, or with something that is none. -/
theorem gives_nextAttribute_valued (s : State) (close : Option Char) {name after : List Char}
    (left : cs <:+ line) (named : readName cs = some (name, '=' :: after)) :
    Gives limit (nextAttribute s close) (.before line cs)
      (s.located line ((readValue close (trimLeft after)).map fun (value, rest) =>
        (some (.valued (String.ofList name) (.interpolate (String.ofList value))), rest))) := by
  have behind : trimLeft after <:+ cs := (trimLeft_suffix after).trans
    ((List.suffix_cons '=' after).trans ((readName_suffix named).trans (trimLeft_suffix cs)))
  have given := gives_value limit s close (behind.trans left)
  refine (gives_ahead _ left).bind ?_
  rw [named]
  refine (gives_advance_to _ left behind).bind ?_
  cases read : readValue close (trimLeft after) with
  | error snag =>
    rw [read] at given
    exact given.bind_error
  | ok result =>
    rw [read] at given
    exact given.bind (gives_pure _ _ _)

/-- Some rounds find the attributes that a text starts with, and stop in front of a text that starts
with none; or they find the first snag among them. -/
def Finds (s : State) (close : Option Char) (line : Line) (rounds : Nat) (cs : List Char) : Prop :=
  (∃ attrs stop, stop <:+ line ∧ readAttributes close cs = .ok (attrs, trimLeft stop) ∧
    Gives limit (whileFound (nextAttribute s close) rounds) (.before line cs)
      (.ok (attrs, .before line stop))) ∨
  ∃ snag, readAttributes close cs = .error snag ∧
    Gives limit (whileFound (nextAttribute s close) rounds) (.before line cs)
      (.error (s.haltAt line snag))

variable {limit} in
theorem Finds.cons {s : State} {close : Option Char} {rounds : Nat} {attr : Attr}
    (first : Gives limit (nextAttribute s close) (.before line cs)
      (.ok (some attr, .before line rest)))
    (later : Finds limit s close line rounds rest)
    (reads : readAttributes close cs = do
      let (attrs, rest) ← readAttributes close rest
      return (attr :: attrs, rest)) : Finds limit s close line (rounds + 1) cs := by
  obtain ⟨attrs, stop, ended, onward, given⟩ | ⟨snag, onward, given⟩ := later
  · rw [onward] at reads
    exact .inl ⟨_, stop, ended, reads, first.bind (given.bind (gives_pure _ _ _))⟩
  · rw [onward] at reads
    exact .inr ⟨snag, reads, first.bind given.bind_error⟩

/-- The attributes of a line are found one by one. -/
theorem finds (s : State) (close : Option Char) (left : cs <:+ line) {rounds : Nat}
    (enough : cs.length < rounds) : Finds limit s close line rounds cs := by
  induction rounds generalizing cs with
  | zero => exact absurd enough (Nat.not_lt_zero _)
  | succ rounds ih =>
    have reads := readAttributes_eq close cs
    split at reads
    · next nameless =>
      have first := gives_nextAttribute_none limit s close left nameless
      exact .inl ⟨[], cs, left, reads, first.bind (gives_pure _ _ _)⟩
    · next name after named =>
      have first := gives_nextAttribute_valued limit s close left named
      split at reads
      · next snag read =>
        rw [read] at first
        exact .inr ⟨snag, reads, first.bind_error⟩
      · next value tail read =>
        rw [read] at first
        have short : tail.length < cs.length := by
          have := readName_length named
          have := readValue_length read
          have := trimLeft_length_le after
          simp only [List.length_cons] at *
          omega
        have inside : tail <:+ line := (readValue_suffix read).trans ((trimLeft_suffix after).trans
          ((List.suffix_cons '=' after).trans ((readName_suffix named).trans
            ((trimLeft_suffix cs).trans left))))
        exact .cons first (ih inside (by omega)) reads
    · next name tail bare named =>
      have first := gives_nextAttribute_flag limit s close left named bare
      have short := readName_length named
      have inside := (readName_suffix named).trans ((trimLeft_suffix cs).trans left)
      exact .cons first (ih inside (by omega)) reads

theorem gives_attributes (s : State) (close : Option Char) (left : cs <:+ line) {rounds : Nat}
    (enough : cs.length < rounds) :
    Gives limit (attributes s close rounds) (.before line cs)
      (s.located line (readAttributes close cs)) := by
  obtain ⟨attrs, stop, ended, reads, given⟩ | ⟨snag, reads, given⟩ :=
    finds limit s close left enough
  · rw [reads]
    exact given.bind ((gives_skipWhite _ ended).bind (gives_pure _ _ _))
  · rw [reads]
    exact given.bind_error

/-- The bracket of a list that goes on with the next line, and the cursor in front of what a list
that ends leaves of the line. -/
def endOf (line : Line) : ListEnd → Option Char × Cursor
  | .closed _ rest => (none, .before line rest)
  | .continued bracket => (some bracket, .before line [])

theorem gives_skipChar {c : Char} (one : c.utf8Size = 1) (left : cs <:+ line) :
    Gives limit (skipChar c) (.before line cs) (.ok ((), .before line (dropFront c cs))) := by
  refine (gives_ahead _ left).bind ?_
  cases cs with
  | nil => exact gives_pure _ _ _
  | cons d rest =>
    rw [dropFront]
    by_cases same : d = c
    · subst same
      simp only [List.head?_cons, if_true]
      exact gives_advance_char _ one.symm left
    · simp only [List.head?_cons, Option.some.injEq, if_neg same]
      exact gives_pure _ _ _

theorem readListEnd_bare (unclosed : cs.head? ≠ some '>') :
    readListEnd none cs =
      if endsBare cs then .ok (.closed false cs) else .error ⟨.expectedAttribute, cs⟩ := by
  unfold endsBare
  split
  · rfl
  · rfl
  · rfl
  · unfold readListEnd
    split <;> simp_all

theorem gives_listEnd (s : State) {close : Option Char} (left : cs <:+ line)
    (one : ∀ bracket ∈ close, bracket.utf8Size = 1) :
    Gives limit (listEnd s close) (.before line cs) (match readListEnd close cs with
      | .error snag => .error (s.haltAt line snag)
      | .ok ended => .ok (endOf line ended)) := by
  refine (gives_ahead _ left).bind ?_
  cases close with
  | some bracket =>
    cases cs with
    | nil => exact gives_pure _ _ _
    | cons c rest =>
      rw [readListEnd_bracket]
      by_cases same : c = bracket
      · subst same
        have first := gives_advance_char limit (one c rfl).symm left
        have inside := (List.suffix_cons c rest).trans left
        simp only [List.head?_cons, if_true]
        exact first.bind ((gives_skipChar _ rfl inside).bind (gives_pure _ _ _))
      · simp only [List.head?_cons, Option.some.injEq, if_neg same]
        exact gives_refuse _ left _ _ _
  | none =>
    by_cases angle : cs.head? = some '>'
    · obtain ⟨rest, rfl⟩ := List.head?_eq_some_iff.1 angle
      exact (gives_advance_char _ rfl left).bind (gives_pure _ _ _)
    · simp only [if_neg angle, readListEnd_bare angle]
      by_cases ended : endsBare cs = true
      · rw [if_pos ended, if_pos ended]
        exact gives_pure _ _ _
      · rw [if_neg ended, if_neg ended]
        exact gives_refuse _ left _ _ _

end Scan

end TemplateMarkup
