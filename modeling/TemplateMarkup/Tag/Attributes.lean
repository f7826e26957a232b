import TemplateMarkup.Line.Head
import TemplateMarkup.Tag.Quoted

/-! The shortcuts and attributes of a tag. -/
namespace TemplateMarkup

/-- A fault within a line: its cause, and what is left of the line where it stands. -/
structure Snag where
  cause : Cause
  rest : List Char
  deriving DecidableEq

def isShortcutHead (c : Char) : Bool := isWord c || (0xC0 ≤ c.toNat && c.toNat ≤ 0xFFFF)

def isShortcutTail (c : Char) : Bool := isShortcutHead c || c = ':' || c = '-'

/-- The shortcuts in front of the text, each an id after a hash sign or a class after a dot. -/
def readShortcuts (cs : List Char) : List Attr × List Char :=
  match _h : trimLeft cs with
  | mark :: c :: rest =>
    if (mark = '#' || mark = '.') && isShortcutHead c then
      let value := String.ofList (c :: rest.takeWhile isShortcutTail)
      let (attrs, rest) := readShortcuts (rest.dropWhile isShortcutTail)
      (.shortcut (if mark = '#' then "id" else "class") value :: attrs, rest)
    else ([], cs)
  | _ => ([], cs)
termination_by cs.length
decreasing_by
  have h1 := trimLeft_length_le cs
  have h2 := (List.dropWhile_suffix isShortcutTail (l := rest)).length_le
  simp_all only [List.length_cons]
  omega

/-- The bracket that closes an attribute list, by the one that opens it. -/
def closingBracket : Char → Option Char
  | '(' => some ')'
  | '[' => some ']'
  | '{' => some '}'
  | _ => none

/-- Where a value without quotes ends, in a list that ends with `close` or else with the tag. -/
def endsValue (close : Option Char) (c : Char) : Bool :=
  isWhite c ||
    match close with
    | some bracket => c = bracket
    | none => c = '>'

/-- Reads the value after an equals sign. -/
def readValue (close : Option Char) (cs : List Char) : Except Snag (List Char × List Char) :=
  let bare :=
    match cs.takeWhile (!endsValue close ·) with
    | [] => .error ⟨.emptyAttribute, cs⟩
    | value => .ok (value, cs.dropWhile (!endsValue close ·))
  match cs with
  | c :: rest =>
    if c = '"' || c = '\'' then
      match readQuoted c 0 rest with
      | some result => .ok result
      | none => .error ⟨.expectedQuote c, []⟩
    else bare
  | [] => bare

/-- Reads an attribute name and the white space around it. -/
def readName (cs : List Char) : Option (List Char × List Char) :=
  match trimLeft cs with
  | c :: rest =>
    if isWord c then some (c :: rest.takeWhile isNameTail, trimLeft (rest.dropWhile isNameTail))
    else none
  | [] => none

theorem readName_length {cs name rest : List Char} (h : readName cs = some (name, rest)) :
    rest.length < cs.length := by
  unfold readName at h
  split at h
  · next c tail hc =>
    split at h
    · simp only [Option.some.injEq, Prod.mk.injEq] at h
      have h1 := trimLeft_length_le cs
      have h2 := trimLeft_length_le (tail.dropWhile isNameTail)
      have h3 := (List.dropWhile_suffix isNameTail (l := tail)).length_le
      rw [h.2] at h2
      rw [hc, List.length_cons] at h1
      omega
    · simp at h
  · simp at h

theorem readValue_length {close : Option Char} {cs value rest : List Char}
    (h : readValue close cs = .ok (value, rest)) : rest.length ≤ cs.length := by
  have hbare := (List.dropWhile_suffix (!endsValue close ·) (l := cs)).length_le
  unfold readValue at h
  simp only at h
  split at h
  · next c tail =>
    split at h
    · split at h
      · next result hq =>
        obtain ⟨v, r⟩ := result
        cases h
        have := congrArg List.length (eq_append_of_readQuoted hq)
        simp only [List.length_append, List.length_cons] at this ⊢
        omega
      · cases h
    · split at h
      · cases h
      · cases h; exact hbare
  · split at h
    · cases h
    · cases h; exact hbare

/-- Reads attributes as long as names follow. A name without an equals sign is a flag. -/
def readAttributes (close : Option Char) (cs : List Char) : Except Snag (List Attr × List Char) :=
  match _hn : readName cs with
  | none => .ok ([], trimLeft cs)
  | some (name, '=' :: after) =>
    match _hv : readValue close (trimLeft after) with
    | .error snag => .error snag
    | .ok (value, tail) => do
      let (attrs, rest) ← readAttributes close tail
      return (.valued (String.ofList name) (.interpolate (String.ofList value)) :: attrs, rest)
  | some (name, rest) => do
    let (attrs, rest) ← readAttributes close rest
    return (.flag (String.ofList name) :: attrs, rest)
termination_by cs.length
decreasing_by
  · have h1 := readName_length _hn
    have h2 := readValue_length _hv
    have h3 := trimLeft_length_le after
    simp only [List.length_cons] at h1
    omega
  · exact readName_length _hn

/-- What follows the attributes of one line. -/
inductive ListEnd where
  /-- The list is over; `angle` says whether an angle bracket closed it. -/
  | closed (angle : Bool) (rest : List Char)
  /-- The list goes on with the next line, up to a bracket. -/
  | continued (bracket : Char)

/-- Reads the end of an attribute list. One in brackets may go on; any other ends with the line,
with an angle bracket, or in front of an output or self-closing mark. -/
def readListEnd (close : Option Char) (cs : List Char) : Except Snag ListEnd :=
  match close, cs with
  | some bracket, [] => .ok (.continued bracket)
  | some bracket, c :: rest =>
    if c = bracket then
      match rest with
      | '>' :: rest => .ok (.closed true rest)
      | _ => .ok (.closed false rest)
    else .error ⟨.expectedAttribute, cs⟩
  | none, '>' :: rest => .ok (.closed true rest)
  | none, [] => .ok (.closed false cs)
  | none, '=' :: _ => .ok (.closed false cs)
  | none, '/' :: '>' :: _ => .ok (.closed false cs)
  | none, _ =>
    if trimRight cs = ['/'] then .ok (.closed false cs) else .error ⟨.expectedAttribute, cs⟩

end TemplateMarkup
