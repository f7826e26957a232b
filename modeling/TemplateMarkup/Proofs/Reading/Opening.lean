import TemplateMarkup.Proofs.Layout.Lines

/-! How a reading opens with a line that starts with an angle bracket at the left edge, and how a
text is read whose lines are known. Such a first line is a doctype header only if its name is the
keyword. -/
namespace TemplateMarkup

theorem isWord_of_toLower {c : Char} (h : c.toLower.isAlphanum = true) : isWord c = true := by
  apply isWord_of_isAlphanum
  unfold Char.toLower at h
  split at h
  · next upper =>
    have letter : c.isUpper = true := decide_eq_true upper
    change ((c.isUpper || c.isLower) || c.isDigit) = true
    rw [letter, Bool.true_or, Bool.true_or]
  · exact h

/-- White space behind a keyword is white space behind a name only if the name is the keyword. -/
theorem keyword_eq_of_append {cs rest keyword more : List Char} {c : Char}
    (letters : ∀ d ∈ keyword, isWord d = true) (solid : ∀ d ∈ cs, isWhite d = false)
    (stop : Stops isNameTail rest) (white : isWhite c = true)
    (same : cs ++ rest = keyword ++ c :: more) : cs = keyword ∧ rest = c :: more := by
  obtain ⟨onward, rfl, behind⟩ | ⟨onward, rfl, behind⟩ := List.append_eq_append_iff.1 same
  · cases onward with
    | nil => exact ⟨(List.append_nil cs).symm, behind⟩
    | cons d onward =>
      -- The rest of the keyword would go on with the name.
      subst behind
      have word := isNameTail_of_isWord (letters d (by simp))
      rw [stops_cons.1 stop] at word
      cases word
  · cases onward with
    | nil => exact ⟨List.append_nil keyword, behind.symm⟩
    | cons d onward =>
      obtain ⟨rfl, -⟩ := List.cons.inj behind
      rw [solid c (by simp)] at white
      cases white

namespace Layout

/-- The keyword that starts a doctype header, in any case of its letters. -/
def Name.IsDoctype (name : Name) : Prop :=
  name.chars.map Char.toLower = ['d', 'o', 'c', 't', 'y', 'p', 'e']

instance (name : Name) : Decidable name.IsDoctype :=
  inferInstanceAs (Decidable (name.chars.map Char.toLower = _))

/-- A tag's line is no doctype header if its name is another one, or no white space follows it. -/
theorem Name.noHeader (name : Name) {rest : List Char} (stop : Stops isNameTail rest)
    (other : name.IsDoctype → Stops isWhite rest) :
    doctypeHeader? ('<' :: (name.chars ++ rest)) = none := by
  have plain : dropDoctype (name.chars ++ rest) = none := by
    rw [dropDoctype_eq_none_iff]
    rintro value ⟨keyword, c, same, lower, white⟩
    have letters : ∀ d ∈ keyword, isWord d = true := by
      intro d mem
      have letter : d.toLower ∈ ['d', 'o', 'c', 't', 'y', 'p', 'e'] :=
        lower ▸ List.mem_map_of_mem mem
      exact isWord_of_toLower (List.all_eq_true.1 (by decide) _ letter)
    obtain ⟨rfl, rfl⟩ := keyword_eq_of_append letters name.not_white stop white same
    rw [stops_cons.1 (other lower)] at white
    cases white
  rw [doctypeHeader?, plain]

end Layout

namespace State

/-- The state that takes the first line, which nothing stands before. -/
def opening (line : Line) : State :=
  { number := 1, builder := ({} : Builder).record (.dispatched 1 0 line) }

variable (settings : Settings)

theorem feed_angle {cs : List Char} (noHeader : doctypeHeader? ('<' :: cs) = none) :
    ({} : State).feed settings ('<' :: cs) =
      takeHead settings (opening ('<' :: cs)) ('<' :: cs) (Head.ofAngle cs) :=
  (feed_eq_dispatch rfl rfl noHeader).trans (dispatch_fit rfl rfl)

/-- A template opens with a tag. -/
theorem feed_tag (name : Layout.Name) {rest : List Char} (stop : Stops isNameTail rest)
    (other : name.IsDoctype → Stops isWhite rest) :
    ({} : State).feed settings ('<' :: (name.chars ++ rest)) =
      (opening ('<' :: (name.chars ++ rest))).takeTag settings.tabSize name.text
        ('<' :: (name.chars ++ rest)) rest := by
  have read := Layout.read_name name stop
  rw [Head.read] at read
  rw [feed_angle settings (name.noHeader stop other), read]
  rfl

end State

variable {settings : Settings}

/-- The tree of a text, whether or not its last line is ended. A return at the end of any other line
is no part of it. -/
theorem parse_lines {lines : List Line} {b : Builder} (h : Printable lines)
    (read : readLines settings (lines.map (closeLine ·.reverse)) = .ok b) :
    parse settings (String.ofList (printLines lines)) = .ok b.tree ∧
    parse settings (String.ofList (List.intercalate ['\n'] lines)) = .ok b.tree := by
  constructor
  · apply parse_of_ok
    rw [String.toList_ofList, linesOf_printLines_close h.unbroken, read]
  · apply parse_of_ok
    rw [String.toList_ofList, linesOf_joined h, read]

end TemplateMarkup
