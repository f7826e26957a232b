import TemplateMarkup.Text.White

/-! Quoted attribute values. A splice may hold the quote itself, and braces in pairs. -/
namespace TemplateMarkup

/-- Reads up to the closing quote, which is dropped; `depth` counts the open braces of a splice.
There is no value if the quote never comes. -/
def readQuoted (quote : Char) : (depth : Nat) → List Char → Option (List Char × List Char)
  | _, [] => none
  | 0, '#' :: '{' :: cs => (readQuoted quote 1 cs).map fun (value, rest) => ('#' :: '{' :: value, rest)
  | 0, c :: cs =>
    if c = quote then some ([], cs)
    else (readQuoted quote 0 cs).map fun (value, rest) => (c :: value, rest)
  | depth + 1, c :: cs =>
    (readQuoted quote (if c = '{' then depth + 2 else if c = '}' then depth else depth + 1) cs).map
      fun (value, rest) => (c :: value, rest)

/-- Nothing is lost but the quote. -/
theorem eq_append_of_readQuoted {quote : Char} {depth : Nat} {cs value rest : List Char}
    (h : readQuoted quote depth cs = some (value, rest)) : cs = value ++ quote :: rest := by
  fun_induction readQuoted quote depth cs generalizing value rest with
  | case1 => simp at h
  | case2 cs ih =>
    obtain ⟨⟨v, r⟩, hv, he⟩ := Option.map_eq_some_iff.1 h
    obtain ⟨rfl, rfl⟩ : '#' :: '{' :: v = value ∧ r = rest := by simpa using he
    simp [ih hv]
  | case3 cs => simp_all
  | case4 c cs _ _ ih =>
    obtain ⟨⟨v, r⟩, hv, he⟩ := Option.map_eq_some_iff.1 h
    obtain ⟨rfl, rfl⟩ : c :: v = value ∧ r = rest := by simpa using he
    simp [ih hv]
  | case5 _ c cs ih =>
    obtain ⟨⟨v, r⟩, hv, he⟩ := Option.map_eq_some_iff.1 h
    obtain ⟨rfl, rfl⟩ : c :: v = value ∧ r = rest := by simpa using he
    simp [ih hv]

example : readQuoted '"' 0 "hi\" rest".toList = some ("hi".toList, " rest".toList) := by decide
example : readQuoted '"' 0 "a #\x7bb[\"c\"]\x7d d\" x".toList =
    some ("a #\x7bb[\"c\"]\x7d d".toList, " x".toList) := by decide
example : readQuoted '\'' 0 "open #\x7b'".toList = none := by decide

end TemplateMarkup
