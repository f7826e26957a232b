import TemplateMarkup.Json.Numeral

/-! Reading JSON values. Containers that are not closed yet are held in a list of frames. -/
namespace TemplateMarkup
namespace Json

/-- Reads the letters that are left of `null`, `true` or `false`. -/
def readWord : List Char → List Char → Except Category (List Char)
  | [], cs => .ok cs
  | _ :: _, [] => .error .ended
  | k :: ks, c :: cs => if c = k then readWord ks cs else .error .malformed

/-- Reads a value that is no container, from its first character. -/
def readAtom (care : Care) : List Char → Except Category (Json × List Char)
  | [] => .error .ended
  | c :: cs =>
    if c = '"' then (readString care [] cs).map fun (s, rest) => (string s, rest)
    else if c = 'n' then (readWord ['u', 'l', 'l'] cs).map fun rest => (null, rest)
    else if c = 't' then (readWord ['r', 'u', 'e'] cs).map fun rest => (bool true, rest)
    else if c = 'f' then (readWord ['a', 'l', 's', 'e'] cs).map fun rest => (bool false, rest)
    else if c = '-' || c.isDigit then
      match readNumeral care (c :: cs) with
      | .error category => .error category
      | .ok (n, rest) =>
        if care = .strict && n.isHuge then .error .malformed else .ok (number n, rest)
    else .error .malformed

/-- Reads a member's name. -/
def readName (care : Care) (cs : List Char) : Except Category (String × List Char) :=
  match skipSpace cs with
  | [] => .error .ended
  | c :: cs => if c = '"' then readString care [] cs else .error .malformed

def readColon (cs : List Char) : Except Category (List Char) :=
  match skipSpace cs with
  | [] => .error .ended
  | c :: cs => if c = ':' then .ok cs else .error .malformed

theorem readWord_length {ks cs rest : List Char} (h : readWord ks cs = .ok rest) :
    rest.length ≤ cs.length := by
  fun_induction readWord ks cs with
  | case1 => cases h; exact Nat.le_refl _
  | case2 => cases h
  | case3 ks k cs ih => exact Nat.le_succ_of_le (ih h)
  | case4 => cases h

theorem readAtom_length {care : Care} {cs rest : List Char} {value : Json}
    (h : readAtom care cs = .ok (value, rest)) : rest.length < cs.length := by
  have word : ∀ (ks cs : List Char) (v : Json),
      (readWord ks cs).map (fun rest => (v, rest)) = .ok (value, rest) →
      rest.length ≤ cs.length := by
    intro ks cs v h
    cases hw : readWord ks cs with
    | error e => rw [hw] at h; cases h
    | ok r => rw [hw] at h; cases h; exact readWord_length hw
  unfold readAtom at h
  split at h
  · cases h
  · next c cs =>
    rw [List.length_cons, Nat.lt_succ_iff]
    split at h
    · cases hs : readString care [] cs with
      | error e => rw [hs] at h; cases h
      | ok r =>
        have : r.2.length < cs.length := readString_length hs
        rw [hs] at h; cases h; omega
    · split at h
      · exact word _ _ _ h
      · split at h
        · exact word _ _ _ h
        · split at h
          · exact word _ _ _ h
          · split at h
            · split at h
              · cases h
              · next n r hn =>
                have := readNumeral_length hn
                rw [List.length_cons] at this
                split at h
                · cases h
                · cases h; omega
            · cases h

theorem readName_length {care : Care} {cs rest : List Char} {name : String}
    (h : readName care cs = .ok (name, rest)) : rest.length < cs.length := by
  unfold readName at h
  split at h
  · cases h
  · next hs =>
    have := length_lt_of_skipSpace hs
    split at h
    · have := readString_length h; omega
    · cases h

theorem readColon_length {cs rest : List Char} (h : readColon cs = .ok rest) :
    rest.length < cs.length := by
  unfold readColon at h
  split at h
  · cases h
  · next hs =>
    have := length_lt_of_skipSpace hs
    split at h
    · cases h; omega
    · cases h

/-- A container that is not closed yet, with what it holds so far, newest first. -/
inductive Frame where
  | array (items : List Json)
  | object (members : List (String × Json)) (name : String)

mutual

/-- Reads a value inside some frames, and what follows it up to the end of the outermost one. -/
def readInside (care : Care) (frames : List Frame) (cs : List Char) :
    Except Category (Json × List Char) :=
  match _hs : skipSpace cs with
  | '[' :: inner =>
    match _hi : skipSpace inner with
    | ']' :: rest => resume care (array []) frames rest
    | rest => readInside care (.array [] :: frames) rest
  | '{' :: inner =>
    match _hi : skipSpace inner with
    | '}' :: rest => resume care (object []) frames rest
    | rest => readMember care [] frames rest
  | start =>
    match _ha : readAtom care start with
    | .error category => .error category
    | .ok (value, rest) => resume care value frames rest
termination_by cs.length
decreasing_by
  any_goals
    have h1 := length_lt_of_skipSpace _hs
    have h2 := skipSpace_length_le inner
    simp only [_hi, List.length_cons] at h2
    omega
  have h1 := skipSpace_length_le cs
  rw [_hs] at h1
  have h2 := readAtom_length _ha
  omega

def readMember (care : Care) (members : List (String × Json)) (frames : List Frame)
    (cs : List Char) : Except Category (Json × List Char) :=
  match _hn : readName care cs with
  | .error category => .error category
  | .ok (name, rest) =>
    match _hc : readColon rest with
    | .error category => .error category
    | .ok rest => readInside care (.object members name :: frames) rest
termination_by cs.length
decreasing_by
  have h1 := readName_length _hn
  have h2 := readColon_length _hc
  omega

/-- Goes on after a value: closes the innermost frame or reads its next item or member. -/
def resume (care : Care) (value : Json) (frames : List Frame) (cs : List Char) :
    Except Category (Json × List Char) :=
  match frames with
  | [] => .ok (value, cs)
  | .array items :: frames =>
    match _hs : skipSpace cs with
    | [] => .error .ended
    | ']' :: rest => resume care (array (value :: items).reverse) frames rest
    | ',' :: rest => readInside care (.array (value :: items) :: frames) rest
    | _ => .error .malformed
  | .object members name :: frames =>
    match _hs : skipSpace cs with
    | [] => .error .ended
    | '}' :: rest => resume care (object ((name, value) :: members).reverse) frames rest
    | ',' :: rest => readMember care ((name, value) :: members) frames rest
    | _ => .error .malformed
termination_by cs.length
decreasing_by all_goals exact length_lt_of_skipSpace _hs

end

mutual

theorem readInside_length {care : Care} {frames : List Frame} {cs rest : List Char} {value : Json}
    (h : readInside care frames cs = .ok (value, rest)) : rest.length < cs.length := by
  unfold readInside at h
  split at h
  · next inner hs =>
    have h1 := length_lt_of_skipSpace hs
    split at h
    · next hi =>
      have h2 := length_lt_of_skipSpace hi
      have := resume_length h
      omega
    · have h2 := skipSpace_length_le inner
      have := readInside_length h
      omega
  · next inner hs =>
    have h1 := length_lt_of_skipSpace hs
    split at h
    · next hi =>
      have h2 := length_lt_of_skipSpace hi
      have := resume_length h
      omega
    · have h2 := skipSpace_length_le inner
      have := readMember_length h
      omega
  · have h1 := skipSpace_length_le cs
    split at h
    · cases h
    · next ha =>
      have h2 := readAtom_length ha
      have := resume_length h
      omega
termination_by cs.length

theorem readMember_length {care : Care} {members : List (String × Json)} {frames : List Frame}
    {cs rest : List Char} {value : Json}
    (h : readMember care members frames cs = .ok (value, rest)) : rest.length < cs.length := by
  unfold readMember at h
  split at h
  · cases h
  · next hn =>
    have h1 := readName_length hn
    split at h
    · cases h
    · next hc =>
      have h2 := readColon_length hc
      have := readInside_length h
      omega
termination_by cs.length

theorem resume_length {care : Care} {value result : Json} {frames : List Frame}
    {cs rest : List Char} (h : resume care value frames cs = .ok (result, rest)) :
    rest.length ≤ cs.length := by
  unfold resume at h
  split at h
  · cases h; exact Nat.le_refl _
  · split at h
    · cases h
    · next hs =>
      have h1 := length_lt_of_skipSpace hs
      have := resume_length h
      omega
    · next hs =>
      have h1 := length_lt_of_skipSpace hs
      have := readInside_length h
      omega
    · cases h
  · split at h
    · cases h
    · next hs =>
      have h1 := length_lt_of_skipSpace hs
      have := resume_length h
      omega
    · next hs =>
      have h1 := length_lt_of_skipSpace hs
      have := readMember_length h
      omega
    · cases h
termination_by cs.length

end

/-- Reads a value at the front of a text. -/
def readValue (care : Care) (cs : List Char) : Except Category (Json × List Char) :=
  readInside care [] cs

theorem readValue_length {care : Care} {cs rest : List Char} {value : Json}
    (h : readValue care cs = .ok (value, rest)) : rest.length < cs.length :=
  readInside_length h

/-- Checks that a text is over. -/
def readEnd (cs : List Char) : Except Category Unit :=
  if (skipSpace cs).isEmpty then .ok () else .error .malformed

/-- The value that a whole text stands for. -/
def parse (text : String) : Except Category Json := do
  let (value, rest) ← readValue .strict text.toList
  readEnd rest
  return value

example : (parse "[1, null, \x7b\"a\": \"\\u00e9\"\x7d]").toOption.map pretty =
    some "[\n  1,\n  null,\n  \x7b\n    \"a\": \"é\"\n  \x7d\n]" := by decide +kernel
example : (parse "[1,]").toOption.isNone = true := by decide +kernel

end Json
end TemplateMarkup
