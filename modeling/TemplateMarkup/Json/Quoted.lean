import TemplateMarkup.Json.Basic

/-! Reading JSON texts: what may be wrong with one, its white space and its strings. -/
namespace TemplateMarkup

/-- What is wrong with a JSON text, told at the first place that shows it. -/
inductive Category where
  /-- The text ends too early. -/
  | ended
  | malformed
  /-- The text is JSON of another type or range than was asked for. -/
  | mistyped
  deriving DecidableEq

/-- How closely a value is looked at. A value that nobody asked for may hold surrogates that stand
alone and numbers of any size. -/
inductive Care where
  | strict | lenient
  deriving DecidableEq

namespace Json

def isSpace (c : Char) : Bool := c = ' ' || c = '\n' || c = '\t' || c = '\r'

def skipSpace (cs : List Char) : List Char := cs.dropWhile isSpace

theorem skipSpace_length_le (cs : List Char) : (skipSpace cs).length ≤ cs.length :=
  (List.dropWhile_suffix isSpace).length_le

theorem length_lt_of_skipSpace {cs rest : List Char} {c : Char} (h : skipSpace cs = c :: rest) :
    rest.length < cs.length := by
  have := skipSpace_length_le cs
  rwa [h, List.length_cons] at this

def hexValue? (c : Char) : Option Nat :=
  if c.isDigit then some (c.toNat - '0'.toNat)
  else if 'a' ≤ c && c ≤ 'f' then some (c.toNat - 'a'.toNat + 10)
  else if 'A' ≤ c && c ≤ 'F' then some (c.toNat - 'A'.toNat + 10)
  else none

/-- Reads four hexadecimal digits. The text ends too early if fewer than four bytes are left. -/
def readHex (cs : List Char) : Except Category (Nat × List Char) :=
  match (cs.take 4).mapM hexValue? with
  | some [a, b, c, d] => .ok (((a * 16 + b) * 16 + c) * 16 + d, cs.drop 4)
  | _ => .error (if (cs.take 4).foldl (fun n c => n + c.utf8Size) 0 < 4 then .ended else .malformed)

/-- The character that two surrogates stand for. -/
def joinSurrogates (lead trail : Nat) : Char :=
  Char.ofNat (0x10000 + (lead - 0xD800) * 0x400 + (trail - 0xDC00))

/-- Reads the second of two surrogates and gives the character they stand for. -/
def readTrailing (lead : Nat) : List Char → Except Category (Char × List Char)
  | [] => .error .ended
  | ['\\'] => .error .ended
  | '\\' :: 'u' :: cs => do
    let (n, rest) ← readHex cs
    if 0xDC00 ≤ n && n ≤ 0xDFFF then
      return (joinSurrogates lead n, rest)
    else throw .malformed
  | _ => .error .malformed

/-- The character that an escape of one letter stands for. -/
def shortEscape? (c : Char) : Option Char :=
  if c = '"' || c = '\\' || c = '/' then some c
  else if c = 'b' then some '\x08'
  else if c = 'f' then some '\x0c'
  else if c = 'n' then some '\n'
  else if c = 'r' then some '\r'
  else if c = 't' then some '\t'
  else none

/-- Reads the part of an escape that follows the backslash. -/
def readEscape (care : Care) : List Char → Except Category (Char × List Char)
  | [] => .error .ended
  | c :: cs =>
    if c = 'u' then do
      let (n, rest) ← readHex cs
      if care = .strict && 0xDC00 ≤ n && n ≤ 0xDFFF then throw .malformed
      else if care = .strict && 0xD800 ≤ n && n ≤ 0xDBFF then readTrailing n rest
      else return (Char.ofNat n, rest)
    else
      match shortEscape? c with
      | some d => .ok (d, cs)
      | none => .error .malformed

theorem readHex_length {cs rest : List Char} {n : Nat} (h : readHex cs = .ok (n, rest)) :
    rest.length ≤ cs.length := by
  unfold readHex at h
  split at h
  · obtain ⟨-, rfl⟩ : _ ∧ cs.drop 4 = rest := by simpa using h
    exact (List.drop_suffix 4 cs).length_le
  · cases h

theorem readTrailing_length {lead : Nat} {cs rest : List Char} {c : Char}
    (h : readTrailing lead cs = .ok (c, rest)) : rest.length ≤ cs.length := by
  unfold readTrailing at h
  split at h
  · cases h
  · cases h
  · next cs =>
    cases hx : readHex cs with
    | error e => simp [hx, bind, Except.bind] at h
    | ok r =>
      have : r.2.length ≤ cs.length := readHex_length hx
      simp only [hx, bind, Except.bind] at h
      split at h
      · simp only [pure, Except.pure, Except.ok.injEq, Prod.mk.injEq] at h
        obtain ⟨-, rfl⟩ := h
        simp only [List.length_cons]; omega
      · cases h
  · cases h

theorem readEscape_length {care : Care} {cs rest : List Char} {c : Char}
    (h : readEscape care cs = .ok (c, rest)) : rest.length < cs.length := by
  unfold readEscape at h
  split at h
  · cases h
  · next d cs =>
    split at h
    · cases hx : readHex cs with
      | error e => simp [hx, bind, Except.bind] at h
      | ok r =>
        have hr : r.2.length ≤ cs.length := readHex_length hx
        simp only [hx, bind, Except.bind] at h
        split at h
        · cases h
        · split at h
          · have := readTrailing_length h
            simp only [List.length_cons]; omega
          · simp only [pure, Except.pure, Except.ok.injEq, Prod.mk.injEq] at h
            obtain ⟨-, rfl⟩ := h
            simp only [List.length_cons]; omega
    · split at h
      · cases h; simp
      · cases h

/-- Reads a string up to its closing quote; what was read is held in reverse. -/
def readString (care : Care) (before : List Char) (cs : List Char) :
    Except Category (String × List Char) :=
  match cs with
  | [] => .error .ended
  | c :: cs =>
    if c = '"' then .ok (String.ofList before.reverse, cs)
    else if c = '\\' then
      match _h : readEscape care cs with
      | .error category => .error category
      | .ok (d, rest) => readString care (d :: before) rest
    else if c.toNat < 32 then .error .malformed
    else readString care (c :: before) cs
termination_by cs.length
decreasing_by
  · have := readEscape_length _h
    simp only [List.length_cons]; omega
  · simp

theorem readString_length {care : Care} {before cs rest : List Char} {s : String}
    (h : readString care before cs = .ok (s, rest)) : rest.length < cs.length := by
  fun_induction readString care before cs with
  | case1 => cases h
  | case2 => cases h; simp
  | case3 => cases h
  | case4 before cs d r hx _ ih =>
    have := readEscape_length hx
    have := ih h
    simp only [List.length_cons]; omega
  | case5 => cases h
  | case6 before c cs _ _ _ ih =>
    have := ih h
    simp only [List.length_cons]; omega

end Json

end TemplateMarkup
