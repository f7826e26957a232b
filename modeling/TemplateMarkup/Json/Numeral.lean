import TemplateMarkup.Json.Quoted

/-! Reading JSON numbers, and what they are worth. -/
namespace TemplateMarkup

namespace Json

/-- Reads the digits of a fraction or exponent, of which there has to be one. -/
def readDigits (atEnd : Category) (cs : List Char) : Except Category (List Char × List Char) :=
  match cs.takeWhile Char.isDigit with
  | [] => .error (if cs.isEmpty then atEnd else .malformed)
  | digits => .ok (digits, cs.dropWhile Char.isDigit)

/-- Reads the part of a number before its point; a leading zero stands alone. -/
def readWhole (atEnd : Category) (cs : List Char) : Except Category (List Char × List Char) :=
  match readDigits atEnd cs with
  | .ok ('0' :: _ :: _, _) => .error .malformed
  | result => result

def readFraction (atEnd : Category) (cs : List Char) : Except Category (List Char × List Char) :=
  match cs with
  | '.' :: cs => readDigits atEnd cs
  | cs => .ok ([], cs)

def readExponent (atEnd : Category) (cs : List Char) : Except Category (List Char × List Char) :=
  match cs with
  | c :: cs =>
    if c = 'e' || c = 'E' then
      match cs with
      | sign :: digits =>
        if sign = '+' || sign = '-' then
          (readDigits atEnd digits).map fun (digits, rest) => (sign :: digits, rest)
        else readDigits atEnd cs
      | [] => readDigits atEnd cs
    else .ok ([], c :: cs)
  | [] => .ok ([], [])

def readSign : List Char → Bool × List Char
  | '-' :: cs => (true, cs)
  | cs => (false, cs)

/-- Reads a number. In one that nobody asked for, an end of the text is no other fault than a
wrong character. -/
def readNumeral (care : Care) (cs : List Char) : Except Category (Numeral × List Char) := do
  let atEnd : Category := if care = .strict then .ended else .malformed
  let (whole, rest) ← readWhole atEnd (readSign cs).2
  let (fraction, rest) ← readFraction atEnd rest
  let (exponent, rest) ← readExponent atEnd rest
  return (⟨(readSign cs).1, whole, fraction, exponent⟩, rest)

theorem readDigits_length {atEnd : Category} {cs digits rest : List Char}
    (h : readDigits atEnd cs = .ok (digits, rest)) : rest.length < cs.length := by
  unfold readDigits at h
  split at h
  · cases h
  · next hne =>
    cases h
    have := congrArg List.length (List.takeWhile_append_dropWhile (p := Char.isDigit) (l := cs))
    rw [List.length_append] at this
    have : (cs.takeWhile Char.isDigit).length ≠ 0 := by
      intro h0
      exact hne (List.length_eq_zero_iff.1 h0)
    omega

theorem readWhole_length {atEnd : Category} {cs digits rest : List Char}
    (h : readWhole atEnd cs = .ok (digits, rest)) : rest.length < cs.length := by
  unfold readWhole at h
  split at h
  · cases h
  · exact readDigits_length h

theorem readFraction_length {atEnd : Category} {cs digits rest : List Char}
    (h : readFraction atEnd cs = .ok (digits, rest)) : rest.length ≤ cs.length := by
  unfold readFraction at h
  split at h
  · have := readDigits_length h
    simp only [List.length_cons]; omega
  · cases h; simp

theorem readExponent_length {atEnd : Category} {cs digits rest : List Char}
    (h : readExponent atEnd cs = .ok (digits, rest)) : rest.length ≤ cs.length := by
  unfold readExponent at h
  split at h
  · split at h
    · split at h
      · next sign tail =>
        split at h
        · cases hd : readDigits atEnd tail with
          | error e => rw [hd] at h; cases h
          | ok r =>
            have : r.2.length < tail.length := readDigits_length hd
            rw [hd] at h; cases h
            simp only [List.length_cons]; omega
        · have := readDigits_length h
          simp only [List.length_cons] at this ⊢; omega
      · have := readDigits_length h
        simp only [List.length_cons] at this ⊢; omega
    · cases h; simp
  · cases h; simp

theorem readSign_length (cs : List Char) : (readSign cs).2.length ≤ cs.length := by
  unfold readSign
  split <;> simp

theorem readNumeral_length {care : Care} {cs rest : List Char} {n : Numeral}
    (h : readNumeral care cs = .ok (n, rest)) : rest.length < cs.length := by
  unfold readNumeral at h
  generalize (if care = Care.strict then Category.ended else Category.malformed) = atEnd at h
  cases hw : readWhole atEnd (readSign cs).2 with
  | error e => simp [hw, bind, Except.bind] at h
  | ok w =>
    cases hf : readFraction atEnd w.2 with
    | error e => simp [hw, hf, bind, Except.bind] at h
    | ok f =>
      cases he : readExponent atEnd f.2 with
      | error e => simp [hw, hf, he, bind, Except.bind] at h
      | ok x =>
        have hs := readSign_length cs
        have h1 : w.2.length < (readSign cs).2.length := readWhole_length hw
        have h2 : f.2.length ≤ w.2.length := readFraction_length hf
        have h3 : x.2.length ≤ f.2.length := readExponent_length he
        simp only [hw, hf, he, bind, Except.bind] at h
        cases h
        omega

end Json

/-- The number that some decimal digits stand for. -/
def digitsValue (digits : List Char) : Nat :=
  digits.foldl (fun n d => n * 10 + (d.toNat - '0'.toNat)) 0

/-- Takes digits into a significand as long as it stays below `2^64`; the others are left. -/
def fitDigits (significand : Nat) : List Char → Nat × List Char
  | [] => (significand, [])
  | d :: ds =>
    let next := significand * 10 + (d.toNat - '0'.toNat)
    if next < UInt64.size then fitDigits next ds else (significand, d :: ds)

/-- The nearest number of 53 binary digits followed by zeros; of two, the one whose last digit is
even. -/
def roundBinary (n : Nat) : Nat :=
  let unit := Nat.pow 2 (n.log2 - 52)
  let low := n / unit * unit
  if unit < 2 * (n - low) || (unit = 2 * (n - low) && n / unit % 2 = 1) then low + unit else low

namespace Numeral

/-- The value of a number without sign, fraction and exponent, if it is below `2^64`. -/
def natural? (n : Numeral) : Option Nat :=
  if !n.negative && n.fraction.isEmpty && n.exponent.isEmpty && digitsValue n.whole < UInt64.size then
    some (digitsValue n.whole)
  else none

def exponentValue (n : Numeral) : Int :=
  match n.exponent with
  | '-' :: digits => -(digitsValue digits : Int)
  | '+' :: digits => digitsValue digits
  | digits => digitsValue digits

/-- Whether a number overflows when it is read. The digits that stay below `2^64` and the power of
ten that scales them are each rounded to a double; the number overflows if their product rounds to
`2^1024` or more, or the power is beyond `10^308`. Next to the largest double this rounding twice
may take a number for finite that is not, or the other way round. -/
def isHuge (n : Numeral) : Bool :=
  let (significand, dropped) := fitDigits 0 n.whole
  let (significand, ignored) := fitDigits significand n.fraction
  let scale : Int := dropped.length - (n.fraction.length - ignored.length) + n.exponentValue
  significand ≠ 0 && 0 ≤ scale &&
    (308 < scale ||
      Nat.pow 2 1024 - Nat.pow 2 970 ≤
        roundBinary significand * roundBinary (Nat.pow 10 scale.toNat))

example : (Numeral.mk false ['1', '8'] [] []).natural? = some 18 := by decide
example : (Numeral.mk true ['0'] [] []).natural? = none := by decide
example : (Numeral.mk false ['1'] ['7'] ['3', '0', '8']).isHuge = false := by decide +kernel
example : (Numeral.mk false ['1'] ['8'] ['3', '0', '8']).isHuge = true := by decide +kernel
example : (Numeral.mk false ['0'] [] ['9', '9', '9']).isHuge = false := by decide +kernel

end Numeral

end TemplateMarkup
