import Mathlib.Data.List.DropRight
import TemplateMarkup.Proofs.Json.Grammar
import TemplateMarkup.Proofs.Text.Spans

/-! Reading strings, numbers and names: each is read just as it is written. A lenient reader may
see other characters in a string, but it passes over the same text. -/
namespace TemplateMarkup
namespace Json

variable {care : Care} {c : Char} {cs inner text rest : List Char} {n : Nat}

/-! Strings. -/

theorem HexDigit.value (h : HexDigit n c) : hexValue? c = some n := by
  have lower : ∀ n < 16, hexValue? (Nat.digitChar n) = some n := by decide
  have upper : ∀ n < 16, hexValue? (Nat.digitChar n).toUpper = some n := by decide
  cases h with
  | lower small => exact lower n small
  | upper small => exact upper n small

theorem HexDigits.readHex (h : HexDigits n cs) (rest : List Char) :
    readHex (cs ++ rest) = .ok (n, rest) := by
  cases h with
  | @mk a b c d first second third fourth =>
    have digits : [a, b, c, d].mapM hexValue? =
        some [n / 4096, n / 256 % 16, n / 16 % 16, n % 16] := by
      simp [first.value, second.value, third.value, fourth.value]
    have value : ((n / 4096 * 16 + n / 256 % 16) * 16 + n / 16 % 16) * 16 + n % 16 = n := by omega
    have front : ([a, b, c, d] ++ rest).take 4 = [a, b, c, d] := rfl
    rw [Json.readHex, front, digits]
    simp only [value]
    rfl

theorem not_surrogate (c : Char) : c.toNat < 0xD800 ∨ 0xDFFF < c.toNat := by
  have valid : c.toNat.isValidChar := c.valid
  rw [Nat.isValidChar] at valid
  omega

theorem readEscape_short {letter : Char} (known : (letter, c) ∈ shortEscapes) (care : Care)
    (rest : List Char) : readEscape care (letter :: rest) = .ok (c, rest) := by
  have all : ∀ entry ∈ shortEscapes, entry.1 ≠ 'u' ∧ shortEscape? entry.1 = some entry.2 := by decide
  obtain ⟨other, value⟩ := all _ known
  simp only at other value
  rw [readEscape, if_neg other, value]

theorem readEscape_code (digits : HexDigits c.toNat cs) (care : Care) (rest : List Char) :
    readEscape care ('u' :: (cs ++ rest)) = .ok (c, rest) := by
  have outside := not_surrogate c
  rw [readEscape, if_pos rfl, digits.readHex]
  simp only [bind, Except.bind]
  rw [if_neg, if_neg]
  · simp [Char.ofNat_toNat]
    rfl
  · simp; omega
  · simp; omega

theorem joinSurrogates_eq {lead trail : Nat}
    (value : c.toNat = 0x10000 + (lead - 0xD800) * 0x400 + (trail - 0xDC00)) :
    joinSurrogates lead trail = c := by
  rw [joinSurrogates, ← value, Char.ofNat_toNat]

/-- A strict reader joins two surrogates. -/
theorem readEscape_pair {lead trail : Nat} {front back : List Char}
    (first : HexDigits lead front) (second : HexDigits trail back)
    (leads : 0xD800 ≤ lead ∧ lead ≤ 0xDBFF) (trails : 0xDC00 ≤ trail ∧ trail ≤ 0xDFFF)
    (rest : List Char) :
    readEscape .strict ('u' :: (front ++ '\\' :: 'u' :: (back ++ rest))) =
      .ok (joinSurrogates lead trail, rest) := by
  have paired : readTrailing lead ('\\' :: 'u' :: (back ++ rest)) =
      .ok (joinSurrogates lead trail, rest) := by
    rw [readTrailing, second.readHex]
    simp only [bind, Except.bind]
    rw [if_pos (by simp [trails])]
    rfl
  rw [readEscape, if_pos rfl, first.readHex]
  simp only [bind, Except.bind]
  rw [if_neg, if_pos]
  · exact paired
  · simp [leads]
  · simp
    omega

/-- A lenient reader takes each surrogate for a character. -/
theorem readEscape_lenient {lead : Nat} {front : List Char} (first : HexDigits lead front)
    (rest : List Char) :
    readEscape .lenient ('u' :: (front ++ rest)) = .ok (Char.ofNat lead, rest) := by
  rw [readEscape, if_pos rfl, first.readHex]
  rfl

theorem readString_escape {d : Char} (h : readEscape care cs = .ok (d, rest)) (before : List Char) :
    readString care before ('\\' :: cs) = readString care (d :: before) rest := by
  rw [readString, if_neg (by decide), if_pos rfl]
  split
  · next hx =>
    rw [h] at hx
    cases hx
  · next hx =>
    rw [h] at hx
    cases hx
    rfl

theorem readString_plain (visible : 32 ≤ c.toNat) (quoteless : c ≠ '"') (slashless : c ≠ '\\')
    (before : List Char) :
    readString care before (c :: rest) = readString care (c :: before) rest := by
  rw [readString, if_neg quoteless, if_neg slashless, if_neg (by omega)]

/-- A written character adds one to the string, or for a lenient reader perhaps two others. -/
theorem CharText.read (h : CharText c text) (care : Care) :
    ∃ seen, (care = .strict → seen = [c]) ∧ ∀ before rest,
      readString care before (text ++ rest) = readString care (seen.reverse ++ before) rest := by
  cases h with
  | plain visible quoteless slashless =>
    refine ⟨[c], fun _ => rfl, fun before rest => ?_⟩
    exact readString_plain visible quoteless slashless before
  | short known =>
    refine ⟨[c], fun _ => rfl, fun before rest => ?_⟩
    exact readString_escape (readEscape_short known care rest) before
  | code digits =>
    refine ⟨[c], fun _ => rfl, fun before rest => ?_⟩
    exact readString_escape (readEscape_code digits care rest) before
  | @pair lead trail front back first second leads trails value =>
    cases care with
    | strict =>
      refine ⟨[c], fun _ => rfl, fun before rest => ?_⟩
      have joined := readEscape_pair first second leads trails rest
      rw [joinSurrogates_eq value] at joined
      simp only [List.cons_append, List.append_assoc]
      exact readString_escape joined before
    | lenient =>
      refine ⟨[Char.ofNat lead, Char.ofNat trail], nofun, fun before rest => ?_⟩
      simp only [List.cons_append, List.append_assoc]
      rw [readString_escape (readEscape_lenient first _),
        readString_escape (readEscape_lenient second _)]
      rfl

/-- A written string is read up to its closing quote. -/
theorem CharsText.read (h : CharsText cs text) (care : Care) :
    ∃ seen, (care = .strict → seen = cs) ∧ ∀ before rest,
      readString care before (text ++ '"' :: rest) =
        .ok (String.ofList (before.reverse ++ seen), rest) := by
  induction h with
  | nil =>
    refine ⟨[], fun _ => rfl, fun before rest => ?_⟩
    rw [List.nil_append, readString, if_pos rfl, List.append_nil]
  | @cons c cs here below first others ih =>
    obtain ⟨seen, same, read⟩ := first.read care
    obtain ⟨more, same', read'⟩ := ih
    refine ⟨seen ++ more, ?_, fun before rest => ?_⟩
    · intro strict
      rw [same strict, same' strict]
      rfl
    · rw [List.append_assoc, read, read', List.reverse_append, List.reverse_reverse,
        List.append_assoc]

/-! Numbers. -/

/-- The characters that a number may go on with. -/
def isNumeric (c : Char) : Bool := c.isDigit || c = '.' || c = 'e' || c = 'E'

theorem readDigits_digits (digits : Numeral.IsDigits cs) (stop : Stops Char.isDigit rest)
    (atEnd : Category) : readDigits atEnd (cs ++ rest) = .ok (cs, rest) := by
  rw [readDigits, takeWhile_append_of_stops digits.digits stop,
    dropWhile_append_of_stops digits.digits stop]
  split
  · exact absurd rfl digits.filled
  · rfl

theorem readWhole_digits (digits : Numeral.IsDigits cs)
    (zero : cs.head? = some '0' → cs = ['0']) (stop : Stops Char.isDigit rest)
    (atEnd : Category) : readWhole atEnd (cs ++ rest) = .ok (cs, rest) := by
  rw [readWhole, readDigits_digits digits stop]
  split
  · next read =>
    cases read
    cases zero rfl
  · rfl

theorem readFraction_digits (fraction : cs = [] ∨ Numeral.IsDigits cs)
    (stop : Stops (fun c => c.isDigit || c = '.') rest) (atEnd : Category) :
    readFraction atEnd ((if cs.isEmpty then [] else '.' :: cs) ++ rest) = .ok (cs, rest) := by
  obtain rfl | digits := fraction
  · rw [List.isEmpty_nil, if_pos rfl, List.nil_append]
    cases rest with
    | nil => rfl
    | cons c rest =>
      have other : c ≠ '.' := by
        have := stops_cons.1 stop
        simp_all
      rw [readFraction]
      simp [other]
  · have filled : cs.isEmpty = false := List.isEmpty_eq_false_iff.2 digits.filled
    rw [filled]
    exact readDigits_digits digits (stop.of_imp fun c hc => by simp [hc]) atEnd

theorem ne_sign_of_isDigit (digit : c.isDigit = true) : ¬ (c = '+' ∨ c = '-') := by
  rintro (rfl | rfl) <;> cases digit

theorem readExponent_digits {mark : Char} (marks : mark = 'e' ∨ mark = 'E')
    (exponent : cs = [] ∨ Numeral.IsExponent cs) (stop : Stops isNumeric rest)
    (atEnd : Category) :
    readExponent atEnd ((if cs.isEmpty then [] else mark :: cs) ++ rest) = .ok (cs, rest) := by
  have digitless : Stops Char.isDigit rest := stop.of_imp fun c hc => by simp [isNumeric, hc]
  obtain rfl | h := exponent
  · rw [List.isEmpty_nil, if_pos rfl, List.nil_append]
    cases rest with
    | nil => rfl
    | cons c rest =>
      have other : ¬ (decide (c = 'e') || decide (c = 'E')) = true := by
        have := stops_cons.1 stop
        simp_all [isNumeric]
      unfold readExponent
      exact if_neg other
  · have marked : (decide (mark = 'e') || decide (mark = 'E')) = true := by simpa using marks
    cases h with
    | plain digits =>
      obtain ⟨c, cs, rfl⟩ := List.exists_cons_of_ne_nil digits.filled
      have unsigned : ¬ (decide (c = '+') || decide (c = '-')) = true := by
        simpa using ne_sign_of_isDigit (digits.digits c (by simp))
      have read := readDigits_digits digits digitless atEnd
      rw [List.cons_append] at read
      simp only [List.isEmpty_cons, Bool.false_eq_true, if_false, List.cons_append]
      rw [readExponent, if_pos marked]
      simp only
      rw [if_neg unsigned, read]
    | @signed sign cs signs digits =>
      have signed : (decide (sign = '+') || decide (sign = '-')) = true := by simpa using signs
      simp only [List.isEmpty_cons, Bool.false_eq_true, if_false, List.cons_append]
      rw [readExponent, if_pos marked]
      simp only
      rw [if_pos signed, readDigits_digits digits digitless]
      rfl

theorem stops_exponent {mark : Char} (marks : mark = 'e' ∨ mark = 'E')
    (stop : Stops isNumeric rest) (exponent : List Char) :
    Stops (fun c => c.isDigit || c = '.')
      ((if exponent.isEmpty then [] else mark :: exponent) ++ rest) := by
  split
  · refine stop.of_imp fun c hc => ?_
    simp_all [isNumeric]
  · obtain rfl | rfl := marks <;> exact stops_cons.2 rfl

theorem stops_fraction (stop : Stops (fun c => c.isDigit || c = '.') rest)
    (fraction : List Char) :
    Stops Char.isDigit ((if fraction.isEmpty then [] else '.' :: fraction) ++ rest) := by
  split
  · exact stop.of_imp fun c hc => by simp [hc]
  · exact stops_cons.2 rfl

/-- A written number is read where no text follows that it could go on with. -/
theorem readNumeral_written {n : Numeral} {mark : Char} (proper : n.IsProper)
    (marks : mark = 'e' ∨ mark = 'E') (stop : Stops isNumeric rest) (care : Care) :
    readNumeral care (n.written mark ++ rest) = .ok (n, rest) := by
  obtain ⟨negative, whole, fraction, exponent⟩ := n
  have sign : readSign ((Numeral.written ⟨negative, whole, fraction, exponent⟩ mark) ++ rest) =
      (negative, whole ++ ((if fraction.isEmpty then [] else '.' :: fraction) ++
        ((if exponent.isEmpty then [] else mark :: exponent) ++ rest))) := by
    simp only [Numeral.written, List.append_assoc]
    cases negative with
    | true => rfl
    | false =>
      have digits := proper.whole
      obtain ⟨c, cs, rfl⟩ := List.exists_cons_of_ne_nil digits.filled
      have unsigned : c ≠ '-' := fun minus =>
        ne_sign_of_isDigit (digits.digits c List.mem_cons_self) (.inr minus)
      simp [readSign, unsigned]
  have exponentStop := stops_exponent marks stop exponent
  simp only [readNumeral, sign, bind, Except.bind]
  rw [readWhole_digits proper.whole proper.zero (stops_fraction exponentStop fraction)]
  simp only
  rw [readFraction_digits proper.fraction exponentStop]
  simp only
  rw [readExponent_digits marks proper.exponent stop]
  rfl

/-! Values that are no containers. -/

/-- Whether a strict reader takes the numbers of a value: it refuses those that overflow. -/
def Accepts (care : Care) (value : Json) : Prop :=
  care = .strict → ∀ n ∈ value.numerals, n.isHuge = false

/-- A number starts with a digit or a sign. -/
theorem written_cons {n : Numeral} (proper : n.IsProper) (mark : Char) :
    ∃ c cs, n.written mark = c :: cs ∧ (decide (c = '-') || c.isDigit) = true := by
  have digits := proper.whole
  obtain ⟨c, cs, whole⟩ := List.exists_cons_of_ne_nil digits.filled
  rw [Numeral.written, whole]
  split
  · exact ⟨'-', _, rfl, rfl⟩
  · exact ⟨c, _, rfl, by simp [digits.digits c (by simp [whole])]⟩

theorem readAtom_numeral {n : Numeral} (numeric : (decide (c = '-') || c.isDigit) = true)
    (read : readNumeral care (c :: cs) = .ok (n, rest)) :
    readAtom care (c :: cs) =
      if decide (care = .strict) && n.isHuge then .error .malformed else .ok (number n, rest) := by
  have other : ∀ d ∈ ['"', 'n', 't', 'f'], c ≠ d := by
    intro d mem same
    have none : ['"', 'n', 't', 'f'].all (fun d => !(decide (d = '-') || d.isDigit)) := by decide
    have plain := List.all_eq_true.1 none d mem
    rw [← same, numeric] at plain
    cases plain
  rw [readAtom, if_neg (other _ (by simp)), if_neg (other _ (by simp)), if_neg (other _ (by simp)),
    if_neg (other _ (by simp)), if_pos numeric, read]

/-- A strict reader refuses a number that overflows. -/
theorem readAtom_huge {n : Numeral} {mark : Char} (proper : n.IsProper)
    (marks : mark = 'e' ∨ mark = 'E') (huge : n.isHuge = true) (stop : Stops isNumeric rest) :
    readAtom .strict (n.written mark ++ rest) = .error .malformed := by
  have read := readNumeral_written proper marks stop .strict
  obtain ⟨c, cs, written, numeric⟩ := written_cons proper mark
  rw [written, List.cons_append] at read ⊢
  rw [readAtom_numeral numeric read, huge]
  rfl

/-- A value that is no container is read where no text follows that a number could go on with. -/
theorem AtomText.read {value : Json} (h : AtomText value text) (accepts : Accepts care value) :
    ∃ seen, (care = .strict → seen = value) ∧ ∀ rest, Stops isNumeric rest →
      readAtom care (text ++ rest) = .ok (seen, rest) := by
  cases h with
  | null => exact ⟨.null, fun _ => rfl, fun rest _ => by simp [readAtom, readWord]; rfl⟩
  | yes => exact ⟨.bool true, fun _ => rfl, fun rest _ => by simp [readAtom, readWord]; rfl⟩
  | no => exact ⟨.bool false, fun _ => rfl, fun rest _ => by simp [readAtom, readWord]; rfl⟩
  | @number n mark proper marks =>
    refine ⟨.number n, fun _ => rfl, fun rest stop => ?_⟩
    have read := readNumeral_written proper marks stop care
    obtain ⟨c, cs, written, numeric⟩ := written_cons proper mark
    rw [written, List.cons_append] at read
    rw [written, List.cons_append, readAtom_numeral numeric read, if_neg]
    intro refused
    obtain ⟨strict, huge⟩ := Bool.and_eq_true_iff.1 refused
    rw [accepts (of_decide_eq_true strict) n List.mem_cons_self] at huge
    cases huge
  | @string s text chars =>
    obtain ⟨seen, same, read⟩ := chars.read care
    refine ⟨.string (String.ofList seen), ?_, fun rest _ => ?_⟩
    · intro strict
      rw [same strict, String.ofList_toList]
    · rw [List.cons_append, List.append_assoc, List.singleton_append, readAtom, if_pos rfl, read]
      rfl

/-! Gaps, names, and where a value ends. -/

theorem skipSpace_append {gap : List Char} (gaps : IsGap gap) (rest : List Char) :
    skipSpace (gap ++ rest) = skipSpace rest :=
  List.dropWhile_append_of_pos gaps

theorem skipSpace_skipSpace (cs : List Char) : skipSpace (skipSpace cs) = skipSpace cs :=
  List.dropWhile_idempotent isSpace cs

theorem skipSpace_cons (filled : isSpace c = false) (cs : List Char) :
    skipSpace (c :: cs) = c :: cs :=
  List.dropWhile_cons_of_neg (by simp [filled])

/-- No text follows that a value could go on with. -/
theorem stops_gap {gap : List Char} (gaps : IsGap gap) (stop : Stops isNumeric rest) :
    Stops isNumeric (gap ++ rest) := by
  cases gap with
  | nil => exact stop
  | cons d gap =>
    have space := gaps d List.mem_cons_self
    refine stops_cons.2 ?_
    simp only [isSpace, Bool.or_eq_true, decide_eq_true_eq] at space
    rcases space with ((rfl | rfl) | rfl) | rfl <;> rfl

theorem stops_gap_cons {gap : List Char} (gaps : IsGap gap) (stop : isNumeric c = false) :
    Stops isNumeric (gap ++ c :: rest) :=
  stops_gap gaps (stops_cons.2 stop)

theorem skipSpace_gap_cons {gap : List Char} (gaps : IsGap gap) (filled : isSpace c = false)
    (rest : List Char) : skipSpace (gap ++ c :: rest) = c :: rest := by
  rw [skipSpace_append gaps, skipSpace_cons filled]

/-- A name is read up to its colon. -/
theorem NameText.read {name : String} (h : NameText name text) (care : Care) :
    ∃ seen, (care = .strict → seen = name) ∧ ∀ rest, ∃ behind,
      readName care (text ++ rest) = .ok (seen, behind) ∧ readColon behind = .ok rest := by
  cases h with
  | @mk before chars after front content back =>
    obtain ⟨seen, same, read⟩ := content.read care
    refine ⟨String.ofList seen, ?_, fun rest => ⟨after ++ ':' :: rest, ?_, ?_⟩⟩
    · intro strict
      rw [same strict, String.ofList_toList]
    · simp only [List.append_assoc, List.cons_append, List.nil_append]
      rw [readName, skipSpace_gap_cons front rfl]
      exact read [] _
    · rw [readColon, skipSpace_gap_cons back rfl]
      simp

end Json
end TemplateMarkup
