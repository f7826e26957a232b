import Mathlib.Data.List.Basic
import Mathlib.Order.Bounds.Basic
import Mathlib.Tactic.SplitIfs
import TemplateMarkup.Text.Utf8

/-! UTF-8 as a grammar of bytes, between the text that is encoded and the decoder. Decoding undoes
encoding, and stops behind the longest start of the bytes that encodes a text. -/
namespace TemplateMarkup

variable {n : Nat} {a b c d : UInt8} {bytes rest : List UInt8}

theorem isContinuation_iff : isContinuation b = true ↔ 0x80 ≤ b.toNat ∧ b.toNat ≤ 0xBF := by
  simp [isContinuation, UInt8.le_iff_toNat_le]

/-! What the first byte of a character says. -/

/-- The least second byte; less is an overlong form. -/
def leastNext (a : UInt8) : UInt8 := if a = 0xE0 then 0xA0 else if a = 0xF0 then 0x90 else 0x80

/-- The greatest second byte; more is a surrogate or beyond Unicode. -/
def greatestNext (a : UInt8) : UInt8 := if a = 0xED then 0x9F else if a = 0xF4 then 0x8F else 0xBF

theorem utf8Tail_none (h : a.toNat < 0xC2 ∨ 0xF4 < a.toNat) : utf8Tail a = none := by
  simp only [utf8Tail, Bool.and_eq_true, decide_eq_true_eq, UInt8.le_iff_toNat_le, ← UInt8.toNat_inj,
    UInt8.reduceToNat]
  split_ifs <;> first | rfl | omega

theorem utf8Tail_two (h : 0xC2 ≤ a.toNat ∧ a.toNat ≤ 0xDF) :
    utf8Tail a = some (1, leastNext a, greatestNext a) := by
  simp only [utf8Tail, leastNext, greatestNext, Bool.and_eq_true, decide_eq_true_eq,
    UInt8.le_iff_toNat_le, ← UInt8.toNat_inj, UInt8.reduceToNat]
  split_ifs <;> first | rfl | omega

theorem utf8Tail_three (h : 0xE0 ≤ a.toNat ∧ a.toNat ≤ 0xEF) :
    utf8Tail a = some (2, leastNext a, greatestNext a) := by
  simp only [utf8Tail, leastNext, greatestNext, Bool.and_eq_true, decide_eq_true_eq,
    UInt8.le_iff_toNat_le, ← UInt8.toNat_inj, UInt8.reduceToNat]
  split_ifs <;> first | rfl | omega

theorem utf8Tail_four (h : 0xF0 ≤ a.toNat ∧ a.toNat ≤ 0xF4) :
    utf8Tail a = some (3, leastNext a, greatestNext a) := by
  simp only [utf8Tail, leastNext, greatestNext, Bool.and_eq_true, decide_eq_true_eq,
    UInt8.le_iff_toNat_le, ← UInt8.toNat_inj, UInt8.reduceToNat]
  split_ifs <;> first | rfl | omega

/-- The bytes of the character with code `n`. -/
inductive Utf8Char (n : Nat) : List UInt8 → Prop
  | one {a : UInt8} (code : n = a.toNat) (ascii : a < 0x80) : Utf8Char n [a]
  | two {a b : UInt8} (code : n = (a.toNat - 0xC0) * 64 + (b.toNat - 0x80))
      (lead : 0xC2 ≤ a.toNat ∧ a.toNat ≤ 0xDF) (next : leastNext a ≤ b ∧ b ≤ greatestNext a) :
      Utf8Char n [a, b]
  | three {a b c : UInt8}
      (code : n = ((a.toNat - 0xE0) * 64 + (b.toNat - 0x80)) * 64 + (c.toNat - 0x80))
      (lead : 0xE0 ≤ a.toNat ∧ a.toNat ≤ 0xEF) (next : leastNext a ≤ b ∧ b ≤ greatestNext a)
      (third : isContinuation c = true) : Utf8Char n [a, b, c]
  | four {a b c d : UInt8}
      (code : n = (((a.toNat - 0xF0) * 64 + (b.toNat - 0x80)) * 64 + (c.toNat - 0x80)) * 64 +
        (d.toNat - 0x80))
      (lead : 0xF0 ≤ a.toNat ∧ a.toNat ≤ 0xF4) (next : leastNext a ≤ b ∧ b ≤ greatestNext a)
      (third : isContinuation c = true) (fourth : isContinuation d = true) :
      Utf8Char n [a, b, c, d]

/-! The grammar and the decoder. -/

section Decode

variable {low high : UInt8}

theorem utf8Tail_cases (h : utf8Tail a = some (n, low, high)) :
    (low = leastNext a ∧ high = greatestNext a) ∧
      (n = 1 ∧ (0xC2 ≤ a.toNat ∧ a.toNat ≤ 0xDF) ∨ n = 2 ∧ (0xE0 ≤ a.toNat ∧ a.toNat ≤ 0xEF) ∨
        n = 3 ∧ (0xF0 ≤ a.toNat ∧ a.toNat ≤ 0xF4)) := by
  have ranges : (a.toNat < 0xC2 ∨ 0xF4 < a.toNat) ∨ (0xC2 ≤ a.toNat ∧ a.toNat ≤ 0xDF) ∨
      (0xE0 ≤ a.toNat ∧ a.toNat ≤ 0xEF) ∨ (0xF0 ≤ a.toNat ∧ a.toNat ≤ 0xF4) := by
    omega
  obtain none | two | three | four := ranges
  · rw [utf8Tail_none none] at h
    cases h
  · rw [utf8Tail_two two] at h
    cases h
    exact ⟨⟨rfl, rfl⟩, .inl ⟨rfl, two⟩⟩
  · rw [utf8Tail_three three] at h
    cases h
    exact ⟨⟨rfl, rfl⟩, .inr (.inl ⟨rfl, three⟩)⟩
  · rw [utf8Tail_four four] at h
    cases h
    exact ⟨⟨rfl, rfl⟩, .inr (.inr ⟨rfl, four⟩)⟩

theorem not_ascii (h : 0xC2 ≤ a.toNat) : ¬ a < 0x80 := by
  simp only [UInt8.lt_iff_toNat_lt, UInt8.reduceToNat]
  omega

theorem outside_eq_false : (b < low || high < b) = false ↔ low ≤ b ∧ b ≤ high := by
  simp [UInt8.not_lt]

theorem decodeUtf8From_char (h : Utf8Char n bytes) (index : Nat) (before : List Char)
    (rest : List UInt8) :
    decodeUtf8From index before (bytes ++ rest) =
      decodeUtf8From (index + bytes.length) (Char.ofNat n :: before) rest := by
  cases h with
  | one code ascii =>
    rw [code]
    rw [List.singleton_append, decodeUtf8From.eq_def]
    exact if_pos ascii
  | two code lead next =>
    rw [code]
    have big := not_ascii lead.1
    have inside := ne_true_of_eq_false (outside_eq_false.2 next)
    rw [List.cons_append, List.singleton_append, decodeUtf8From.eq_def]
    dsimp only
    rw [if_neg big, utf8Tail_two lead]
    dsimp only
    rw [if_neg inside, if_pos rfl]
    rfl
  | three code lead next third =>
    rw [code]
    have big := not_ascii (Nat.le_trans (by decide) lead.1)
    have inside := ne_true_of_eq_false (outside_eq_false.2 next)
    rw [List.cons_append, List.cons_append, List.singleton_append, decodeUtf8From.eq_def]
    dsimp only
    rw [if_neg big, utf8Tail_three lead]
    dsimp only
    rw [if_neg inside, third, if_neg (by decide), if_neg (by decide), if_pos rfl]
    rfl
  | four code lead next third fourth =>
    rw [code]
    have big := not_ascii (Nat.le_trans (by decide) lead.1)
    have inside := ne_true_of_eq_false (outside_eq_false.2 next)
    rw [List.cons_append, List.cons_append, List.cons_append, List.singleton_append,
      decodeUtf8From.eq_def]
    dsimp only
    rw [if_neg big, utf8Tail_four lead]
    dsimp only
    rw [if_neg inside, third, fourth, if_neg (by decide), if_neg (by decide), if_neg (by decide),
      if_neg (by decide)]
    rfl

/-- The decoder stops only where no character starts. -/
theorem decodeUtf8From_cons (index : Nat) (before : List Char) (a : UInt8) (rest : List UInt8) :
    (∃ n char behind, Utf8Char n char ∧ a :: rest = char ++ behind) ∨
      ∃ length, decodeUtf8From index before (a :: rest) = .error ⟨index, length⟩ := by
  rw [decodeUtf8From.eq_def]
  dsimp only
  split
  · next ascii => exact .inl ⟨_, [a], rest, .one rfl ascii, rfl⟩
  · split
    · exact .inr ⟨_, rfl⟩
    · exact .inr ⟨_, rfl⟩
    · next n low high b behind found =>
      obtain ⟨⟨rfl, rfl⟩, lead⟩ := utf8Tail_cases found
      split
      · exact .inr ⟨_, rfl⟩
      · next inside =>
        have next := outside_eq_false.1 (eq_false_of_ne_true inside)
        split
        · next single =>
          have two := (lead.resolve_right (by omega)).2
          exact .inl ⟨_, [a, b], behind, .two rfl two next, rfl⟩
        · next more =>
          split
          · exact .inr ⟨_, rfl⟩
          · next c behind =>
            split
            · exact .inr ⟨_, rfl⟩
            · next third =>
              have third : isContinuation c = true := by simpa using third
              split
              · next double =>
                have three := ((lead.resolve_left (by omega)).resolve_right (by omega)).2
                exact .inl ⟨_, [a, b, c], behind, .three rfl three next third, rfl⟩
              · next other =>
                have four := ((lead.resolve_left (by omega)).resolve_left (by omega)).2
                split
                · exact .inr ⟨_, rfl⟩
                · next d behind =>
                  split
                  · exact .inr ⟨_, rfl⟩
                  · next fourth =>
                    have fourth : isContinuation d = true := by simpa using fourth
                    exact .inl ⟨_, [a, b, c, d], behind, .four rfl four next third fourth, rfl⟩

end Decode

/-! The grammar and the encoder. -/

/-- The bounds of the second byte depend on the first one only at the ends of its range. -/
theorem next_iff : (leastNext a ≤ b ∧ b ≤ greatestNext a) ↔
    (0x80 ≤ b.toNat ∧ b.toNat ≤ 0xBF) ∧ (a.toNat = 0xE0 → 0xA0 ≤ b.toNat) ∧
      (a.toNat = 0xF0 → 0x90 ≤ b.toNat) ∧ (a.toNat = 0xED → b.toNat ≤ 0x9F) ∧
      (a.toNat = 0xF4 → b.toNat ≤ 0x8F) := by
  simp only [leastNext, greatestNext, UInt8.le_iff_toNat_le, ← UInt8.toNat_inj, UInt8.reduceToNat]
  split_ifs <;> simp only [UInt8.reduceToNat] <;> omega

theorem ofNat_eq {m : Nat} (h : m = b.toNat) : UInt8.ofNat m = b := by
  rw [h, UInt8.ofNat_toNat]

theorem utf8EncodeChar_eq {char : Char} (h : Utf8Char n bytes) (code : char.toNat = n) :
    String.utf8EncodeChar char = bytes := by
  have value : char.val.toNat = n := code
  unfold String.utf8EncodeChar
  simp only [value]
  cases h with
  | one code ascii =>
    simp only [UInt8.lt_iff_toNat_lt, UInt8.reduceToNat] at ascii
    rw [if_pos (by omega), code, UInt8.ofNat_toNat]
  | two code lead next =>
    rw [next_iff] at next
    rw [if_neg (by omega), if_pos (by omega)]
    simp only [List.cons.injEq, and_true]
    refine ⟨ofNat_eq ?_, ofNat_eq ?_⟩ <;> omega
  | three code lead next third =>
    rw [next_iff] at next
    rw [isContinuation_iff] at third
    rw [if_neg (by omega), if_neg (by omega), if_pos (by omega)]
    simp only [List.cons.injEq, and_true]
    refine ⟨ofNat_eq ?_, ofNat_eq ?_, ofNat_eq ?_⟩ <;> omega
  | four code lead next third fourth =>
    rw [next_iff] at next
    rw [isContinuation_iff] at third fourth
    rw [if_neg (by omega), if_neg (by omega), if_neg (by omega)]
    simp only [List.cons.injEq, and_true]
    refine ⟨ofNat_eq ?_, ofNat_eq ?_, ofNat_eq ?_, ofNat_eq ?_⟩ <;> omega

/-- The grammar derives codes of characters only. -/
theorem Utf8Char.isValidChar (h : Utf8Char n bytes) : n.isValidChar := by
  cases h with
  | one code ascii =>
    simp only [UInt8.lt_iff_toNat_lt, UInt8.reduceToNat] at ascii
    exact .inl (by omega)
  | two code lead next =>
    rw [next_iff] at next
    exact .inl (by omega)
  | three code lead next third =>
    rw [next_iff] at next
    rw [isContinuation_iff] at third
    unfold Nat.isValidChar
    omega
  | four code lead next third fourth =>
    rw [next_iff] at next
    rw [isContinuation_iff] at third fourth
    exact .inr (by omega)

/-- The encoder writes what the grammar derives. -/
theorem utf8Char_encode (char : Char) : Utf8Char char.toNat (String.utf8EncodeChar char) := by
  have valid : char.toNat.isValidChar := char.valid
  unfold Nat.isValidChar at valid
  have value : char.val.toNat = char.toNat := rfl
  unfold String.utf8EncodeChar
  simp only [value]
  generalize char.toNat = n at valid ⊢
  split_ifs with one two three
  · refine .one ?_ ?_
    · simp only [UInt8.toNat_ofNat']
      omega
    · simp only [UInt8.lt_iff_toNat_lt, UInt8.toNat_ofNat', UInt8.reduceToNat]
      omega
  · refine .two ?_ ?_ ?_ <;> simp only [next_iff, UInt8.toNat_ofNat'] <;> omega
  · refine .three ?_ ?_ ?_ ?_ <;>
      simp only [next_iff, isContinuation_iff, UInt8.toNat_ofNat'] <;> omega
  · refine .four ?_ ?_ ?_ ?_ ?_ <;>
      simp only [next_iff, isContinuation_iff, UInt8.toNat_ofNat'] <;> omega

theorem Utf8Char.eq_encode (h : Utf8Char n bytes) :
    (Char.ofNat n).toNat = n ∧ bytes = String.utf8EncodeChar (Char.ofNat n) := by
  have code : (Char.ofNat n).toNat = n := by
    rw [Char.ofNat, dif_pos h.isValidChar]
    rfl
  exact ⟨code, (utf8EncodeChar_eq h code).symm⟩

theorem Utf8Char.length_pos (h : Utf8Char n bytes) : 0 < bytes.length := by
  cases h <;> simp

/-! Texts. -/

/-- The bytes of some characters. -/
def utf8Bytes (cs : List Char) : List UInt8 := cs.flatMap String.utf8EncodeChar

/-- The bytes of a text. -/
def utf8 (source : String) : List UInt8 := source.toUTF8.data.toList

theorem utf8_ofList (cs : List Char) : utf8 (String.ofList cs) = utf8Bytes cs := by
  change (String.ofList cs).toByteArray.data.toList = _
  rw [String.toByteArray_ofList, List.utf8Encode, List.toList_data_toByteArray]
  rfl

theorem utf8_eq (source : String) : utf8 source = utf8Bytes source.toList := by
  rw [← utf8_ofList, String.ofList_toList]

/-- Behind the bytes of some characters, those characters are held and the index is past them. -/
theorem decodeUtf8From_bytes (cs : List Char) (index : Nat) (before : List Char)
    (rest : List UInt8) :
    decodeUtf8From index before (utf8Bytes cs ++ rest) =
      decodeUtf8From (index + (utf8Bytes cs).length) (cs.reverse ++ before) rest := by
  induction cs generalizing index before with
  | nil => rfl
  | cons c cs ih =>
    have first := decodeUtf8From_char (utf8Char_encode c) index before (utf8Bytes cs ++ rest)
    rw [utf8Bytes, List.flatMap_cons, ← utf8Bytes, List.append_assoc, first, ih, Char.ofNat_toNat,
      List.length_append, Nat.add_assoc, List.reverse_cons, List.append_assoc]
    rfl

theorem decodeUtf8_utf8Bytes (cs : List Char) : decodeUtf8 (utf8Bytes cs) = .ok cs := by
  have decoded := decodeUtf8From_bytes cs 0 [] []
  rw [List.append_nil, List.append_nil] at decoded
  rw [decodeUtf8, decoded, decodeUtf8From, List.reverse_reverse]

theorem utf8Bytes_cons (c : Char) (cs : List Char) :
    utf8Bytes (c :: cs) = String.utf8EncodeChar c ++ utf8Bytes cs :=
  List.flatMap_cons

/-- Bytes are the bytes of some characters, or the decoder stops behind the last of them. -/
theorem decodeUtf8From_cases (index : Nat) (before : List Char) (bytes : List UInt8) :
    (∃ cs, bytes = utf8Bytes cs) ∨ ∃ cs length, utf8Bytes cs <+: bytes ∧
      decodeUtf8From index before bytes = .error ⟨index + (utf8Bytes cs).length, length⟩ := by
  induction size : bytes.length using Nat.strong_induction_on generalizing index before bytes with
  | _ n ih =>
    cases bytes with
    | nil => exact .inl ⟨[], rfl⟩
    | cons a rest =>
      obtain ⟨n, char, behind, derived, split⟩ | ⟨length, stuck⟩ :=
        decodeUtf8From_cons index before a rest
      · have first := decodeUtf8From_char derived index before behind
        have shorter : behind.length < (a :: rest).length := by
          rw [split, List.length_append]
          exact Nat.lt_add_of_pos_left derived.length_pos
        obtain ⟨-, rfl⟩ := derived.eq_encode
        rw [split]
        obtain ⟨cs, rfl⟩ | ⟨cs, length, front, stuck⟩ :=
          ih _ (size ▸ shorter) (index + (String.utf8EncodeChar (Char.ofNat n)).length)
            (Char.ofNat n :: before) behind rfl
        · exact .inl ⟨Char.ofNat n :: cs, (utf8Bytes_cons _ cs).symm⟩
        · refine .inr ⟨Char.ofNat n :: cs, length, ?_, ?_⟩
          · rw [utf8Bytes_cons, List.prefix_append_right_inj]
            exact front
          · rw [first, stuck, utf8Bytes_cons, List.length_append, Nat.add_assoc]
      · exact .inr ⟨[], length, List.nil_prefix, stuck⟩

/-- The lengths of the starts of some bytes that are the bytes of a text. -/
def textLengths (bytes : List UInt8) : Set Nat :=
  {n | ∃ source, utf8 source <+: bytes ∧ (utf8 source).length = n}

theorem index_le_of_error {index : Nat} {before : List Char} {fault : Utf8Fault}
    (h : decodeUtf8From index before bytes = .error fault) : index ≤ fault.index := by
  obtain ⟨cs, rfl⟩ | ⟨cs, length, -, stuck⟩ := decodeUtf8From_cases index before bytes
  · have decoded := decodeUtf8From_bytes cs index before []
    rw [List.append_nil] at decoded
    rw [decoded, decodeUtf8From] at h
    cases h
  · rw [stuck] at h
    cases h
    exact Nat.le_add_right _ _

/-- Bytes that are no text are refused behind the longest start that is one. -/
theorem decodeUtf8_error (h : ∀ source, bytes ≠ utf8 source) :
    ∃ fault, decodeUtf8 bytes = .error fault ∧ IsGreatest (textLengths bytes) fault.index := by
  obtain ⟨cs, rfl⟩ | ⟨cs, length, front, stuck⟩ := decodeUtf8From_cases 0 [] bytes
  · exact absurd (utf8_ofList cs).symm (h _)
  · rw [Nat.zero_add] at stuck
    refine ⟨_, stuck, ⟨String.ofList cs, by rwa [utf8_ofList], by rw [utf8_ofList]⟩, ?_⟩
    rintro n ⟨source, ⟨rest, rfl⟩, rfl⟩
    rw [utf8_eq, decodeUtf8From_bytes, Nat.zero_add] at stuck
    rw [utf8_eq]
    exact index_le_of_error stuck

theorem decodeUtf8_utf8 (source : String) : decodeUtf8 (utf8 source) = .ok source.toList := by
  rw [utf8_eq, decodeUtf8_utf8Bytes]

/-- Different texts have different bytes. -/
theorem utf8_injective : Function.Injective utf8 := by
  intro source other same
  have decoded := decodeUtf8_utf8 source
  rw [same, decodeUtf8_utf8] at decoded
  exact (String.toList_injective (Except.ok.inj decoded)).symm

/-- Bytes below the upper half are the bytes of a text, one for each character. -/
theorem utf8_ascii (h : ∀ byte ∈ bytes, byte < 0x80) :
    utf8 (String.ofList (bytes.map fun b => Char.ofNat b.toNat)) = bytes := by
  rw [utf8_ofList]
  induction bytes with
  | nil => rfl
  | cons b bytes ih =>
    obtain ⟨here, onward⟩ := List.forall_mem_cons.1 h
    have derived : Utf8Char b.toNat [b] := .one rfl here
    rw [List.map_cons, utf8Bytes_cons, ← derived.eq_encode.2, ih onward]
    rfl

/-- Bytes are decoded to the text that they are the bytes of. -/
theorem decodeUtf8_eq_ok {bytes : List UInt8} {text : List Char} :
    decodeUtf8 bytes = .ok text ↔ bytes = utf8 (String.ofList text) := by
  constructor
  · intro decoded
    by_cases encodes : ∃ source, bytes = utf8 source
    · obtain ⟨source, rfl⟩ := encodes
      rw [decodeUtf8_utf8] at decoded
      cases decoded
      rw [String.ofList_toList]
    · obtain ⟨fault, stuck, -⟩ := decodeUtf8_error (not_exists.1 encodes)
      rw [stuck] at decoded
      cases decoded
  · rintro rfl
    rw [decodeUtf8_utf8, String.toList_ofList]

end TemplateMarkup
