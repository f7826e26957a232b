import TemplateMarkup.Encoding
import TemplateMarkup.Proofs.Text.Utf8

/-! Templates given as bytes. The bytes are read as the text they are the bytes of, behind at most
one byte-order mark, and are refused where they stop being that of a text. -/
namespace TemplateMarkup

variable {settings : Settings} {name : String} {bytes : List UInt8}

theorem ofName?_utf8 (h : name.toLower ∈ ["utf-8", "utf8"]) :
    Charset.ofName? name = some .utf8 := by
  simp only [List.mem_cons, List.not_mem_nil, or_false] at h
  obtain h | h := h
  · rw [Charset.ofName?, h]
    rfl
  · rw [Charset.ofName?, h]
    rfl

theorem ofName?_ascii (h : name.toLower ∈ ["ascii", "us-ascii"]) :
    Charset.ofName? name = some .ascii := by
  simp only [List.mem_cons, List.not_mem_nil, or_false] at h
  obtain h | h := h
  · rw [Charset.ofName?, h]
    rfl
  · rw [Charset.ofName?, h]
    rfl

theorem ofName?_other (h : name.toLower ∉ ["utf-8", "utf8", "ascii", "us-ascii"]) :
    Charset.ofName? name = none := by
  simp only [List.mem_cons, List.not_mem_nil, or_false, not_or] at h
  obtain ⟨utf8, utf8', ascii, ascii'⟩ := h
  unfold Charset.ofName?
  split
  · next same => exact absurd same utf8
  · next same => exact absurd same utf8'
  · next same => exact absurd same ascii
  · next same => exact absurd same ascii'
  · rfl

/-! One character set. -/

theorem decode_utf8 (source : String) : Charset.utf8.decode (utf8 source) = .ok source := by
  rw [Charset.decode, decodeUtf8_utf8]
  exact congrArg Except.ok String.ofList_toList

theorem decode_utf8_error (h : ∀ source, bytes ≠ utf8 source) :
    ∃ fault, Charset.utf8.decode bytes = .error (.invalidUtf8 fault) ∧
      IsGreatest (textLengths bytes) fault.index := by
  obtain ⟨fault, stuck, greatest⟩ := decodeUtf8_error h
  exact ⟨fault, by rw [Charset.decode, stuck]; rfl, greatest⟩

/-- Where the first byte stands that is none of ASCII. -/
def notAsciiAt (bytes : List UInt8) : Set Nat := {i | ∃ byte ∈ bytes[i]?, 0x80 ≤ byte}

theorem isLeast_of_findIdx {offset : Nat} (h : bytes.findIdx? (0x80 ≤ ·) = some offset) :
    IsLeast (notAsciiAt bytes) offset := by
  obtain ⟨inside, high, least⟩ := List.findIdx?_eq_some_iff_getElem.1 h
  refine ⟨⟨bytes[offset], List.getElem?_eq_getElem inside, by simpa using high⟩, ?_⟩
  rintro j ⟨byte, found, high⟩
  by_contra before
  obtain ⟨_, rfl⟩ := List.getElem?_eq_some_iff.1 found
  exact least j (Nat.not_le.1 before) (by simpa using high)

/-- Bytes are refused at the first one that is none of ASCII, or there is none. -/
theorem decode_ascii_cases (bytes : List UInt8) :
    (∃ offset, IsLeast (notAsciiAt bytes) offset ∧
      Charset.ascii.decode bytes = .error (.notAscii offset)) ∨
    (∀ byte ∈ bytes, byte < 0x80) ∧
      ∃ source, bytes = utf8 source ∧ Charset.ascii.decode bytes = .ok source := by
  cases first : bytes.findIdx? (0x80 ≤ ·) with
  | some offset =>
    refine .inl ⟨offset, isLeast_of_findIdx first, ?_⟩
    rw [Charset.decode, first]
  | none =>
    have ascii : ∀ byte ∈ bytes, byte < 0x80 := by
      simpa [List.findIdx?_eq_none_iff, UInt8.not_le] using first
    refine .inr ⟨ascii, _, (utf8_ascii ascii).symm, ?_⟩
    rw [Charset.decode, first]

/-! The byte-order mark. -/

def byteOrderMark : List UInt8 := [0xEF, 0xBB, 0xBF]

/-- The mark is the bytes of one character. -/
theorem utf8Bytes_byteOrderMark : utf8Bytes ['\uFEFF'] = byteOrderMark := by decide

theorem dropByteOrderMark_utf8 {source : String} (h : source.toList.head? ≠ some '\uFEFF') :
    dropByteOrderMark (utf8 source) = utf8 source := by
  unfold dropByteOrderMark
  split
  · next rest marked =>
    have decoded := decodeUtf8_utf8 source
    have split : utf8 source = utf8Bytes ['\uFEFF'] ++ rest := by
      rw [utf8Bytes_byteOrderMark]
      exact marked
    rw [split, decodeUtf8, decodeUtf8From_bytes] at decoded
    obtain ⟨cs, rfl⟩ | ⟨cs, length, -, stuck⟩ := decodeUtf8From_cases
      (0 + (utf8Bytes ['\uFEFF']).length) (['\uFEFF'].reverse ++ []) rest
    · have whole : utf8 source = utf8Bytes ('\uFEFF' :: cs) := by
        rw [split, utf8Bytes, utf8Bytes, ← List.flatMap_append]
        rfl
      rw [← utf8_ofList] at whole
      rw [utf8_injective whole, String.toList_ofList] at h
      exact absurd rfl h
    · rw [stuck] at decoded
      cases decoded
  · rfl

theorem parseBytes_of_charset {charset : Charset}
    (found : Charset.ofName? (settings.encoding.getD "utf-8") = some charset) (bytes : List UInt8) :
    parseBytes settings bytes =
      (charset.decode (dropByteOrderMark bytes)).mapError
        (.undecodable (settings.encoding.getD "utf-8")) >>= fun source =>
          (parse settings source).mapError .faulty := by
  simp only [parseBytes, Settings.encodingName, found]

theorem parseBytes_utf8 {source : String}
    (known : (settings.encoding.getD "utf-8").toLower ∈ ["utf-8", "utf8"])
    (text : dropByteOrderMark bytes = utf8 source) :
    parseBytes settings bytes = (parse settings source).mapError .faulty := by
  rw [parseBytes_of_charset (ofName?_utf8 known), text, decode_utf8]
  rfl

/-- A template given as bytes is the text they are the bytes of, behind at most one byte-order mark,
and read like that text. Bytes that are none are refused behind the longest start that is the bytes
of a text, in ASCII at the first byte that is none of it, and in an unknown encoding altogether. -/
theorem parseBytes_decodes (settings : Settings) :
    let name := settings.encoding.getD "utf-8"
    (name.toLower ∈ ["utf-8", "utf8"] →
      (∀ bytes,
        (∃ source, (∀ other, dropByteOrderMark bytes = utf8 other ↔ other = source) ∧
          parseBytes settings bytes = (parse settings source).mapError .faulty) ∨
        (∀ source, dropByteOrderMark bytes ≠ utf8 source) ∧
          ∃ fault, parseBytes settings bytes = .error (.undecodable name (.invalidUtf8 fault)) ∧
            IsGreatest (textLengths (dropByteOrderMark bytes)) fault.index) ∧
      ∀ source : String, source.toList.head? ≠ some '\uFEFF' →
        parseBytes settings (utf8 source) = (parse settings source).mapError .faulty ∧
        parseBytes settings (byteOrderMark ++ utf8 source) =
          (parse settings source).mapError .faulty) ∧
    (name.toLower ∈ ["ascii", "us-ascii"] → ∀ bytes,
      (∃ offset, IsLeast (notAsciiAt (dropByteOrderMark bytes)) offset ∧
        parseBytes settings bytes = .error (.undecodable name (.notAscii offset))) ∨
      (∀ byte ∈ dropByteOrderMark bytes, byte < 0x80) ∧
        parseBytes settings bytes = parseBytes { settings with encoding := none } bytes) ∧
    (name.toLower ∉ ["utf-8", "utf8", "ascii", "us-ascii"] → ∀ bytes,
      parseBytes settings bytes = .error (.unknownEncoding name)) := by
  intro name
  refine ⟨fun known => ⟨fun bytes => ?_, fun source plain => ?_⟩, fun known bytes => ?_,
    fun unknown bytes => ?_⟩
  · by_cases text : ∃ source, dropByteOrderMark bytes = utf8 source
    · obtain ⟨source, same⟩ := text
      refine .inl ⟨source, fun other => ?_, ?_⟩
      · rw [same]
        exact ⟨fun h => (utf8_injective h).symm, fun h => congrArg utf8 h.symm⟩
      · exact parseBytes_utf8 known same
    · have none : ∀ source, dropByteOrderMark bytes ≠ utf8 source := not_exists.1 text
      obtain ⟨fault, stuck, greatest⟩ := decode_utf8_error none
      refine .inr ⟨none, fault, ?_, greatest⟩
      rw [parseBytes_of_charset (ofName?_utf8 known), stuck]
      rfl
  · exact ⟨parseBytes_utf8 known (dropByteOrderMark_utf8 plain), parseBytes_utf8 known rfl⟩
  · obtain ⟨offset, least, stuck⟩ | ⟨ascii, source, same, decoded⟩ :=
      decode_ascii_cases (dropByteOrderMark bytes)
    · refine .inl ⟨offset, least, ?_⟩
      rw [parseBytes_of_charset (ofName?_ascii known), stuck]
      rfl
    · have plain : "utf-8".toLower ∈ ["utf-8", "utf8"] := by decide +kernel
      have default : parseBytes { settings with encoding := none } bytes =
          (parse settings source).mapError .faulty := parseBytes_utf8 plain same
      refine .inr ⟨ascii, ?_⟩
      rw [parseBytes_of_charset (ofName?_ascii known), decoded, default]
      rfl
  · simp only [parseBytes, Settings.encodingName, name, ofName?_other unknown]
    rfl

/-- A mark is dropped, and an unknown encoding is named as it is given. -/
theorem parseBytes_decodes_marked :
    parseBytes {} (byteOrderMark ++ utf8 "é") = (parse {} "é").mapError .faulty ∧
    parseBytes { encoding := some "Latin1" } [] = .error (.unknownEncoding "Latin1") := by
  have known : "utf-8".toLower ∈ ["utf-8", "utf8"] := by decide +kernel
  have unknown : "Latin1".toLower ∉ ["utf-8", "utf8", "ascii", "us-ascii"] := by decide +kernel
  have plain : "é".toList.head? ≠ some '\uFEFF' := by decide
  exact ⟨(((parseBytes_decodes {}).1 known).2 "é" plain).2,
    (parseBytes_decodes { encoding := some "Latin1" }).2.2 unknown []⟩

end TemplateMarkup
