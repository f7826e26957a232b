import TemplateMarkup.Json.Reader
import TemplateMarkup.Settings.Json

/-! Settings read from a JSON text, with the first problem that shows from left to right. -/
namespace TemplateMarkup
namespace Settings
open Json

/-- Reads the value of a field. A container shows by its bracket that it is none, any other value
once it is read. -/
def readField (settings : Settings) (field : Field) (cs : List Char) :
    Except Category (Settings × List Char) :=
  match skipSpace cs with
  | '[' :: _ => .error .mistyped
  | '{' :: _ => .error .mistyped
  | start =>
    match readAtom .strict start with
    | .error category => .error category
    | .ok (value, rest) =>
      match settings.set? field value with
      | some settings => .ok (settings, rest)
      | none => .error .mistyped

theorem readField_length {settings result : Settings} {field : Field} {cs rest : List Char}
    (h : readField settings field cs = .ok (result, rest)) : rest.length < cs.length := by
  have h1 := skipSpace_length_le cs
  unfold readField at h
  split at h
  · cases h
  · cases h
  · split at h
    · cases h
    · next ha =>
      have h2 := readAtom_length ha
      split at h <;> cases h
      omega

/-- Reads the rest of a member from after its name. A known field may not come twice, which shows
before its value; the value of any other member is passed over. -/
def readMemberValue (settings : Settings) (seen : List Field) (name : String) (cs : List Char) :
    Except Category ((Settings × List Field) × List Char) :=
  match Field.ofName? name with
  | some field =>
    if field ∈ seen then .error .mistyped
    else
      match readColon cs with
      | .error category => .error category
      | .ok cs => (readField settings field cs).map fun (s, rest) => ((s, field :: seen), rest)
  | none =>
    match readColon cs with
    | .error category => .error category
    | .ok cs => (readValue .lenient cs).map fun (_, rest) => ((settings, seen), rest)

theorem readMemberValue_length {settings : Settings} {seen : List Field} {name : String}
    {cs rest : List Char} {result : Settings × List Field}
    (h : readMemberValue settings seen name cs = .ok (result, rest)) : rest.length < cs.length := by
  unfold readMemberValue at h
  split at h
  · next field _ =>
    split at h
    · cases h
    · split at h
      · cases h
      · next tail hc =>
        have h1 := readColon_length hc
        cases hf : readField settings field tail with
        | error e => rw [hf] at h; cases h
        | ok r =>
          have h2 : r.2.length < tail.length := readField_length hf
          rw [hf] at h; cases h; omega
  · split at h
    · cases h
    · next tail hc =>
      have h1 := readColon_length hc
      cases hv : readValue .lenient tail with
      | error e => rw [hv] at h; cases h
      | ok r =>
        have h2 : r.2.length < tail.length := readValue_length hv
        rw [hv] at h; cases h; omega

/-- Reads the members of an object that has some, up to its end. -/
def readMembers (settings : Settings) (seen : List Field) (cs : List Char) :
    Except Category (Settings × List Char) :=
  match _hn : readName .strict cs with
  | .error category => .error category
  | .ok (name, afterName) =>
    match _hv : readMemberValue settings seen name afterName with
    | .error category => .error category
    | .ok ((settings, seen), afterValue) =>
      match _hs : skipSpace afterValue with
      | [] => .error .ended
      | '}' :: rest => .ok (settings, rest)
      | ',' :: rest => readMembers settings seen rest
      | _ => .error .malformed
termination_by cs.length
decreasing_by
  have h1 := readName_length _hn
  have h2 := readMemberValue_length _hv
  have h3 := length_lt_of_skipSpace _hs
  omega

/-- Reads the items of an array up to its end, each for the next field; `first` says that no item
was read. Text after the last field's item is malformed unless it closes the array. -/
def readItems (first : Bool) : List Field → Settings → List Char →
    Except Category (Settings × List Char)
  | fields, settings, cs =>
    match skipSpace cs with
    | [] => .error .ended
    | ']' :: rest => .ok (settings, rest)
    | c :: rest =>
      match fields with
      | [] => .error .malformed
      | field :: fields =>
        if first then do
          let (settings, rest) ← readField settings field (c :: rest)
          readItems false fields settings rest
        else if c = ',' then do
          let (settings, rest) ← readField settings field rest
          readItems false fields settings rest
        else .error .malformed

/-- The settings that a text states; what it does not state has its default. -/
def read (text : String) : Except Category Settings := do
  let (settings, rest) ←
    match skipSpace text.toList with
    | '{' :: inner =>
      match skipSpace inner with
      | '}' :: rest => .ok ({}, rest)
      | _ => readMembers {} [] inner
    | '[' :: inner => readItems true Field.all {} inner
    | cs =>
      match readAtom .strict cs with
      | .error category => .error category
      | .ok _ => .error .mistyped
  readEnd rest
  return settings

example : (read "[\"p\", 8]").toOption = some { defaultTag := "p", tabSize := 8 } := by
  decide +kernel
example : (read "\x7b\"x\": [1, \x7b\x7d], \"tab_size\": 2\x7d").toOption = some { tabSize := 2 } := by
  decide +kernel
example : (match read "\x7b\"tab_size\": 2, \"tab_size\"" with
    | .error category => some category
    | .ok _ => none) = some .mistyped := by decide +kernel
example : (match read "[\"p\"" with
    | .error category => some category
    | .ok _ => none) = some .ended := by decide +kernel

end Settings
end TemplateMarkup
