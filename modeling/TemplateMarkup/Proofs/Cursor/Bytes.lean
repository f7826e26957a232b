import TemplateMarkup.Proofs.Text.Utf8
import TemplateMarkup.Text.Indent

/-! Byte positions in a text. A text can be cut where a character starts, and at its end; these
positions are the sizes of the texts that it starts with. -/
namespace TemplateMarkup

/-- The size of a text in bytes. -/
def byteSize (cs : List Char) : Nat := (utf8Bytes cs).length

/-- Cuts a text at a byte position. There is no cut within a character, nor behind the end. -/
def cutAt? : Nat → List Char → Option (List Char × List Char)
  | 0, cs => some ([], cs)
  | _ + 1, [] => none
  | n + 1, c :: cs =>
    if c.utf8Size ≤ n + 1 then
      (cutAt? (n + 1 - c.utf8Size) cs).map fun (front, rest) => (c :: front, rest)
    else none

/-- A position where a text can be cut. -/
def IsBoundary (text : List Char) (position : Nat) : Prop :=
  ∃ front rest, text = front ++ rest ∧ position = byteSize front

variable {front rest cs : List Char}

@[simp] theorem byteSize_nil : byteSize [] = 0 := rfl

@[simp] theorem byteSize_cons (c : Char) (cs : List Char) :
    byteSize (c :: cs) = c.utf8Size + byteSize cs := by
  rw [byteSize, utf8Bytes_cons, List.length_append, String.length_utf8EncodeChar, byteSize]

@[simp] theorem byteSize_append (front rest : List Char) :
    byteSize (front ++ rest) = byteSize front + byteSize rest := by
  simp [byteSize, utf8Bytes]

theorem byteSize_pos (filled : cs ≠ []) : 0 < byteSize cs := by
  obtain ⟨c, rest, rfl⟩ := List.exists_cons_of_ne_nil filled
  have first := c.utf8Size_pos
  rw [byteSize_cons]
  omega

theorem byteSize_le_of_suffix (left : rest <:+ cs) : byteSize rest ≤ byteSize cs := by
  obtain ⟨front, rfl⟩ := left
  rw [byteSize_append]
  exact Nat.le_add_left _ _

/-- The characters of an indentation take a byte each. -/
theorem byteSize_indent (indent : ∀ c ∈ cs, isIndent c = true) : byteSize cs = cs.length := by
  induction cs with
  | nil => rfl
  | cons c cs ih =>
    obtain ⟨here, onward⟩ := List.forall_mem_cons.1 indent
    have one : c.utf8Size = 1 := by
      obtain rfl | rfl : c = ' ' ∨ c = '\t' := by simpa [isIndent] using here
      · rfl
      · rfl
    rw [byteSize_cons, ih onward, one, List.length_cons, Nat.add_comm]

/-- Behind each front of a text it can be cut. -/
theorem cutAt?_append (front rest : List Char) :
    cutAt? (byteSize front) (front ++ rest) = some (front, rest) := by
  induction front with
  | nil => rw [byteSize_nil, cutAt?, List.nil_append]
  | cons c front ih =>
    have first := c.utf8Size_pos
    obtain ⟨n, size⟩ : ∃ n, byteSize (c :: front) = n + 1 :=
      ⟨byteSize (c :: front) - 1, by rw [byteSize_cons]; omega⟩
    have left : n + 1 - c.utf8Size = byteSize front := by
      rw [← size, byteSize_cons]
      omega
    rw [size, List.cons_append, cutAt?, if_pos, left, ih]
    · rfl
    · rw [← size, byteSize_cons]
      omega

/-- What stands in front of the rest of a text. -/
def frontOf (cs rest : List Char) : List Char := cs.take (cs.length - rest.length)

theorem frontOf_append (left : rest <:+ cs) : frontOf cs rest ++ rest = cs := by
  obtain ⟨front, rfl⟩ := left
  simp [frontOf]

@[simp] theorem frontOf_append_left (front rest : List Char) :
    frontOf (front ++ rest) rest = front := by
  simp [frontOf]

theorem byteSize_frontOf (left : rest <:+ cs) :
    byteSize (frontOf cs rest) = byteSize cs - byteSize rest := by
  obtain ⟨front, rfl⟩ := left
  simp

end TemplateMarkup
