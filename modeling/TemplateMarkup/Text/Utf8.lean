/-! Decoding bytes as UTF-8. -/
namespace TemplateMarkup

/-- Where bytes stop being UTF-8. -/
structure Utf8Fault where
  index : Nat
  /-- The length of the longest start of a character there, or of one byte that starts none; there
  is no length if the bytes end before the character does. -/
  length : Option Nat
  deriving DecidableEq

/-- The bytes that follow the first one of a character: their number, and the bounds of the first
of them, which keep out overlong forms, surrogates and what lies beyond Unicode. -/
def utf8Tail (a : UInt8) : Option (Nat × UInt8 × UInt8) :=
  if 0xC2 ≤ a && a ≤ 0xDF then some (1, 0x80, 0xBF)
  else if a = 0xE0 then some (2, 0xA0, 0xBF)
  else if a = 0xED then some (2, 0x80, 0x9F)
  else if 0xE1 ≤ a && a ≤ 0xEF then some (2, 0x80, 0xBF)
  else if a = 0xF0 then some (3, 0x90, 0xBF)
  else if 0xF1 ≤ a && a ≤ 0xF3 then some (3, 0x80, 0xBF)
  else if a = 0xF4 then some (3, 0x80, 0x8F)
  else none

def isContinuation (b : UInt8) : Bool := 0x80 ≤ b && b ≤ 0xBF

/-- The character whose bytes carry these bits, the first byte without its mark. -/
def joinBits (lead : Nat) (tail : List UInt8) : Char :=
  Char.ofNat (tail.foldl (fun n b => n * 64 + (b.toNat - 0x80)) lead)

/-- Decodes bytes that start at `index`; the characters before them are held in reverse. -/
def decodeUtf8From (index : Nat) (before : List Char) : List UInt8 → Except Utf8Fault (List Char)
  | [] => .ok before.reverse
  | a :: s =>
    if a < 0x80 then decodeUtf8From (index + 1) (Char.ofNat a.toNat :: before) s
    else
      match utf8Tail a, s with
      | none, _ => .error ⟨index, some 1⟩
      | some _, [] => .error ⟨index, none⟩
      | some (n, low, high), b :: s =>
        if b < low || high < b then .error ⟨index, some 1⟩
        else if n = 1 then
          decodeUtf8From (index + 2) (joinBits (a.toNat - 0xC0) [b] :: before) s
        else
          match s with
          | [] => .error ⟨index, none⟩
          | c :: s =>
            if !isContinuation c then .error ⟨index, some 2⟩
            else if n = 2 then
              decodeUtf8From (index + 3) (joinBits (a.toNat - 0xE0) [b, c] :: before) s
            else
              match s with
              | [] => .error ⟨index, none⟩
              | d :: s =>
                if !isContinuation d then .error ⟨index, some 3⟩
                else decodeUtf8From (index + 4) (joinBits (a.toNat - 0xF0) [b, c, d] :: before) s

def decodeUtf8 (bytes : List UInt8) : Except Utf8Fault (List Char) := decodeUtf8From 0 [] bytes

example : decodeUtf8 [0x68, 0xC3, 0xA9, 0xF0, 0x9F, 0x98, 0x80] = .ok ['h', 'é', '😀'] := rfl
example : decodeUtf8 [0x68, 0xED, 0xA0, 0x80] = .error ⟨1, some 1⟩ := rfl
example : decodeUtf8 [0xF0, 0x9F, 0x98, 0x20] = .error ⟨0, some 3⟩ := rfl
example : decodeUtf8 [0xE6, 0x97] = .error ⟨0, none⟩ := rfl

end TemplateMarkup
