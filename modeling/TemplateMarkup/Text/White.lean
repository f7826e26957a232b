/-! White space, trimming and blank lines, on lists of characters. -/
namespace TemplateMarkup

/-- A line of a template, without its line end. -/
abbrev Line := List Char

/-- The Unicode property White_Space. -/
def isWhite (c : Char) : Bool :=
  let n := c.toNat
  if n < 128 then n = 32 || (9 ≤ n && n ≤ 13)
  else n = 0x85 || n = 0xA0 || n = 0x1680 || (0x2000 ≤ n && n ≤ 0x200A) || n = 0x2028 ||
    n = 0x2029 || n = 0x202F || n = 0x205F || n = 0x3000

def trimLeft (cs : List Char) : List Char := cs.dropWhile isWhite

def trimRight (cs : List Char) : List Char := (cs.reverse.dropWhile isWhite).reverse

def trim (cs : List Char) : List Char := trimRight (trimLeft cs)

def isBlank (line : Line) : Bool := line.all isWhite

@[simp] theorem trimLeft_nil : trimLeft [] = [] := rfl
@[simp] theorem trimRight_nil : trimRight [] = [] := rfl
@[simp] theorem isBlank_nil : isBlank [] = true := rfl

theorem trimLeft_suffix (cs : List Char) : trimLeft cs <:+ cs :=
  List.dropWhile_suffix isWhite

theorem trimLeft_length_le (cs : List Char) : (trimLeft cs).length ≤ cs.length :=
  (trimLeft_suffix cs).length_le

theorem trimRight_prefix (cs : List Char) : trimRight cs <+: cs := by
  rw [← List.reverse_suffix, trimRight, List.reverse_reverse]
  exact List.dropWhile_suffix isWhite

/-- White space at the end goes, and nothing else. -/
theorem trimRight_append_white (cs ws : List Char) (h : isBlank ws = true) :
    trimRight (cs ++ ws) = trimRight cs := by
  simp only [isBlank, List.all_eq_true] at h
  simp only [trimRight, List.reverse_append]
  rw [List.dropWhile_append_of_pos]
  simpa using h

example : trim " \t a b \r".toList = "a b".toList := by decide
example : isBlank "\u2003 \t".toList = true := by decide
example : isBlank "\u200b".toList = false := by decide

end TemplateMarkup
