import TemplateMarkup.Text.White

/-! Indentation: the spaces and tabs that a line starts with, measured in columns. -/
namespace TemplateMarkup

/-- The columns an indentation character stands for, if the character is one. -/
def columnsOf (tab : Nat) : Char → Option Nat
  | ' ' => some 1
  | '\t' => some tab
  | _ => none

def isIndent (c : Char) : Bool := c = ' ' || c = '\t'

/-- The width of a line's indentation. -/
def indentWidth (tab : Nat) : Line → Nat
  | [] => 0
  | c :: cs =>
    match columnsOf tab c with
    | some n => n + indentWidth tab cs
    | none => 0

/-- What stands after the indentation. -/
def afterIndent (line : Line) : List Char := line.dropWhile isIndent

/-- Drops indentation until the dropped part is at least so many columns wide. A tab that crosses
the mark goes whole. -/
def dropColumns (tab : Nat) : Nat → Line → List Char
  | 0, line => line
  | _ + 1, [] => []
  | n + 1, c :: cs =>
    match columnsOf tab c with
    | some w => dropColumns tab (n + 1 - w) cs
    | none => c :: cs

/-- The column reached after some text of a line: its indentation by width, the rest by
characters. -/
def columnAfter (tab : Nat) (read : List Char) : Nat :=
  indentWidth tab read + (afterIndent read).length

@[simp] theorem indentWidth_nil (tab : Nat) : indentWidth tab [] = 0 := rfl

theorem indentWidth_spaces (tab n : Nat) (cs : List Char) :
    indentWidth tab (List.replicate n ' ' ++ cs) = n + indentWidth tab cs := by
  induction n with
  | zero => simp
  | succ n ih =>
    rw [List.replicate_succ, List.cons_append, indentWidth, columnsOf]
    simp only [ih]
    omega

theorem indentWidth_replicate (tab n : Nat) (cs : List Char) (h : indentWidth tab cs = 0) :
    indentWidth tab (List.replicate n ' ' ++ cs) = n := by
  rw [indentWidth_spaces, h, Nat.add_zero]

/-- So many spaces are dropped whatever a tab stands for. -/
@[simp] theorem dropColumns_spaces (tab n : Nat) (cs : List Char) :
    dropColumns tab n (List.replicate n ' ' ++ cs) = cs := by
  induction n with
  | zero => cases cs <;> rfl
  | succ n ih => exact ih

theorem dropColumns_suffix (tab n : Nat) (line : Line) : dropColumns tab n line <:+ line := by
  induction line generalizing n with
  | nil => cases n <;> exact List.suffix_rfl
  | cons c cs ih =>
    cases n with
    | zero => exact List.suffix_rfl
    | succ n =>
      unfold dropColumns
      split
      · exact (ih _).trans (List.suffix_cons c cs)
      · exact List.suffix_rfl

example : indentWidth 2 " \tx".toList = 3 := by decide
example : dropColumns 4 3 "     World".toList = "  World".toList := by decide
example : dropColumns 4 5 "\t\t x".toList = " x".toList := by decide
example : dropColumns 4 2 "x".toList = "x".toList := by decide

end TemplateMarkup
