import TemplateMarkup.Text.White

/-! Remarks: the part of a line that a hash sign cuts off. -/
namespace TemplateMarkup

/-- The text before its first hash sign that opens a remark. One after a backslash is escaped and
one before a brace opens a splice. -/
def cutRemarkAfter (escaped : Bool) : List Char → List Char
  | [] => []
  | '#' :: '{' :: cs => '#' :: '{' :: cutRemarkAfter false cs
  | '#' :: cs => if escaped then '#' :: cutRemarkAfter false cs else []
  | c :: cs => c :: cutRemarkAfter (c = '\\') cs

def cutRemark (text : List Char) : List Char := cutRemarkAfter false text

/-- Nothing but white space and perhaps a remark. -/
def isRemarkOnly (text : List Char) : Bool :=
  match trimLeft text with
  | [] => true
  | c :: _ => c = '#'

@[simp] theorem cutRemark_nil : cutRemark [] = [] := rfl

example : cutRemark "Hello # note".toList = "Hello ".toList := by decide
example : cutRemark "Hi #{name}! #".toList = "Hi #{name}! ".toList := by decide
example : cutRemark "Issue \\#12".toList = "Issue \\#12".toList := by decide
example : cutRemark "a ##{x}".toList = "a ".toList := by decide

end TemplateMarkup
