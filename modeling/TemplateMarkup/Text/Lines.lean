import TemplateMarkup.Text.White

/-! Cutting a text into lines. -/
namespace TemplateMarkup

/-- The line whose characters were read in reverse; a return before the line end belongs to it. -/
def closeLine : List Char → Line
  | '\r' :: before => before.reverse
  | before => before.reverse

/-- The lines of `before.reverse ++ text`, where `before` holds no line end. A last line that is
empty is none. -/
def linesFrom (before : List Char) : List Char → List Line
  | [] => if before.isEmpty then [] else [before.reverse]
  | '\n' :: text => closeLine before :: linesFrom [] text
  | c :: text => linesFrom (c :: before) text

def linesOf (text : List Char) : List Line := linesFrom [] text

@[simp] theorem linesOf_nil : linesOf [] = [] := rfl

theorem linesFrom_append (before text more : List Char) :
    linesFrom before (text ++ '\n' :: more) = linesFrom before (text ++ ['\n']) ++ linesOf more := by
  induction text generalizing before with
  | nil => simp [linesFrom, linesOf]
  | cons c text ih =>
    by_cases hc : c = '\n'
    · subst hc; simpa [linesFrom] using ih []
    · simpa [linesFrom, hc] using ih (c :: before)

/-- A text that ends a line adds its lines in front of those that follow. -/
theorem linesOf_append (text more : List Char) :
    linesOf (text ++ '\n' :: more) = linesOf (text ++ ['\n']) ++ linesOf more :=
  linesFrom_append [] text more

example : linesOf "a\r\n\rb\n\nc\r".toList = [['a'], ['\r', 'b'], [], ['c', '\r']] := by decide
example : linesOf "a\n".toList = [['a']] := by decide

end TemplateMarkup
