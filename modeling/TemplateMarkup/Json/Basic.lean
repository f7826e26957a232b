/-! JSON values and their indented text. -/
namespace TemplateMarkup

/-- A number as it is written; an empty part is absent, and an exponent keeps its sign. -/
structure Numeral where
  negative : Bool := false
  whole : List Char
  fraction : List Char := []
  exponent : List Char := []
  deriving DecidableEq

/-- A JSON value. The members of an object are kept in order. -/
inductive Json where
  | null
  | bool (value : Bool)
  | number (numeral : Numeral)
  | string (value : String)
  | array (items : List Json)
  | object (members : List (String × Json))

def Numeral.chars (n : Numeral) : List Char :=
  (if n.negative then ['-'] else []) ++ n.whole ++
  (if n.fraction.isEmpty then [] else '.' :: n.fraction) ++
  (if n.exponent.isEmpty then [] else 'e' :: n.exponent)

namespace Json

/-- How a character stands in a string: only quotes, backslashes and control characters below
the space are escaped. -/
def escape (c : Char) : List Char :=
  if c = '"' then ['\\', '"']
  else if c = '\\' then ['\\', '\\']
  else if c.toNat < 32 then
    if c = '\n' then ['\\', 'n']
    else if c = '\r' then ['\\', 'r']
    else if c = '\t' then ['\\', 't']
    else if c.toNat = 8 then ['\\', 'b']
    else if c.toNat = 12 then ['\\', 'f']
    else ['\\', 'u', '0', '0', Nat.digitChar (c.toNat / 16), Nat.digitChar (c.toNat % 16)]
  else [c]

def quote (s : String) : List Char := '"' :: (s.toList.flatMap escape ++ ['"'])

/-- A line end and the indentation of the next line. -/
def newLine (margin : Nat) : List Char := '\n' :: List.replicate margin ' '

mutual

/-- The text of a value whose first line is indented by `margin`: two more spaces for each level,
one line for each item or member, and empty containers without a line end. -/
def indented (margin : Nat) : Json → List Char
  | null => ['n', 'u', 'l', 'l']
  | bool true => ['t', 'r', 'u', 'e']
  | bool false => ['f', 'a', 'l', 's', 'e']
  | number numeral => numeral.chars
  | string value => quote value
  | array [] => ['[', ']']
  | array (item :: items) =>
    '[' :: (newLine (margin + 2) ++ indented (margin + 2) item ++
      indentedItems (margin + 2) items ++ newLine margin ++ [']'])
  | object [] => ['{', '}']
  | object ((name, value) :: members) =>
    '{' :: (newLine (margin + 2) ++ quote name ++ ':' :: ' ' :: indented (margin + 2) value ++
      indentedMembers (margin + 2) members ++ newLine margin ++ ['}'])

/-- Further items, each after a comma and a line end. -/
def indentedItems (margin : Nat) : List Json → List Char
  | [] => []
  | item :: items => ',' :: (newLine margin ++ indented margin item ++ indentedItems margin items)

/-- Further members, each after a comma and a line end. -/
def indentedMembers (margin : Nat) : List (String × Json) → List Char
  | [] => []
  | (name, value) :: members =>
    ',' :: (newLine margin ++ quote name ++ ':' :: ' ' :: indented margin value ++
      indentedMembers margin members)

end

def pretty (value : Json) : String := String.ofList (indented 0 value)

example : (array [array [], object [("a", bool true)], null]).pretty =
    "[\n  [],\n  \x7b\n    \"a\": true\n  \x7d,\n  null\n]" := by decide
example : (string "\"\\ \n\x01\x7f").pretty = "\"\\\"\\\\ \\n\\u0001\x7f\"" := by decide

end Json

end TemplateMarkup
