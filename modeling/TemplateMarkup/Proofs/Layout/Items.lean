import TemplateMarkup.Line.Head
import TemplateMarkup.Node.Basic
import TemplateMarkup.Proofs.Text.Words

/-! Layouts: forests of blocks and void tags, the lines they are printed as, and the nodes they stand
for. -/
namespace TemplateMarkup
namespace Layout

/-- A tag name of word characters and hyphens that starts with no hyphen. -/
structure Name where
  first : Char
  rest : List Char
  word : isWord first = true
  plain : ∀ c ∈ rest, isWord c = true ∨ c = '-'

/-- A text on one line without white space around it. -/
structure Phrase where
  chars : List Char
  trimmed : trim chars = chars
  unbroken : '\n' ∉ chars

/-- Code that does not go on with the next line. -/
structure Code extends Phrase where
  complete : chars.getLast? ≠ some '\\'

/-- What opens a block. -/
inductive Header where
  | tag (name : Name)
  | control (code : Code)
  | output (escape : Bool) (code : Code)
  | conditional (condition : Phrase)

/-- A node of a layout. The items of a block stand `step + 1` columns deeper than the block, so they
may stand at any width that is greater than its own. -/
inductive Item where
  | block (header : Header) (step : Nat) (items : List Item)
  | void (name : Name)

namespace Name

def chars (name : Name) : List Char := name.first :: name.rest

def text (name : Name) : String := String.ofList name.chars

/-- The tag of this name that closes itself. -/
def printVoid (name : Name) : Line := '<' :: (name.chars ++ ['/', '>'])

end Name

def Phrase.text (phrase : Phrase) : String := String.ofList phrase.chars

namespace Header

/-- Code is printed with an apostrophe, which keeps its value from being set apart. -/
def print : Header → Line
  | tag name => '<' :: name.chars
  | control code => '-' :: ' ' :: code.chars
  | output true code => '=' :: '\'' :: ' ' :: code.chars
  | output false code => '=' :: '=' :: '\'' :: ' ' :: code.chars
  | conditional condition => '#' :: '[' :: (condition.chars ++ [']'])

/-- The node of a block with some content. -/
def node (content : Node) : Header → Node
  | tag name => .tag name.text [] content
  | control code => .control code.text content
  | output escape code => .output escape code.text content
  | conditional condition => .conditional condition.text content

end Header

/-- A line at some width. -/
def indent (width : Nat) (cs : List Char) : Line := List.replicate width ' ' ++ cs

mutual

/-- The lines of an item that stands at some width, one for each node. -/
def Item.print (width : Nat) : Item → List Line
  | .block header step items => indent width header.print :: printItems (width + step + 1) items
  | .void name => [indent width name.printVoid]

def printItems (width : Nat) : List Item → List Line
  | [] => []
  | item :: items => item.print width ++ printItems width items

end

mutual

/-- The nodes that an item stands for, with the ends of its lines. -/
def Item.nodes : Item → List Node
  | .block header _ items => [header.node (.multi (.newline :: nodesOf items))]
  | .void name => [.voidTag name.text [], .newline]

def nodesOf : List Item → List Node
  | [] => []
  | item :: items => item.nodes ++ nodesOf items

end

end Layout

end TemplateMarkup
