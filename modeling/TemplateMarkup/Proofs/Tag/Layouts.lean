import TemplateMarkup.Proofs.Layout.Items
import TemplateMarkup.Proofs.Tag.Quoted
import TemplateMarkup.Proofs.WellFormed.Tree
import TemplateMarkup.Tag.Attributes

/-! Layouts of a tag: the ways in which its shortcuts and attributes may be written, the lines that
come of it, and the attributes that they stand for. -/
namespace TemplateMarkup
namespace TagLayout

/-- The brackets that attributes may stand in. -/
def bracketPairs : List (Char × Char) := [('(', ')'), ('[', ']'), ('\x7b', '\x7d')]

theorem mem_bracketPairs {opening closing : Char} (pair : closingBracket opening = some closing) :
    (opening, closing) ∈ bracketPairs := by
  unfold closingBracket at pair
  split at pair
  · cases pair; decide
  · cases pair; decide
  · cases pair; decide
  · cases pair

/-- The name of an attribute, or the value of a shortcut. -/
structure Label where
  chars : List Char
  named : isName chars = true

structure Shortcut where
  isId : Bool
  value : Label

/-- White space within a line. -/
structure Gap where
  chars : List Char
  white : isBlank chars = true
  unbroken : '\n' ∉ chars

/-- A value in quotes, or one that ends in front of white space and of `stop`. -/
inductive Value (stop : Char) where
  | quoted (quote : Char) (text : List Char) (mark : quote = '"' ∨ quote = '\'')
      (quotable : Quotable quote text) (unbroken : '\n' ∉ text)
  | bare (first : Char) (rest : List Char) (noQuote : first ≠ '"' ∧ first ≠ '\'')
      (solid : ∀ c ∈ first :: rest, isWhite c = false ∧ c ≠ stop)

inductive Attribute (stop : Char) where
  | flag (name : Label)
  /-- An attribute with a value, and the white space in front of and behind the equals sign. -/
  | valued (name : Label) (before after : Gap) (value : Value stop)

/-- An attribute and the white space in front of it. -/
structure Entry (stop : Char) where
  gap : Gap
  item : Attribute stop

/-- The part of an attribute list that stands on one line, perhaps with no attribute at all. -/
structure Row (stop : Char) where
  entries : List (Entry stop)
  apart : ∀ entry ∈ entries.tail, entry.gap.chars ≠ []
  trailing : Gap

/-- The attributes of a tag: on its own line, each behind a space, or in brackets, on that line and
any number of others. -/
inductive Listing where
  | bare (entries : List (Entry '>'))
      (apart : ∀ entry ∈ entries, entry.gap.chars.head? = some ' ')
  | enclosed (opening closing : Char) (pair : closingBracket opening = some closing)
      (rows : List (Row closing)) (last : Row closing)

/-- A tag, perhaps with an angle bracket behind its attributes. -/
structure Tag where
  name : Layout.Name
  shortcuts : List Shortcut
  listing : Listing
  angle : Bool

def Label.text (label : Label) : String := String.ofList label.chars

namespace Shortcut

def print (shortcut : Shortcut) : List Char :=
  (if shortcut.isId then '#' else '.') :: shortcut.value.chars

def attr (shortcut : Shortcut) : Attr :=
  .shortcut (if shortcut.isId then "id" else "class") shortcut.value.text

end Shortcut

variable {stop : Char}

namespace Value

def chars : Value stop → List Char
  | quoted _ text .. => text
  | bare first rest .. => first :: rest

def print : Value stop → List Char
  | quoted quote text .. => quote :: (text ++ [quote])
  | bare first rest .. => first :: rest

end Value

namespace Attribute

def print : Attribute stop → List Char
  | flag name => name.chars
  | valued name before after value =>
    name.chars ++ (before.chars ++ '=' :: (after.chars ++ value.print))

def attr : Attribute stop → Attr
  | flag name => .flag name.text
  | valued name _ _ value => .valued name.text (.interpolate (String.ofList value.chars))

end Attribute

def Entry.print (entry : Entry stop) : List Char := entry.gap.chars ++ entry.item.print

def Entry.attr (entry : Entry stop) : Attr := entry.item.attr

namespace Row

def print (row : Row stop) : Line := row.entries.flatMap Entry.print ++ row.trailing.chars

def attrs (row : Row stop) : List Attr := row.entries.map Entry.attr

end Row

/-- The rows of a list that `closer` ends, as the rest of a line and the lines below it. -/
def printRows (closer : List Char) (last : Row stop) : List (Row stop) → List Char × List Line
  | [] => (last.print ++ closer, [])
  | row :: rows =>
    let (front, below) := printRows closer last rows
    (row.print, front :: below)

theorem length_printRows (closer : List Char) (last : Row stop) (rows : List (Row stop)) :
    (printRows closer last rows).2.length = rows.length := by
  induction rows with
  | nil => rfl
  | cons row rows ih => rw [printRows, List.length_cons, List.length_cons, ih]

def attrsOf (rows : List (Row stop)) (last : Row stop) : List Attr :=
  rows.flatMap Row.attrs ++ last.attrs

namespace Listing

/-- What the listing adds to the tag's line, and the lines that follow it. -/
def print (ending : List Char) : Listing → List Char × List Line
  | bare entries _ => (entries.flatMap Entry.print ++ ending, [])
  | enclosed opening closing _ rows last =>
    let (front, below) := printRows (closing :: ending) last rows
    (opening :: front, below)

def attrs : Listing → List Attr
  | bare entries _ => entries.map Entry.attr
  | enclosed _ _ _ rows last => attrsOf rows last

end Listing

namespace Tag

/-- The start of the tag's line. -/
def start (tag : Tag) : List Char :=
  '<' :: (tag.name.chars ++ tag.shortcuts.flatMap Shortcut.print)

/-- What follows the attributes. -/
def ending (tag : Tag) : List Char := if tag.angle then ['>'] else []

def lines (tag : Tag) : List Line :=
  (tag.start ++ (tag.listing.print tag.ending).1) :: (tag.listing.print tag.ending).2

def attrs (tag : Tag) : List Attr := tag.shortcuts.map Shortcut.attr ++ tag.listing.attrs

/-- What a tag comes to, behind the line ends within its attributes. -/
def nodes (tag : Tag) : List Node :=
  List.replicate (tag.lines.length - 1) .newline ++
    [.tag tag.name.text tag.attrs (.multi [.newline])]

end Tag

end TagLayout

end TemplateMarkup
