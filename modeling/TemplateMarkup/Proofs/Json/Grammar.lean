import TemplateMarkup.Json.Reader

/-! The grammar of JSON texts: all the ways in which a value can be written. White space may stand
around every value and name, characters of a string may be escaped, and the members of an object
come in any order and as often as they like. -/
namespace TemplateMarkup

namespace Numeral

/-- Digits, of which there is one at least. -/
structure IsDigits (cs : List Char) : Prop where
  filled : cs ≠ []
  digits : ∀ c ∈ cs, c.isDigit = true

/-- The digits of an exponent, perhaps behind a sign. -/
inductive IsExponent : List Char → Prop
  | plain {cs : List Char} (digits : IsDigits cs) : IsExponent cs
  | signed {sign : Char} {cs : List Char} (signs : sign = '+' ∨ sign = '-') (digits : IsDigits cs) :
      IsExponent (sign :: cs)

/-- A number that can be written; a zero in front stands alone. -/
structure IsProper (n : Numeral) : Prop where
  whole : IsDigits n.whole
  zero : n.whole.head? = some '0' → n.whole = ['0']
  fraction : n.fraction = [] ∨ IsDigits n.fraction
  exponent : n.exponent = [] ∨ IsExponent n.exponent

/-- The text of a number with some mark in front of its exponent. -/
def written (n : Numeral) (mark : Char) : List Char :=
  (if n.negative then ['-'] else []) ++ (n.whole ++
    ((if n.fraction.isEmpty then [] else '.' :: n.fraction) ++
      (if n.exponent.isEmpty then [] else mark :: n.exponent)))

end Numeral

namespace Json

/-- White space between two parts of a text. -/
def IsGap (gap : List Char) : Prop := ∀ c ∈ gap, isSpace c = true

instance (gap : List Char) : Decidable (IsGap gap) :=
  decidable_of_iff (gap.all isSpace = true) List.all_eq_true

/-- A hexadecimal digit, in either case, and its value. -/
inductive HexDigit : Nat → Char → Prop
  | lower {n : Nat} (small : n < 16) : HexDigit n (Nat.digitChar n)
  | upper {n : Nat} (small : n < 16) : HexDigit n (Nat.digitChar n).toUpper

/-- Four hexadecimal digits of a number, the highest first. -/
inductive HexDigits (n : Nat) : List Char → Prop
  | mk {a b c d : Char} (first : HexDigit (n / 4096) a) (second : HexDigit (n / 256 % 16) b)
      (third : HexDigit (n / 16 % 16) c) (fourth : HexDigit (n % 16) d) : HexDigits n [a, b, c, d]

/-- The escapes of one letter, with what they stand for. -/
def shortEscapes : List (Char × Char) :=
  [('"', '"'), ('\\', '\\'), ('/', '/'), ('b', '\x08'), ('f', '\x0c'), ('n', '\n'), ('r', '\r'),
    ('t', '\t')]

/-- How a character can be written in a string. -/
inductive CharText (c : Char) : List Char → Prop
  | plain (visible : 32 ≤ c.toNat) (quoteless : c ≠ '"') (slashless : c ≠ '\\') : CharText c [c]
  | short {letter : Char} (known : (letter, c) ∈ shortEscapes) : CharText c ['\\', letter]
  | code {hex : List Char} (digits : HexDigits c.toNat hex) : CharText c ('\\' :: 'u' :: hex)
  /-- Two surrogates stand for a character whose number is too high for four digits. -/
  | pair {lead trail : Nat} {front back : List Char} (first : HexDigits lead front)
      (second : HexDigits trail back) (leads : 0xD800 ≤ lead ∧ lead ≤ 0xDBFF)
      (trails : 0xDC00 ≤ trail ∧ trail ≤ 0xDFFF)
      (value : c.toNat = 0x10000 + (lead - 0xD800) * 0x400 + (trail - 0xDC00)) :
      CharText c ('\\' :: 'u' :: (front ++ '\\' :: 'u' :: back))

/-- How the characters of a string can be written one after the other. -/
inductive CharsText : List Char → List Char → Prop
  | nil : CharsText [] []
  | cons {c : Char} {cs here below : List Char} (first : CharText c here)
      (others : CharsText cs below) : CharsText (c :: cs) (here ++ below)

/-- How a value that is no container can be written. -/
inductive AtomText : Json → List Char → Prop
  | null : AtomText null ['n', 'u', 'l', 'l']
  | yes : AtomText (bool true) ['t', 'r', 'u', 'e']
  | no : AtomText (bool false) ['f', 'a', 'l', 's', 'e']
  | number {n : Numeral} {mark : Char} (proper : n.IsProper) (marks : mark = 'e' ∨ mark = 'E') :
      AtomText (number n) (n.written mark)
  | string {s : String} {text : List Char} (chars : CharsText s.toList text) :
      AtomText (string s) ('"' :: (text ++ ['"']))

/-- How the name of a member can be written, with the colon behind it. -/
inductive NameText (name : String) : List Char → Prop
  | mk {before text after : List Char} (front : IsGap before) (chars : CharsText name.toList text)
      (back : IsGap after) : NameText name (before ++ '"' :: (text ++ '"' :: (after ++ [':'])))

mutual

/-- How a value can be written. -/
inductive Text : Json → List Char → Prop
  | atom {value : Json} {text : List Char} (atom : AtomText value text) : Text value text
  | emptyArray {gap : List Char} (inside : IsGap gap) : Text (array []) ('[' :: (gap ++ [']']))
  | array {items : List Json} {text : List Char} (inside : ItemsText items text) :
      Text (array items) ('[' :: text)
  | emptyObject {gap : List Char} (inside : IsGap gap) : Text (object []) ('{' :: (gap ++ ['}']))
  | object {members : List (String × Json)} {text : List Char} (inside : MembersText members text) :
      Text (object members) ('{' :: text)

/-- How the items of an array that has some can be written, with the bracket behind them. -/
inductive ItemsText : List Json → List Char → Prop
  | last {item : Json} {before text after : List Char} (front : IsGap before)
      (here : Text item text) (back : IsGap after) :
      ItemsText [item] (before ++ (text ++ (after ++ [']'])))
  | cons {item : Json} {items : List Json} {before text after below : List Char}
      (front : IsGap before) (here : Text item text) (back : IsGap after)
      (others : ItemsText items below) :
      ItemsText (item :: items) (before ++ (text ++ (after ++ ',' :: below)))

/-- How the members of an object that has some can be written, with the brace behind them. -/
inductive MembersText : List (String × Json) → List Char → Prop
  | last {name : String} {value : Json} {label before text after : List Char}
      (named : NameText name label) (front : IsGap before) (here : Text value text)
      (back : IsGap after) :
      MembersText [(name, value)] (label ++ (before ++ (text ++ (after ++ ['}']))))
  | cons {name : String} {value : Json} {members : List (String × Json)}
      {label before text after below : List Char} (named : NameText name label)
      (front : IsGap before) (here : Text value text) (back : IsGap after)
      (others : MembersText members below) :
      MembersText ((name, value) :: members) (label ++ (before ++ (text ++ (after ++ ',' :: below))))

end

/-- A source that is a text of one value, with white space around it or none. -/
inductive Written (value : Json) : String → Prop
  | mk {before text after : List Char} (front : IsGap before) (here : Text value text)
      (back : IsGap after) : Written value (String.ofList (before ++ (text ++ after)))

mutual

/-- The numbers in a value. -/
def numerals : Json → List Numeral
  | number numeral => [numeral]
  | array items => numeralsOfItems items
  | object members => numeralsOfMembers members
  | _ => []

def numeralsOfItems : List Json → List Numeral
  | [] => []
  | item :: items => numerals item ++ numeralsOfItems items

def numeralsOfMembers : List (String × Json) → List Numeral
  | [] => []
  | (_, value) :: members => numerals value ++ numeralsOfMembers members

end

end Json
end TemplateMarkup
