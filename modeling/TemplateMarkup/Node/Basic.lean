/-! The tree a template is read into, and the views on it. -/
namespace TemplateMarkup

mutual

/-- A node of a template's tree. -/
inductive Node where
  | multi (children : List Node)
  /-- One line of the template ended here. -/
  | newline
  | doctype (value : String)
  | tag (name : String) (attrs : List Attr) (content : Node)
  /-- A tag that closes itself and has no content. -/
  | voidTag (name : String) (attrs : List Attr)
  | comment (content : Node)
  | conditional (condition : String) (content : Node)
  | embedded (engine : String) (content : Node)
  | control (code : String) (content : Node)
  | output (escape : Bool) (code : String) (content : Node)
  /-- Text that may hold splices. -/
  | interpolate (text : String)
  | static (text : String)

/-- An attribute of a tag. -/
inductive Attr where
  /-- An id or class written as a shortcut. -/
  | shortcut (name value : String)
  /-- A name without a value. -/
  | flag (name : String)
  | valued (name : String) (value : Node)

end

namespace Node

def children : Node → List Node
  | multi nodes => nodes
  | _ => []

def content? : Node → Option Node
  | tag _ _ content | comment content | conditional _ content | embedded _ content
  | control _ content | output _ _ content => some content
  | _ => none

mutual

/-- Containers on the deepest path below a node, the node itself counted if it is one. -/
def depth : Node → Nat
  | multi nodes => depthList nodes
  | tag _ _ content | comment content | conditional _ content | embedded _ content
  | control _ content | output _ _ content => depth content + 1
  | _ => 0

def depthList : List Node → Nat
  | [] => 0
  | node :: nodes => max (depth node) (depthList nodes)

end

mutual

/-- The pieces of text in document order; attribute values are no text. -/
def texts : Node → List String
  | multi nodes => textsOfList nodes
  | tag _ _ content | comment content | conditional _ content | embedded _ content
  | control _ content | output _ _ content => texts content
  | interpolate text | static text => [text]
  | _ => []

def textsOfList : List Node → List String
  | [] => []
  | node :: nodes => texts node ++ textsOfList nodes

end

def text (node : Node) : String := String.join node.texts

example : (multi [static "a", tag "b" [] (multi [interpolate "c"])]).text = "ac" := by decide

end Node

def Attr.name : Attr → String
  | shortcut name _ | flag name | valued name _ => name

end TemplateMarkup
