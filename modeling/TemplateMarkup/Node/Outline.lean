import TemplateMarkup.Node.Basic

/-! The nodes of a tree in order, and a short description of each. -/
namespace TemplateMarkup

namespace Node

mutual

/-- A node, then what is below its children, then what is below its content. -/
def preorder : Node → List Node
  | node@(multi nodes) => node :: preorderList nodes
  | node@(tag _ _ content) | node@(comment content) | node@(conditional _ content)
  | node@(embedded _ content) | node@(control _ content) | node@(output _ _ content) =>
    node :: preorder content
  | node => [node]

def preorderList : List Node → List Node
  | [] => []
  | node :: nodes => preorder node ++ preorderList nodes

end

/-- The name of a node's kind. -/
def kind : Node → String
  | multi _ => "multi"
  | newline => "newline"
  | doctype _ => "doctype"
  | tag .. | voidTag .. => "html_tag"
  | comment _ => "html_comment"
  | conditional .. => "cond_comment"
  | embedded .. => "embedded"
  | control .. => "control"
  | output .. => "output"
  | interpolate _ => "interpolate"
  | static _ => "static"

def attrs : Node → List Attr
  | tag _ attrs _ | voidTag _ attrs => attrs
  | _ => []

end Node

/-- What an outline tells of a node. -/
structure OutlineRow where
  kind : String
  children : Nat
  hasContent : Bool
  depth : Nat
  text : String
  attrNames : List String
  deriving DecidableEq

def Node.outlineRow (node : Node) : OutlineRow where
  kind := node.kind
  children := node.children.length
  hasContent := node.content?.isSome
  depth := node.depth
  text := node.text
  attrNames := node.attrs.map Attr.name

def Node.outline (node : Node) : List OutlineRow := node.preorder.map outlineRow

end TemplateMarkup
