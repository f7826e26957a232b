import TemplateMarkup.Node.Basic

/-! Nodes whose content is still being read. -/
namespace TemplateMarkup

/-- A node that lacks its content. -/
inductive Owner where
  | tag (name : String) (attrs : List Attr)
  /-- A tag whose content is the output of some code. -/
  | outputTag (name : String) (attrs : List Attr) (escape : Bool) (code : String)
  | control (code : String)
  | output (escape : Bool) (code : String)
  | comment
  | conditional (condition : String)
  | embedded (engine : String)

/-- The node that `owner` becomes around its content. -/
def Owner.enclose (owner : Owner) (nodes : List Node) : Node :=
  let content := Node.multi nodes
  match owner with
  | tag name attrs => .tag name attrs content
  | outputTag name attrs escape code => .tag name attrs (.output escape code content)
  | control code => .control code content
  | output escape code => .output escape code content
  | comment => .comment content
  | conditional condition => .conditional condition content
  | embedded engine => .embedded engine content

end TemplateMarkup
