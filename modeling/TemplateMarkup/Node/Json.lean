import TemplateMarkup.Json.Basic
import TemplateMarkup.Node.Basic

/-! Trees as JSON values: a node is an object with its kind as the only name. -/
namespace TemplateMarkup

mutual

def Node.toJson : Node → Json
  | .multi nodes => .object [("multi", .array (Node.listToJson nodes))]
  | .newline => .string "newline"
  | .doctype value => .object [("doctype", .string value)]
  | .tag name attrs content =>
    .object [("html_tag", .object [("name", .string name),
      ("attrs", .array (Attr.listToJson attrs)), ("content", content.toJson)])]
  | .voidTag name attrs =>
    .object [("html_tag", .object [("name", .string name),
      ("attrs", .array (Attr.listToJson attrs)), ("content", .null)])]
  | .comment content => .object [("html_comment", content.toJson)]
  | .conditional condition content =>
    .object [("cond_comment", .object [("condition", .string condition),
      ("content", content.toJson)])]
  | .embedded engine content =>
    .object [("embedded", .object [("engine", .string engine), ("content", content.toJson)])]
  | .control code content =>
    .object [("control", .object [("code", .string code), ("content", content.toJson)])]
  | .output escape code content =>
    .object [("output", .object [("escape", .bool escape), ("code", .string code),
      ("content", content.toJson)])]
  | .interpolate text => .object [("interpolate", .string text)]
  | .static text => .object [("static", .string text)]

def Node.listToJson : List Node → List Json
  | [] => []
  | node :: nodes => node.toJson :: Node.listToJson nodes

def Attr.toJson : Attr → Json
  | .shortcut name value => .object [("static", .array [.string name, .string value])]
  | .flag name => .object [("dynamic", .array [.string name, .string "true"])]
  | .valued name value =>
    .object [("dynamic", .array [.string name, .object [("node", value.toJson)]])]

def Attr.listToJson : List Attr → List Json
  | [] => []
  | attr :: attrs => attr.toJson :: Attr.listToJson attrs

end

/-- The members that describe a node, as far as they were given. -/
structure NodeParts where
  name : Option String := none
  attrs : Option (List Attr) := none
  /-- The content, which may be stated to be missing. -/
  content : Option (Option Node) := none
  condition : Option String := none
  engine : Option String := none
  code : Option String := none
  escape : Option Bool := none

/-- The node of some kind that is put together from its members. -/
def NodeParts.assemble? (p : NodeParts) (kind : String) : Option Node := do
  let content ← p.content
  match kind, content with
  | "html_tag", some content => return .tag (← p.name) (← p.attrs) content
  | "html_tag", none => return .voidTag (← p.name) (← p.attrs)
  | "cond_comment", some content => return .conditional (← p.condition) content
  | "embedded", some content => return .embedded (← p.engine) content
  | "control", some content => return .control (← p.code) content
  | "output", some content => return .output (← p.escape) (← p.code) content
  | _, _ => none

mutual

/-- The node that a JSON value stands for, if it stands for one. -/
def Node.ofJson? : Json → Option Node
  | .string "newline" => some .newline
  | .object [("multi", .array items)] => (Node.listOfJson? items).map .multi
  | .object [("doctype", .string value)] => some (.doctype value)
  | .object [("interpolate", .string text)] => some (.interpolate text)
  | .object [("static", .string text)] => some (.static text)
  | .object [("html_comment", content)] => (Node.ofJson? content).map .comment
  | .object [(kind, .object members)] => do (← Node.partsOfJson? members).assemble? kind
  | _ => none

def Node.listOfJson? : List Json → Option (List Node)
  | [] => some []
  | item :: items => do return (← Node.ofJson? item) :: (← Node.listOfJson? items)

/-- The members in any order; names that describe no node are passed over. -/
def Node.partsOfJson? : List (String × Json) → Option NodeParts
  | [] => some {}
  | (name, value) :: members => do
    let parts ← Node.partsOfJson? members
    match name, value with
    | "name", .string s => return { parts with name := some s }
    | "condition", .string s => return { parts with condition := some s }
    | "engine", .string s => return { parts with engine := some s }
    | "code", .string s => return { parts with code := some s }
    | "escape", .bool b => return { parts with escape := some b }
    | "attrs", .array items => return { parts with attrs := some (← Attr.listOfJson? items) }
    | "content", .null => return { parts with content := some none }
    | "content", value => return { parts with content := some (some (← Node.ofJson? value)) }
    | _, _ => return parts

def Attr.ofJson? : Json → Option Attr
  | .object [("static", .array [.string name, .string value])] => some (.shortcut name value)
  | .object [("dynamic", .array [.string name, .string "true"])] => some (.flag name)
  | .object [("dynamic", .array [.string name, .object [("node", value)]])] => do
    return .valued name (← Node.ofJson? value)
  | _ => none

def Attr.listOfJson? : List Json → Option (List Attr)
  | [] => some []
  | item :: items => do return (← Attr.ofJson? item) :: (← Attr.listOfJson? items)

end

end TemplateMarkup
