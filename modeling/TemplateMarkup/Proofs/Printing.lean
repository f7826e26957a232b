import TemplateMarkup.Node.Json
import TemplateMarkup.Proofs.AllOrNothing
import TemplateMarkup.Proofs.Json.Pretty

/-! What is printed for trees is unambiguous: it is a JSON text that stands for the same trees. -/
namespace TemplateMarkup
open Json

theorem Node.toJson_ne_null (node : Node) : node.toJson ≠ .null := by
  cases node <;> simp [Node.toJson]

/-- The JSON value of a node is no null, which would say that the content is missing. -/
theorem Node.partsOfJson?_content {content : Node}
    (decoded : Node.ofJson? content.toJson = some content) :
    Node.partsOfJson? [("content", content.toJson)] =
      some { content := some (some content) } := by
  have filled := content.toJson_ne_null
  generalize content.toJson = value at decoded filled ⊢
  rw [Node.partsOfJson?, Node.partsOfJson?]
  cases value with
  | null => exact absurd rfl filled
  | bool | number | string | array | object => simp [decoded]

/-- A node that is described by members is put together from them. -/
theorem Node.ofJson?_members {kind : String} (other : kind ≠ "html_comment")
    (members : List (String × Json)) :
    Node.ofJson? (.object [(kind, .object members)]) =
      (Node.partsOfJson? members).bind (NodeParts.assemble? · kind) := by
  rw [Node.ofJson?]
  · rfl
  · exact other

mutual

theorem Node.ofJson?_toJson (node : Node) : Node.ofJson? node.toJson = some node := by
  match node with
  | .multi nodes => simp [Node.toJson, Node.ofJson?, Node.listOfJson?_listToJson nodes]
  | .newline => simp [Node.toJson, Node.ofJson?]
  | .doctype value => simp [Node.toJson, Node.ofJson?]
  | .tag name attrs content =>
    have inside := Node.partsOfJson?_content (Node.ofJson?_toJson content)
    rw [Node.toJson, Node.ofJson?_members (by decide), Node.partsOfJson?, Node.partsOfJson?, inside]
    simp [NodeParts.assemble?, Attr.listOfJson?_listToJson attrs]
  | .voidTag name attrs =>
    rw [Node.toJson, Node.ofJson?_members (by decide)]
    simp [Node.partsOfJson?, NodeParts.assemble?, Attr.listOfJson?_listToJson attrs]
  | .comment content => simp [Node.toJson, Node.ofJson?, Node.ofJson?_toJson content]
  | .conditional condition content =>
    have inside := Node.partsOfJson?_content (Node.ofJson?_toJson content)
    rw [Node.toJson, Node.ofJson?_members (by decide), Node.partsOfJson?, inside]
    simp [NodeParts.assemble?]
  | .embedded engine content =>
    have inside := Node.partsOfJson?_content (Node.ofJson?_toJson content)
    rw [Node.toJson, Node.ofJson?_members (by decide), Node.partsOfJson?, inside]
    simp [NodeParts.assemble?]
  | .control code content =>
    have inside := Node.partsOfJson?_content (Node.ofJson?_toJson content)
    rw [Node.toJson, Node.ofJson?_members (by decide), Node.partsOfJson?, inside]
    simp [NodeParts.assemble?]
  | .output escape code content =>
    have inside := Node.partsOfJson?_content (Node.ofJson?_toJson content)
    rw [Node.toJson, Node.ofJson?_members (by decide), Node.partsOfJson?, Node.partsOfJson?, inside]
    simp [NodeParts.assemble?]
  | .interpolate text => simp [Node.toJson, Node.ofJson?]
  | .static text => simp [Node.toJson, Node.ofJson?]

theorem Node.listOfJson?_listToJson (nodes : List Node) :
    Node.listOfJson? (Node.listToJson nodes) = some nodes := by
  match nodes with
  | [] => rfl
  | node :: nodes =>
    simp [Node.listToJson, Node.listOfJson?, Node.ofJson?_toJson node,
      Node.listOfJson?_listToJson nodes]

theorem Attr.ofJson?_toJson (attr : Attr) : Attr.ofJson? attr.toJson = some attr := by
  match attr with
  | .shortcut name value => simp [Attr.toJson, Attr.ofJson?]
  | .flag name => simp [Attr.toJson, Attr.ofJson?]
  | .valued name value => simp [Attr.toJson, Attr.ofJson?, Node.ofJson?_toJson value]

theorem Attr.listOfJson?_listToJson (attrs : List Attr) :
    Attr.listOfJson? (Attr.listToJson attrs) = some attrs := by
  match attrs with
  | [] => rfl
  | attr :: attrs =>
    simp [Attr.listToJson, Attr.listOfJson?, Attr.ofJson?_toJson attr,
      Attr.listOfJson?_listToJson attrs]

end

mutual

/-- Trees are printed without numbers. -/
theorem Node.numerals_toJson (node : Node) : node.toJson.numerals = [] := by
  match node with
  | .multi nodes =>
    simp [Node.toJson, numerals, numeralsOfMembers, Node.numerals_listToJson nodes]
  | .newline => rfl
  | .doctype value => rfl
  | .tag name attrs content =>
    simp [Node.toJson, numerals, numeralsOfMembers, Attr.numerals_listToJson attrs,
      Node.numerals_toJson content]
  | .voidTag name attrs =>
    simp [Node.toJson, numerals, numeralsOfMembers, Attr.numerals_listToJson attrs]
  | .comment content | .conditional _ content | .embedded _ content | .control _ content
  | .output _ _ content =>
    simp [Node.toJson, numerals, numeralsOfMembers, Node.numerals_toJson content]
  | .interpolate text => rfl
  | .static text => rfl

theorem Node.numerals_listToJson (nodes : List Node) :
    numeralsOfItems (Node.listToJson nodes) = [] := by
  match nodes with
  | [] => rfl
  | node :: nodes =>
    simp [Node.listToJson, numeralsOfItems, Node.numerals_toJson node,
      Node.numerals_listToJson nodes]

theorem Attr.numerals_toJson (attr : Attr) : attr.toJson.numerals = [] := by
  match attr with
  | .shortcut name value => rfl
  | .flag name => rfl
  | .valued name value =>
    simp [Attr.toJson, numerals, numeralsOfItems, numeralsOfMembers, Node.numerals_toJson value]

theorem Attr.numerals_listToJson (attrs : List Attr) :
    numeralsOfItems (Attr.listToJson attrs) = [] := by
  match attrs with
  | [] => rfl
  | attr :: attrs =>
    simp [Attr.listToJson, numeralsOfItems, Attr.numerals_toJson attr,
      Attr.numerals_listToJson attrs]

end

/-- The JSON object of some trees by their paths. -/
def answerJson (files : List (String × Node)) : Json :=
  .object (files.map fun (path, tree) => (path, tree.toJson))

/-- The trees by their paths that a JSON object stands for. -/
def answerOfJson? : Json → Option (List (String × Node))
  | .object members =>
    members.mapM fun (path, value) => (Node.ofJson? value).map fun tree => (path, tree)
  | _ => none

theorem answerOfJson?_answerJson (files : List (String × Node)) :
    answerOfJson? (answerJson files) = some files := by
  induction files with
  | nil => rfl
  | cons file files ih =>
    obtain ⟨path, tree⟩ := file
    rw [answerJson, answerOfJson?] at ih ⊢
    rw [List.map_cons, List.mapM_cons, ih]
    simp only [Node.ofJson?_toJson]
    rfl

theorem numerals_answerJson (files : List (String × Node)) : (answerJson files).numerals = [] := by
  induction files with
  | nil => rfl
  | cons file files ih =>
    rw [answerJson, numerals] at ih ⊢
    rw [List.map_cons, numeralsOfMembers, Node.numerals_toJson, ih, List.nil_append]

theorem parse_pretty_toJson (node : Node) : Json.parse node.toJson.pretty = .ok node.toJson := by
  refine (written_pretty ?_).1.parse ?_ <;>
    · rw [node.numerals_toJson]
      nofun

/-- The answer for some trees is read back with the line end behind it. -/
theorem parse_answer (files : List (String × Node)) :
    Json.parse ((answerJson files).pretty ++ "\n") = .ok (answerJson files) := by
  refine (written_pretty ?_).2.parse ?_ <;>
    · rw [numerals_answerJson]
      nofun

theorem Disk.Members.exists_trees {disk : Disk} {settings : Settings} {paths : List String}
    {members : List (String × Json)} (h : disk.Members settings paths members) :
    ∃ files, Json.object members = answerJson files ∧ files.map Prod.fst = paths.eraseDups ∧
      ∀ path tree, (path, tree) ∈ files → disk.FileTree settings path tree := by
  obtain ⟨keys, values⟩ := h
  rw [← keys]
  clear keys
  induction members with
  | nil => exact ⟨[], rfl, rfl, nofun⟩
  | cons member members ih =>
    obtain ⟨path, value⟩ := member
    obtain ⟨tree, read, rfl⟩ := values path value List.mem_cons_self
    obtain ⟨files, same, names, trees⟩ :=
      ih fun path value mem => values path value (List.mem_cons_of_mem _ mem)
    refine ⟨(path, tree) :: files, ?_, by rw [List.map_cons, names, List.map_cons], ?_⟩
    · rw [answerJson] at same ⊢
      rw [List.map_cons, ← Json.object.inj same]
    · intro path' tree' mem
      rcases List.mem_cons.1 mem with first | other
      · cases first
        exact read
      · exact trees path' tree' other

/-- What the command answers decodes to the trees of the files that it found. -/
theorem answer_decodes {disk : Disk} {i : Invocation} {text : String} {count : Nat}
    (h : i.answer disk = .ok (text, count)) :
    ∃ settings paths value files, disk.Configured i settings ∧
      disk.listTemplates i.inputs = .ok paths ∧ Json.parse text = .ok value ∧
      answerOfJson? value = some files ∧ files.map Prod.fst = paths.eraseDups ∧
      ∀ path tree, (path, tree) ∈ files → disk.FileTree settings path tree := by
  obtain ⟨settings, paths, members, configured, listed, -, all, rfl, -⟩ := Disk.answer_ok h
  obtain ⟨files, same, names, trees⟩ := all.exists_trees
  rw [same]
  exact ⟨settings, paths, _, files, configured, listed, parse_answer files,
    answerOfJson?_answerJson files, names, trees⟩

/-- Printing loses nothing. The text of any tree is JSON that decodes to that tree, and so is the
answer for any trees by their paths; so different trees have different texts, also when they are
printed together. -/
theorem printed_unambiguous :
    (∀ node : Node, ∃ value, Json.parse node.toJson.pretty = .ok value ∧
      Node.ofJson? value = some node) ∧
    (∀ files : List (String × Node), ∃ value,
      Json.parse ((answerJson files).pretty ++ "\n") = .ok value ∧ answerOfJson? value = some files) ∧
    Function.Injective (fun node : Node => node.toJson.pretty) ∧
    Function.Injective fun files => (answerJson files).pretty ++ "\n" := by
  refine ⟨fun node => ⟨_, parse_pretty_toJson node, node.ofJson?_toJson⟩,
    fun files => ⟨_, parse_answer files, answerOfJson?_answerJson files⟩, ?_, ?_⟩
  · intro node other same
    have value : node.toJson = other.toJson := Except.ok.inj <|
      (parse_pretty_toJson node).symm.trans <|
        (congrArg Json.parse same).trans (parse_pretty_toJson other)
    have decoded := node.ofJson?_toJson
    rw [value, other.ofJson?_toJson] at decoded
    exact (Option.some.inj decoded).symm
  · intro files others same
    have value : answerJson files = answerJson others := Except.ok.inj <|
      (parse_answer files).symm.trans ((congrArg Json.parse same).trans (parse_answer others))
    have decoded := answerOfJson?_answerJson files
    rw [value, answerOfJson?_answerJson] at decoded
    exact (Option.some.inj decoded).symm

end TemplateMarkup
