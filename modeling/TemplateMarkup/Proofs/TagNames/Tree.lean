import TemplateMarkup.Proofs.Builder.Renamed
import TemplateMarkup.Proofs.Chronicle

/-! The tags of a tree in document order, and other names for some of them. -/
namespace TemplateMarkup
namespace Node

mutual

/-- The names and attributes of the tags in document order. -/
def tags : Node → List (String × List Attr)
  | multi nodes => tagsOfList nodes
  | tag name attrs content => (name, attrs) :: tags content
  | voidTag name attrs => [(name, attrs)]
  | comment content | conditional _ content | embedded _ content | control _ content
  | output _ _ content => tags content
  | _ => []

def tagsOfList : List Node → List (String × List Attr)
  | [] => []
  | node :: nodes => tags node ++ tagsOfList nodes

end

mutual

/-- The tree with the name `x` for some of its tags. One mark for each tag, in document order, says
whether it is one of them. -/
def retag (x : String) (marks : List Bool) : Node → Node
  | multi nodes => multi (retagList x marks nodes)
  | tag name attrs content =>
    tag (if marks.headD false then x else name) attrs (retag x marks.tail content)
  | voidTag name attrs => voidTag (if marks.headD false then x else name) attrs
  | comment content => comment (retag x marks content)
  | conditional condition content => conditional condition (retag x marks content)
  | embedded engine content => embedded engine (retag x marks content)
  | control code content => control code (retag x marks content)
  | output escape code content => output escape code (retag x marks content)
  | node => node

def retagList (x : String) (marks : List Bool) : List Node → List Node
  | [] => []
  | node :: nodes => retag x marks node :: retagList x (marks.drop node.tags.length) nodes

end

example : retag "i" [true, false, true] (multi [tag "a" [] (voidTag "b" []), voidTag "c" []]) =
    multi [tag "i" [] (voidTag "b" []), voidTag "i" []] := by rfl

end Node

/-- The tag that a step of a walk comes to. -/
def Visit.tag? : Visit → Option (String × List Attr)
  | leaf (.voidTag name attrs) => some (name, attrs)
  | enter (.tag name attrs) => some (name, attrs)
  | enter (.outputTag name attrs _ _) => some (name, attrs)
  | _ => none

namespace Node

theorem filterMap_entered (owner : Owner) (inner : List Visit) :
    (.enter owner :: (inner ++ [.leave])).filterMap Visit.tag? =
      (Visit.enter owner).tag?.toList ++ inner.filterMap Visit.tag? := by
  have left : (inner ++ [Visit.leave]).filterMap Visit.tag? = inner.filterMap Visit.tag? := by
    rw [List.filterMap_append]
    exact List.append_nil _
  rw [List.filterMap_cons, left]
  cases (Visit.enter owner).tag? <;> rfl

mutual

/-- A walk through a tree comes to its tags. -/
theorem filterMap_walk : ∀ node : Node, node.walk.filterMap Visit.tag? = node.tags
  | multi nodes => filterMap_walkList nodes
  | tag name attrs content => by
    have inner := filterMap_walk content
    have entered := (filterMap_entered (.tag name attrs) content.walk).trans
      (congrArg ((name, attrs) :: ·) inner)
    cases content
    case output escape code content =>
      -- The walk enters the tag and the output in it by one step.
      have both := filterMap_entered (.outputTag name attrs escape code) content.walk
      have output := filterMap_entered (.output escape code) content.walk
      exact both.trans (congrArg ((name, attrs) :: ·) (output.symm.trans inner))
    all_goals exact entered
  | comment content | conditional _ content | embedded _ content | control _ content
  | output _ _ content => by
    rw [walk, filterMap_entered, filterMap_walk content]
    rfl
  | voidTag _ _ | newline | doctype _ | interpolate _ | static _ => rfl

theorem filterMap_walkList : ∀ nodes : List Node,
    (walkList nodes).filterMap Visit.tag? = tagsOfList nodes
  | [] => rfl
  | node :: nodes => by
    rw [walkList, List.filterMap_append, filterMap_walk node, filterMap_walkList nodes, tagsOfList]

end

variable {f : String → String}

mutual

theorem tags_rename : ∀ node : Node, (node.rename f).tags = node.tags.map (Prod.map f id)
  | multi nodes => tags_renameList nodes
  | tag _ _ content => congrArg (_ :: ·) (tags_rename content)
  | comment content | conditional _ content | embedded _ content | control _ content
  | output _ _ content => tags_rename content
  | voidTag _ _ | newline | doctype _ | interpolate _ | static _ => rfl

theorem tags_renameList : ∀ nodes : List Node,
    tagsOfList (renameList f nodes) = (tagsOfList nodes).map (Prod.map f id)
  | [] => rfl
  | node :: nodes => by
    rw [renameList, tagsOfList, tagsOfList, tags_rename node, tags_renameList nodes,
      List.map_append]

end

end Node

/-- Puts a name in the place of another. -/
def fillName (hole x name : String) : String := if name = hole then x else name

namespace Node

/-- Which tags have some name. -/
def marksOf (hole : String) (tags : List (String × List Attr)) : List Bool :=
  tags.map fun tag => tag.1 = hole

variable (hole x y : String)

theorem fillName_of_mark (name : String) :
    (if decide (name = hole) then x else fillName hole y name) = fillName hole x name := by
  unfold fillName
  split <;> simp_all

mutual

/-- What was put in the place of a name may be replaced by what else might have been. -/
theorem retag_rename : ∀ (node : Node) (more : List Bool),
    (node.rename (fillName hole y)).retag x (marksOf hole node.tags ++ more) =
      node.rename (fillName hole x)
  | multi nodes, more => congrArg multi (retag_renameList nodes more)
  | tag name attrs content, more =>
    congrArg₂ (tag · attrs ·) (fillName_of_mark hole x y name) (retag_rename content more)
  | voidTag name attrs, _ => congrArg (voidTag · attrs) (fillName_of_mark hole x y name)
  | comment content, more => congrArg comment (retag_rename content more)
  | conditional _ content, more => congrArg (conditional _) (retag_rename content more)
  | embedded _ content, more => congrArg (embedded _) (retag_rename content more)
  | control _ content, more => congrArg (control _) (retag_rename content more)
  | output _ _ content, more => congrArg (output _ _) (retag_rename content more)
  | newline, _ | doctype _, _ | interpolate _, _ | static _, _ => rfl

theorem retag_renameList : ∀ (nodes : List Node) (more : List Bool),
    retagList x (marksOf hole (tagsOfList nodes) ++ more) (renameList (fillName hole y) nodes) =
      renameList (fillName hole x) nodes
  | [], _ => rfl
  | node :: nodes, more => by
    have first := retag_rename node (marksOf hole (tagsOfList nodes) ++ more)
    have others := retag_renameList nodes more
    have count : (node.rename (fillName hole y)).tags.length = (marksOf hole node.tags).length := by
      rw [tags_rename, List.length_map, marksOf, List.length_map]
    have split : marksOf hole (tagsOfList (node :: nodes)) ++ more =
        marksOf hole node.tags ++ (marksOf hole (tagsOfList nodes) ++ more) := by
      rw [tagsOfList, marksOf, List.map_append, List.append_assoc]
      rfl
    rw [renameList, retagList, split, first, count, List.drop_left, others, renameList]

end

end Node

end TemplateMarkup
