/-! Paths: their components, their order, and the names of template files. -/
namespace TemplateMarkup

/-- A component of a path, in the order in which kinds of components sort. -/
inductive Component where
  | root
  /-- A leading dot. -/
  | here
  | parent
  | name (s : String)
  deriving DecidableEq

/-- The texts between the slashes. -/
def pieces : List Char → List (List Char)
  | [] => [[]]
  | c :: cs =>
    if c = '/' then [] :: pieces cs
    else
      match pieces cs with
      | [] => [[c]]
      | piece :: more => (c :: piece) :: more

def Component.ofPiece (piece : List Char) : Component :=
  if piece = ['.'] then here
  else if piece = ['.', '.'] then parent
  else name (String.ofList piece)

/-- The components that count when paths are compared. Slashes may repeat and end a path, and a dot
counts only at the start. -/
def pathComponents (path : String) : List Component :=
  let components := (pieces path.toList).filter (· ≠ []) |>.map Component.ofPiece
  match path.toList, components with
  | '/' :: _, cs => .root :: cs.filter (· ≠ .here)
  | _, .here :: cs => .here :: cs.filter (· ≠ .here)
  | _, cs => cs.filter (· ≠ .here)

def Component.rank : Component → Nat
  | root => 0
  | here => 1
  | parent => 2
  | name _ => 3

/-- Components of one kind are equal unless they are names, which sort by their characters. -/
def Component.compare (a b : Component) : Ordering :=
  match a, b with
  | name s, name t => Ord.compare s t
  | a, b => Ord.compare a.rank b.rank

/-- Component by component; a path comes before those that go on below it. -/
def compareComponents : List Component → List Component → Ordering
  | [], [] => .eq
  | [], _ :: _ => .lt
  | _ :: _, [] => .gt
  | a :: as, b :: bs => (a.compare b).then (compareComponents as bs)

/-- The order of paths. Different texts may be equal as paths. -/
def pathLe (p q : String) : Bool := (compareComponents (pathComponents p) (pathComponents q)).isLE

/-- The path of an entry of a directory. -/
def joinPath (dir entry : String) : String :=
  if dir.toList.getLast? = some '/' then dir ++ entry else dir ++ "/" ++ entry

/-- Whether a path ends like a template file's, in any case of its ASCII letters. -/
def isTemplatePath (path : String) : Bool :=
  ['t', 'e', 'l', 'm', 'a', 'h', '.'].isPrefixOf (path.toList.reverse.map Char.toLower)

example : pathComponents ".//a/./b/" = [.here, .name "a", .name "b"] := by decide
example : pathComponents "/./../a" = [.root, .parent, .name "a"] := by decide
example : pathLe "a/b" "a-b" = true := by decide
example : pathLe "a" "./a" = false := by decide
example : isTemplatePath "x/.HAMLET" = true := by decide
example : isTemplatePath "hamlet" = false := by decide

end TemplateMarkup
