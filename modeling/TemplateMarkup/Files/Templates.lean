import TemplateMarkup.Files.Disk

/-! The template files that some paths stand for. -/
namespace TemplateMarkup

namespace Entry

mutual

/-- The template files at a path and below it, unless a directory there may not be listed. Those
below a directory are put in the order of paths. -/
def templates (path : String) : Entry → Except PathFault (List String)
  | file _ | locked => return if isTemplatePath path then [path] else []
  | directory true entries => do return (← templatesIn path entries).mergeSort pathLe
  | directory false _ => throw .denied

def templatesIn (dir : String) : List (String × Entry) → Except PathFault (List String)
  | [] => return []
  | (name, entry) :: entries => do
    let paths ← templates (joinPath dir name) entry
    return paths ++ (← templatesIn dir entries)

end

end Entry

namespace Disk

/-- The template files that one input stands for: a directory stands for those below it, and an
input that leads nowhere for none. -/
def templatesAt (disk : Disk) (input : String) : Except PathFault (List String) :=
  match disk.find input with
  | .ok entry => entry.templates input
  | .error _ => return []

/-- The template files that the inputs stand for, in the order of paths. -/
def listTemplates (disk : Disk) (inputs : List String) : Except PathFault (List String) := do
  return (← inputs.mapM disk.templatesAt).flatten.mergeSort pathLe

end Disk

example : Entry.templatesIn "a/" [("x.Hamlet", .file []), ("n.txt", .file []),
    ("y.hamlet", .locked)] = .ok ["a/x.Hamlet", "a/y.hamlet"] :=
  rfl

end TemplateMarkup
