import Mathlib.Data.List.Nodup
import Mathlib.Data.List.Perm.Basic
import TemplateMarkup.Files.Templates
import TemplateMarkup.Proofs.Files.Trees

/-! The template files that inputs stand for. Each file below an input is found once, at the path
that its names lead to, and the order in which a directory lists its entries does not show. -/
namespace TemplateMarkup

namespace Entry

variable {e e' : Entry} {entries : List (String × Entry)} {path : String} {names : List String}

mutual

/-- The names that lead to files. -/
def leaves : Entry → List (List String)
  | file _ | locked => [[]]
  | directory _ entries => leavesIn entries

def leavesIn : List (String × Entry) → List (List String)
  | [] => []
  | (name, entry) :: entries => entry.leaves.map (name :: ·) ++ leavesIn entries

end

mutual

/-- Whether each directory there is may be listed. -/
def allListable : Entry → Bool
  | file _ | locked => true
  | directory listable entries => listable && allListableIn entries

def allListableIn : List (String × Entry) → Bool
  | [] => true
  | (_, entry) :: entries => entry.allListable && allListableIn entries

end

/-- The path of a file below `path`. -/
def pathBelow (path : String) (names : List String) : String := names.foldl joinPath path

/-- The paths of the template files below `path` at the end of some names. -/
def templatePaths (path : String) (leaves : List (List String)) : List String :=
  (leaves.map (pathBelow path)).filter isTemplatePath

theorem templatePaths_append (path : String) (leaves leaves' : List (List String)) :
    templatePaths path (leaves ++ leaves') =
      templatePaths path leaves ++ templatePaths path leaves' := by
  rw [templatePaths, List.map_append, List.filter_append]
  rfl

theorem templatePaths_cons (path name : String) (leaves : List (List String)) :
    templatePaths path (leaves.map (name :: ·)) = templatePaths (joinPath path name) leaves := by
  rw [templatePaths, List.map_map]
  rfl

mutual

theorem templates_of_allListable (path : String) : ∀ e : Entry, e.allListable = true →
    ∃ paths, e.templates path = .ok paths ∧ paths.Perm (templatePaths path e.leaves)
  | file _, _ | locked, _ => by
    refine ⟨_, rfl, ?_⟩
    unfold leaves
    rw [templatePaths, List.map_singleton, List.filter_cons]
    exact .refl _
  | directory true entries, listable => by
    obtain ⟨paths, all, perm⟩ := templatesIn_of_allListable path entries listable
    refine ⟨paths.mergeSort pathLe, ?_, (List.mergeSort_perm _ _).trans perm⟩
    rw [templates, all]
    rfl

theorem templatesIn_of_allListable (dir : String) : ∀ entries : List (String × Entry),
    allListableIn entries = true →
    ∃ paths, templatesIn dir entries = .ok paths ∧ paths.Perm (templatePaths dir (leavesIn entries))
  | [], _ => ⟨[], rfl, .refl _⟩
  | (name, entry) :: entries, listable => by
    rw [allListableIn, Bool.and_eq_true] at listable
    obtain ⟨first, here, perm⟩ := templates_of_allListable (joinPath dir name) entry listable.1
    obtain ⟨others, there, perm'⟩ := templatesIn_of_allListable dir entries listable.2
    refine ⟨first ++ others, ?_, ?_⟩
    · rw [templatesIn, here, there]
      rfl
    · rw [leavesIn, templatePaths_append, templatePaths_cons]
      exact perm.append perm'

end

mutual

theorem templates_of_unlistable (path : String) : ∀ e : Entry, e.allListable = false →
    e.templates path = .error .denied
  | directory false _, _ => rfl
  | directory true entries, stuck => by
    rw [templates, templatesIn_of_unlistable path entries stuck]
    rfl

theorem templatesIn_of_unlistable (dir : String) : ∀ entries : List (String × Entry),
    allListableIn entries = false → templatesIn dir entries = .error .denied
  | (name, entry) :: entries, stuck => by
    rw [templatesIn]
    cases first : entry.allListable with
    | false =>
      rw [templates_of_unlistable (joinPath dir name) entry first]
      rfl
    | true =>
      obtain ⟨paths, here, -⟩ := templates_of_allListable (joinPath dir name) entry first
      rw [allListableIn, first] at stuck
      rw [here, templatesIn_of_unlistable dir entries stuck]
      rfl

end

end Entry

namespace Disk

variable {disk disk' : Disk} {input path : String} {inputs inputs' paths : List String}

theorem IsProper.find (proper : disk.top.IsProper) {entry : Entry}
    (found : disk.find input = .ok entry) : entry.IsProper := by
  obtain ⟨place, -, here, -⟩ := find_eq_ok.1 found
  exact (proper.descend here).2

end Disk

end TemplateMarkup
