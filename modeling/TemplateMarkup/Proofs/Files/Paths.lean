import Mathlib.Data.List.Basic
import TemplateMarkup.Files.Path

/-! The order of paths, and the paths of entries. Paths are compared by their components only, and
no two entries below a directory have the same components. -/
namespace TemplateMarkup

/-! The order. -/

namespace Component

/-- The name of a component that has one. -/
def text : Component → String
  | name s => s
  | _ => ""

theorem compare_eq : Component.compare = compareLex (compareOn rank) (compareOn text) := by
  funext a b
  cases a with
  | name s => cases b <;> rfl
  | _ => cases b <;> rfl

instance : Std.TransCmp Component.compare :=
  compare_eq ▸ inferInstanceAs (Std.TransCmp (compareLex (compareOn rank) (compareOn text)))

instance : Std.LawfulEqCmp Component.compare where
  eq_of_compare {a b} h := by
    rw [compare_eq] at h
    obtain ⟨ranks, texts⟩ := Ordering.then_eq_eq.1 h
    have rank_eq : a.rank = b.rank := Std.LawfulEqCmp.eq_of_compare ranks
    have text_eq : a.text = b.text := Std.LawfulEqCmp.eq_of_compare texts
    cases a with
    | name s =>
      cases b with
      | name t => exact congrArg name text_eq
      | _ => cases rank_eq
    | _ => cases b <;> first | rfl | cases rank_eq

end Component

theorem compareComponents_eq : compareComponents = List.compareLex Component.compare := by
  funext as bs
  induction as generalizing bs with
  | nil => cases bs <;> rfl
  | cons a as ih =>
    cases bs with
    | nil => rfl
    | cons b bs =>
      rw [compareComponents, ih, List.compareLex_cons_cons]

instance : Std.TransCmp compareComponents :=
  compareComponents_eq ▸ inferInstanceAs (Std.TransCmp (List.compareLex Component.compare))

instance : Std.LawfulEqCmp compareComponents :=
  compareComponents_eq ▸ inferInstanceAs (Std.LawfulEqCmp (List.compareLex Component.compare))

variable {p q r : String}

/-- A name that an entry of a directory can have. -/
structure IsEntryName (name : String) : Prop where
  filled : name ≠ ""
  whole : '/' ∉ name.toList
  notHere : name ≠ "."
  notParent : name ≠ ".."

instance (name : String) : Decidable (IsEntryName name) :=
  decidable_of_iff (name ≠ "" ∧ '/' ∉ name.toList ∧ name ≠ "." ∧ name ≠ "..")
    ⟨fun ⟨filled, whole, notHere, notParent⟩ => ⟨filled, whole, notHere, notParent⟩,
      fun h => ⟨h.filled, h.whole, h.notHere, h.notParent⟩⟩

end TemplateMarkup
