import Mathlib.Data.List.Nodup
import TemplateMarkup.Files.Disk
import TemplateMarkup.Proofs.Except
import TemplateMarkup.Proofs.Files.Paths

/-! Trees of files by what stands at each place. In which order a directory lists its entries does
not matter to that, as long as their names differ. -/
namespace TemplateMarkup

/-- What an entry is, but for what stands below it. -/
inductive Kind where
  | file (bytes : List UInt8)
  | locked
  | directory (listable : Bool)
  deriving DecidableEq

def Kind.isDirectory : Kind → Bool
  | directory _ => true
  | file _ | locked => false

namespace Entry

def kind : Entry → Kind
  | file bytes => .file bytes
  | locked => .locked
  | directory listable _ => .directory listable

/-- What stands at the end of some names. -/
def kindAt (entry : Entry) (names : List String) : Option Kind := (entry.descend names).map kind

/-- The entries of each directory have names of their own that entries can have. -/
inductive IsProper : Entry → Prop
  | file (bytes : List UInt8) : IsProper (file bytes)
  | locked : IsProper locked
  | directory {listable : Bool} {entries : List (String × Entry)}
      (distinct : (entries.map Prod.fst).Nodup) (named : ∀ entry ∈ entries, IsEntryName entry.1)
      (inner : ∀ entry ∈ entries, entry.2.IsProper) : IsProper (directory listable entries)

variable {e below : Entry} {listable : Bool} {entries : List (String × Entry)} {name : String}
  {names : List String}

theorem lookup_eq_some (distinct : (entries.map Prod.fst).Nodup) :
    entries.lookup name = some below ↔ (name, below) ∈ entries := by
  induction entries with
  | nil => simp
  | cons entry entries ih =>
    obtain ⟨n, entry⟩ := entry
    rw [List.map_cons, List.nodup_cons] at distinct
    obtain ⟨fresh, distinct⟩ := distinct
    by_cases same : name = n
    · subst same
      rw [List.lookup_cons_self, List.mem_cons]
      constructor
      · rintro ⟨⟩
        exact .inl rfl
      · rintro (first | later)
        · cases first
          rfl
        · exact absurd (List.mem_map_of_mem later) fresh
    · have other : (name == n) = false := beq_eq_false_iff_ne.2 same
      rw [List.lookup_cons, other, List.mem_cons, ih distinct]
      constructor
      · exact .inr
      · rintro (first | later)
        · exact absurd (Prod.mk.inj first).1 same
        · exact later

theorem lookup_eq_none : entries.lookup name = none ↔ name ∉ entries.map Prod.fst := by
  rw [List.lookup_eq_none_iff, List.mem_map]
  constructor
  · rintro absent ⟨entry, mem, rfl⟩
    simpa using absent entry mem
  · intro absent entry mem
    exact bne_iff_ne.2 fun same => absent ⟨entry, mem, same.symm⟩

theorem descend_append (names more : List String) (e : Entry) :
    e.descend (names ++ more) = (e.descend names).bind (descend more) := by
  induction names generalizing e with
  | nil => rfl
  | cons name names ih =>
    rw [List.cons_append, descend, descend]
    cases e.child? name with
    | none => rfl
    | some below => exact ih below

theorem kindAt_nil (e : Entry) : e.kindAt [] = some e.kind := rfl

theorem kindAt_cons (e : Entry) (name : String) (names : List String) :
    e.kindAt (name :: names) = (e.child? name).bind (·.kindAt names) := by
  unfold kindAt
  rw [descend]
  cases e.child? name <;> rfl

/-- What stands below a directory stands below one of its entries. -/
theorem kindAt_directory (distinct : (entries.map Prod.fst).Nodup) {kind : Kind} :
    (directory listable entries).kindAt (name :: names) = some kind ↔
      ∃ entry, (name, entry) ∈ entries ∧ entry.kindAt names = some kind := by
  rw [kindAt_cons, child?, Option.bind_eq_some_iff]
  simp only [lookup_eq_some distinct]

theorem kindAt_of_descend {more : List String} (found : e.descend names = some below) :
    e.kindAt (names ++ more) = below.kindAt more := by
  rw [kindAt, descend_append, found]
  rfl

/-- Only directories have something below them. -/
theorem kindAt_of_child (h : e.child? name = some below) :
    ∃ listable, e.kind = .directory listable := by
  cases e with
  | file bytes => cases h
  | locked => cases h
  | directory listable entries => exact ⟨listable, rfl⟩

theorem IsProper.child (h : e.IsProper) (found : e.child? name = some below) :
    IsEntryName name ∧ below.IsProper := by
  cases h with
  | file bytes => cases found
  | locked => cases found
  | directory distinct named inner =>
    have mem := (lookup_eq_some distinct).1 found
    exact ⟨named _ mem, inner _ mem⟩

/-- What stands in a proper tree is proper, and so are the names that lead there. -/
theorem IsProper.descend (h : e.IsProper) (found : e.descend names = some below) :
    (∀ name ∈ names, IsEntryName name) ∧ below.IsProper := by
  induction names generalizing e with
  | nil =>
    cases found
    exact ⟨by simp, h⟩
  | cons name names ih =>
    obtain ⟨child, first, rest⟩ := Option.bind_eq_some_iff.1 found
    obtain ⟨named, proper⟩ := h.child first
    obtain ⟨onward, proper⟩ := ih proper rest
    exact ⟨List.forall_mem_cons.2 ⟨named, onward⟩, proper⟩

end Entry

namespace Disk

variable {disk disk' : Disk} {path : String} {e : Entry}

theorem kindAt_of_entryAt {names : List String} (here : disk.entryAt names = some e) :
    disk.top.kindAt names = some e.kind :=
  congrArg (Option.map Entry.kind) here

/-- The place that a path leads to. -/
def place (disk : Disk) (path : String) : Except PathFault (List String) :=
  if path.isEmpty then .error .missing
  else (stepsOf path).foldlM disk.step (disk.origin path)

theorem find_eq (disk : Disk) (path : String) :
    disk.find path =
      disk.place path >>= fun names =>
        match disk.entryAt names with
        | some entry =>
          if endsInSlash path && !entry.isDirectory then .error .notDirectory else .ok entry
        | none => .error .missing := by
  unfold find place
  cases path.isEmpty with
  | true => rfl
  | false =>
    refine congrArg (_ >>= ·) (funext fun names => ?_)
    cases disk.entryAt names with
    | none => rfl
    | some entry => cases endsInSlash path && !entry.isDirectory <;> rfl

theorem find_eq_ok :
    disk.find path = .ok e ↔ ∃ names, disk.place path = .ok names ∧ disk.entryAt names = some e ∧
      (endsInSlash path = true → e.isDirectory = true) := by
  rw [find_eq, bind_eq_ok]
  refine exists_congr fun names => and_congr_right fun _ => ?_
  cases disk.entryAt names with
  | none => simp
  | some entry =>
    dsimp only
    split
    · next wrong =>
      rw [Bool.and_eq_true, Bool.not_eq_true'] at wrong
      constructor
      · rintro ⟨⟩
      · rintro ⟨⟨⟩, right⟩
        exact absurd (right wrong.1) (by rw [wrong.2]; exact Bool.false_ne_true)
    · next fine =>
      constructor
      · rintro ⟨⟩
        exact ⟨rfl, fun slash => by simpa [slash] using fine⟩
      · rintro ⟨⟨⟩, -⟩
        rfl

/-- The same working directory, and the same kind of entry at every place. -/
structure SameFiles (disk disk' : Disk) : Prop where
  workingDir : disk'.workingDir = disk.workingDir
  kindAt : ∀ names, disk'.top.kindAt names = disk.top.kindAt names

/-- A step depends on the kinds of two entries only. -/
theorem step_eq (disk : Disk) (place : List String) (piece : List Char) :
    disk.step place piece =
      match disk.top.kindAt place, Component.ofPiece piece with
      | some (.directory _), .parent => .ok place.dropLast
      | some (.directory _), .name name =>
        if (disk.top.kindAt (place ++ [name])).isSome then .ok (place ++ [name])
        else .error .missing
      | some (.directory _), _ => .ok place
      | some _, _ => .error .notDirectory
      | none, _ => .error .missing := by
  unfold step Entry.kindAt entryAt
  cases disk.top.descend place with
  | none => rfl
  | some e =>
    cases e with
    | file bytes => rfl
    | locked => rfl
    | directory listable entries =>
      cases Component.ofPiece piece with
      | name name =>
        cases found : disk.top.descend (place ++ [name]) <;> simp [found, Entry.kind]
      | _ => rfl

theorem SameFiles.symm (same : SameFiles disk disk') : SameFiles disk' disk :=
  ⟨same.workingDir.symm, fun names => (same.kindAt names).symm⟩

theorem place_of_ne_empty (filled : path ≠ "") :
    disk.place path = (stepsOf path).foldlM disk.step (disk.origin path) :=
  if_neg (by simpa using filled)

end Disk

end TemplateMarkup
