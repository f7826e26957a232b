import TemplateMarkup.Proofs.Files.Trees

/-! What writing a file changes: the place that its path leads to, and nothing else. -/
namespace TemplateMarkup

namespace Entry

variable {e inner : Entry} {entries : List (String × Entry)} {name key : String}
  {dirs other : List String} {bytes : List UInt8}

theorem lookup_replace (entries : List (String × Entry)) (key : String) :
    (entries.map fun (n, e) => if n == name then (n, inner) else (n, e)).lookup key =
      (entries.lookup key).map fun e => if key = name then inner else e := by
  induction entries with
  | nil => rfl
  | cons entry entries ih =>
    obtain ⟨n, e⟩ := entry
    have first : (if n == name then (n, inner) else (n, e)) =
        (n, if n = name then inner else e) := by
      by_cases hit : n = name
      · rw [if_pos (beq_iff_eq.2 hit), if_pos hit]
      · rw [if_neg (beq_eq_false_iff_ne.2 hit ▸ Bool.false_ne_true), if_neg hit]
    rw [List.map_cons]
    dsimp only
    rw [first, List.lookup_cons, List.lookup_cons]
    by_cases here : key = n
    · subst here
      rw [beq_self_eq_true]
      rfl
    · rw [beq_eq_false_iff_ne.2 here]
      exact ih

/-- What an entry lists, which is nothing for a file. -/
def listing : Entry → List (String × Entry)
  | directory _ entries => entries
  | file _ | locked => []

/-- Whether a directory put in the place of an entry is listable. -/
def staysListable : Entry → Bool
  | directory listable _ => listable
  | file _ | locked => true

theorem child?_eq (e : Entry) (name : String) : e.child? name = e.listing.lookup name := by
  cases e <;> rfl

theorem put_cons (new : Entry) (name : String) (names : List String) (old : Entry) :
    put new (name :: names) old = directory old.staysListable
      (let inner := put new names ((old.child? name).getD (directory true []))
      if old.listing.any (·.1 == name) then
        old.listing.map fun (n, e) => if n == name then (n, inner) else (n, e)
      else old.listing ++ [(name, inner)]) := by
  rw [child?_eq, put.eq_def]
  cases old with
  | directory listable entries => exact (apply_ite (directory listable) _ _ _).symm
  | _ => rfl

/-- Putting an entry shows below the first of the names that lead to it, and there only. -/
theorem child?_put (new : Entry) (name : String) (names : List String) (old : Entry)
    (key : String) :
    (put new (name :: names) old).child? key =
      if key = name then some (put new names ((old.child? name).getD (directory true [])))
      else old.child? key := by
  rw [put_cons, child?, child?_eq old key]
  dsimp only
  split
  · next found =>
    rw [lookup_replace]
    by_cases hit : key = name
    · subst hit
      obtain ⟨⟨n, e⟩, mem, here⟩ := List.any_eq_true.1 found
      have there : old.listing.lookup key ≠ none := fun none =>
        lookup_eq_none.1 none (beq_iff_eq.1 here ▸ List.mem_map_of_mem mem)
      obtain ⟨e, stands⟩ := Option.ne_none_iff_exists'.1 there
      rw [stands, Option.map_some, if_pos rfl, if_pos rfl]
    · simp [hit]
  · next absent =>
    have fresh : old.listing.lookup name = none := by
      rw [lookup_eq_none]
      intro mem
      obtain ⟨entry, mem, here⟩ := List.mem_map.1 mem
      exact absent (List.any_eq_true.2 ⟨entry, mem, beq_iff_eq.2 here⟩)
    rw [List.lookup_append]
    by_cases hit : key = name
    · subst hit
      rw [fresh, Option.none_or, List.lookup_cons_self, if_pos rfl]
    · rw [if_neg hit, List.lookup_cons, beq_eq_false_iff_ne.2 hit]
      exact Option.or_none

theorem descend_put (new : Entry) (names : List String) (old : Entry) :
    (put new names old).descend names = some new := by
  induction names generalizing old with
  | nil => rfl
  | cons name names ih =>
    rw [descend, child?_put, if_pos rfl]
    exact ih _

/-- Nothing stands below what is no directory. -/
theorem kindAt_cons_of_flat (h : e.kind.isDirectory = false) (name : String)
    (names : List String) : e.kindAt (name :: names) = none := by
  rw [kindAt_cons]
  cases found : e.child? name with
  | none => rfl
  | some below =>
    obtain ⟨listable, deep⟩ := kindAt_of_child found
    rw [deep] at h
    cases h

theorem kind_put_cons (new : Entry) (name : String) (names : List String) {listable : Bool}
    (deep : e.kind = .directory listable) : (put new (name :: names) e).kind = e.kind := by
  cases e with
  | directory _ _ =>
    rw [put_cons]
    rfl
  | _ => cases deep

/-- A file put into a directory, where no directory was, changes what stands there only. -/
theorem kindAt_put {listable : Bool} (inside : e.kindAt dirs = some (.directory listable))
    (target : ∀ kind, e.kindAt (dirs ++ [name]) = some kind → kind.isDirectory = false)
    (elsewhere : other ≠ dirs ++ [name]) :
    (put (file bytes) (dirs ++ [name]) e).kindAt other = e.kindAt other := by
  induction dirs generalizing e other with
  | nil =>
    cases other with
    | nil => exact congrArg some (kind_put_cons _ _ _ (Option.some.inj inside))
    | cons key others =>
      rw [List.nil_append, kindAt_cons, kindAt_cons, child?_put]
      by_cases hit : key = name
      · subst hit
        -- below the file there is nothing, and nothing was below what it takes the place of
        cases others with
        | nil => exact absurd rfl elsewhere
        | cons further others =>
          rw [if_pos rfl, Option.bind_some, put, kindAt_cons_of_flat rfl]
          cases found : e.child? key with
          | none => rfl
          | some below =>
            have flat : below.kind.isDirectory = false := by
              refine target _ ?_
              rw [List.nil_append, kindAt_cons, found, Option.bind_some, kindAt_nil]
            rw [Option.bind_some, kindAt_cons_of_flat flat]
      · rw [if_neg hit]
  | cons dir dirs ih =>
    have first := inside
    rw [kindAt_cons] at first
    obtain ⟨below, found, onward⟩ := Option.bind_eq_some_iff.1 first
    cases other with
    | nil =>
      obtain ⟨listable, deep⟩ := kindAt_of_child found
      exact congrArg some (kind_put_cons _ _ _ deep)
    | cons key others =>
      rw [List.cons_append, kindAt_cons, kindAt_cons, child?_put]
      by_cases hit : key = dir
      · subst hit
        rw [List.cons_append, kindAt_cons, found, Option.bind_some] at target
        rw [if_pos rfl, found, Option.getD_some, Option.bind_some, Option.bind_some]
        exact ih onward target fun same => elsewhere (congrArg (key :: ·) same)
      · rw [if_neg hit]

end Entry

namespace Disk

variable {disk disk' : Disk} {path name : String} {dir names : List String} {piece : List Char}
  {bytes : List UInt8}

/-- A disk with a file put at the end of some names. -/
def withFile (disk : Disk) (names : List String) (bytes : List UInt8) : Disk :=
  { disk with top := Entry.put (.file bytes) names disk.top }

theorem entryAt_withFile (disk : Disk) (names : List String) (bytes : List UInt8) :
    (disk.withFile names bytes).entryAt names = some (.file bytes) :=
  Entry.descend_put _ _ _

theorem kindAt_withFile (disk : Disk) (names : List String) (bytes : List UInt8) :
    (disk.withFile names bytes).top.kindAt names = some (.file bytes) :=
  congrArg (Option.map Entry.kind) (entryAt_withFile disk names bytes)

/-- Where a file is written: into a directory that is there, and not over a directory. -/
structure WritePlace (disk : Disk) (path : String) (dir : List String) (name : String) : Prop where
  leads : ∃ front piece, stepsOf path = front ++ [piece] ∧
    front.foldlM disk.step (disk.origin path) = .ok dir ∧ Component.ofPiece piece = .name name
  bare : endsInSlash path = false
  inside : ∃ listable, disk.top.kindAt dir = some (.directory listable)
  target : ∀ kind, disk.top.kindAt (dir ++ [name]) = some kind → kind.isDirectory = false

theorem writeFile_ok (h : disk.writeFile path bytes = .ok disk') :
    ∃ dir name, disk.WritePlace path dir name ∧ disk' = disk.withFile (dir ++ [name]) bytes := by
  unfold writeFile at h
  split at h
  · cases h
  · next piece last =>
    have steps := (List.dropLast_append_getLast? piece last).symm
    obtain ⟨dir, leads, h⟩ := bind_eq_ok.1 h
    split at h
    · next listable entries here =>
      have inside : disk.top.kindAt dir = some (.directory listable) := kindAt_of_entryAt here
      split at h
      · next name named =>
        have below : disk.top.kindAt (dir ++ [name]) = (entries.lookup name).map Entry.kind := by
          rw [Entry.kindAt_of_descend here, Entry.kindAt_cons]
          exact (Option.map_eq_bind ..).symm
        split at h
        · cases h
        · cases h
        · cases h
        · next bare free _ =>
          cases h
          refine ⟨dir, name, ⟨⟨_, piece, steps, leads, named⟩, bare, ⟨_, inside⟩, ?_⟩, rfl⟩
          rw [below]
          intro kind stands
          obtain ⟨old, found, rfl⟩ := Option.map_eq_some_iff.1 stands
          cases old with
          | directory listable entries => exact absurd found (free listable entries)
          | _ => rfl
      · cases h
    · cases h
    · cases h
    · cases h

namespace WritePlace

variable (spot : disk.WritePlace path dir name) (bytes : List UInt8)
include spot

theorem kindAt_other {other : List String} (elsewhere : other ≠ dir ++ [name]) :
    (disk.withFile (dir ++ [name]) bytes).top.kindAt other = disk.top.kindAt other :=
  Entry.kindAt_put spot.inside.choose_spec spot.target elsewhere

theorem kindAt_directory {listable : Bool}
    (h : disk.top.kindAt names = some (.directory listable)) :
    (disk.withFile (dir ++ [name]) bytes).top.kindAt names = some (.directory listable) := by
  have elsewhere : names ≠ dir ++ [name] := by
    rintro rfl
    cases spot.target _ h
  rw [spot.kindAt_other bytes elsewhere, h]

theorem isSome_kindAt (h : (disk.top.kindAt names).isSome) :
    ((disk.withFile (dir ++ [name]) bytes).top.kindAt names).isSome := by
  by_cases same : names = dir ++ [name]
  · rw [same, kindAt_withFile]
    rfl
  · rwa [spot.kindAt_other bytes same]

/-- Steps that lead somewhere lead there still. -/
theorem step_withFile {start : List String} (h : disk.step start piece = .ok names) :
    (disk.withFile (dir ++ [name]) bytes).step start piece = .ok names := by
  rw [step_eq] at h ⊢
  cases stands : disk.top.kindAt start with
  | none =>
    rw [stands] at h
    cases h
  | some kind =>
    rw [stands] at h
    cases kind with
    | directory listable =>
      rw [spot.kindAt_directory bytes stands]
      cases named : Component.ofPiece piece with
      | name key =>
        rw [named] at h
        dsimp only at h ⊢
        split at h
        · next there => rwa [if_pos (spot.isSome_kindAt bytes there)]
        · cases h
      | _ =>
        rw [named] at h
        exact h
    | _ => cases h

theorem foldlM_step_withFile {steps : List (List Char)} {start : List String}
    (h : steps.foldlM disk.step start = .ok names) :
    steps.foldlM (disk.withFile (dir ++ [name]) bytes).step start = .ok names := by
  induction steps generalizing start with
  | nil => exact h
  | cons piece steps ih =>
    rw [List.foldlM_cons] at h ⊢
    obtain ⟨next, first, rest⟩ := bind_eq_ok.1 h
    exact bind_eq_ok.2 ⟨next, spot.step_withFile bytes first, ih rest⟩

/-- The path leads to the file once it is there. -/
theorem place_withFile :
    (disk.withFile (dir ++ [name]) bytes).place path = .ok (dir ++ [name]) := by
  obtain ⟨front, piece, steps, leads, named⟩ := spot.leads
  obtain ⟨listable, inside⟩ := spot.inside
  have filled : path ≠ "" := by
    rintro rfl
    exact List.append_ne_nil_of_right_ne_nil _ (List.cons_ne_nil _ _) steps.symm
  have last : (disk.withFile (dir ++ [name]) bytes).step dir piece = .ok (dir ++ [name]) := by
    rw [step_eq, spot.kindAt_directory bytes inside, named]
    dsimp only
    rw [kindAt_withFile]
    rfl
  rw [place_of_ne_empty filled, steps, List.foldlM_append]
  refine bind_eq_ok.2 ⟨dir, spot.foldlM_step_withFile bytes leads, ?_⟩
  rw [List.foldlM_cons, last]
  rfl

end WritePlace

/-- One file has some bytes afterwards, and nothing else has changed. -/
structure WritesOnly (disk disk' : Disk) (path : String) (bytes : List UInt8) : Prop where
  workingDir : disk'.workingDir = disk.workingDir
  written : disk'.contents path = .ok bytes
  others : ∃ names, disk'.place path = .ok names ∧
    ∀ other, other ≠ names → disk'.top.kindAt other = disk.top.kindAt other

theorem writesOnly_of_writeFile (h : disk.writeFile path bytes = .ok disk') :
    disk.WritesOnly disk' path bytes := by
  obtain ⟨dir, name, spot, rfl⟩ := writeFile_ok h
  have place := spot.place_withFile bytes
  have found := find_eq_ok.2
    ⟨_, place, entryAt_withFile disk (dir ++ [name]) bytes, by simp [spot.bare]⟩
  refine ⟨rfl, ?_, _, place, fun other => spot.kindAt_other bytes⟩
  rw [contents, found]
  rfl

end Disk

end TemplateMarkup
