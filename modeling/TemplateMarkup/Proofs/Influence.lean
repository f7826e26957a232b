import TemplateMarkup.Proofs.Reading.Renamed
import TemplateMarkup.Proofs.Reading.Tabs
import TemplateMarkup.Proofs.TagNames.Sources

/-! What the options of a reading have influence on. A reading with another default tag is compared
with one where the default is a mark that no line can state as a name: both come of it when the mark
is replaced. -/
namespace TemplateMarkup
open Builder

variable {f : String → String}

theorem Event.dispatched?_rename (event : Event) :
    (event.rename f).dispatched? = event.dispatched? := by
  cases event <;> rfl

theorem Event.tag?_rename (event : Event) :
    (event.rename f).tag? = event.tag?.map (Prod.map f id) := by
  cases event with
  | dispatched | closed => rfl
  | placed node => cases node <;> rfl
  | opened owner depth => cases owner <;> rfl

def TagSource.rename (f : String → String) (source : TagSource) : TagSource :=
  { source with name := f source.name }

theorem tagSources_rename (log : List Event) :
    tagSources (log.map (Event.rename f)) = (tagSources log).map (TagSource.rename f) := by
  induction log with
  | nil => rfl
  | cons event older ih =>
    have dispatches : (older.map (Event.rename f)).filterMap Event.dispatched? =
        older.filterMap Event.dispatched? := by
      rw [List.filterMap_map]
      exact congrArg (List.filterMap · older) (funext Event.dispatched?_rename)
    rw [List.map_cons, tagSources, ih, dispatches, Event.tag?_rename, tagSources, List.map_append]
    cases event.tag? <;> rfl

/-! The mark in the place of a default tag. -/

/-- A name that no line can state. -/
def nameMark : String := "#"

theorem ofList_ne_nameMark {c : Char} (word : isWord c = true) (cs : List Char) :
    String.ofList (c :: cs) ≠ nameMark := by
  intro same
  have chars := congrArg String.toList same
  rw [String.toList_ofList] at chars
  exact ne_of_isWord word (d := '#') (by decide) (List.cons.inj chars).1

theorem keepsWritten_fillName (name : String) : KeepsWritten (fillName nameMark name) := by
  intro c cs word
  exact if_neg (ofList_ne_nameMark word cs)

variable {settings : Settings} {source : String}

/-- Every reading comes of the one with the mark. -/
theorem readLines_fillName (settings : Settings) (name : String) (lines : List Line) :
    readLines { settings with defaultTag := name } lines =
      renamed (Builder.rename (fillName nameMark name)) (fillName nameMark name)
        (readLines { settings with defaultTag := nameMark } lines) := by
  have filled : fillName nameMark name nameMark = name := if_pos rfl
  have read := @State.rename_foldlM (fillName nameMark name) {}
    { settings with defaultTag := nameMark } (keepsWritten_fillName name) lines
  rw [filled] at read
  exact (congrArg (· >>= State.finish) read).trans (renamed_bind _ State.rename_finish)

/-- A tag that is made where the mark is the default has the mark for its name just if its line
states none. -/
theorem TagSource.IsMade.isNameless {tag : TagSource}
    (made : tag.IsMade { settings with defaultTag := nameMark }) :
    tag.isNameless = decide (tag.name = nameMark) := by
  obtain ⟨nameless, mark, -⟩ | ⟨c, cs, stated, name, word⟩ := made.cases
  · rw [nameless, mark]
    exact (decide_eq_true rfl).symm
  · rw [stated, name]
    exact (decide_eq_false (ofList_ne_nameMark word cs)).symm

/-- What a reading that succeeds with the mark comes to with any default tag. -/
theorem parse_fillName {b : Builder}
    (read : readLines { settings with defaultTag := nameMark } (linesOf source.toList) = .ok b)
    (name : String) :
    parse { settings with defaultTag := name } source =
        .ok (b.tree.rename (fillName nameMark name)) ∧
      (readTemplate { settings with defaultTag := name } source).tagSources =
        (tagSources b.log).map (TagSource.rename (fillName nameMark name)) := by
  have filled := readLines_fillName settings name (linesOf source.toList)
  rw [read] at filled
  change _ = Except.ok (b.rename (fillName nameMark name)) at filled
  rw [parse_of_ok filled, tree_rename, Reading.tagSources, readTemplate, filled]
  refine ⟨rfl, ?_⟩
  simp only [List.reverse_reverse]
  exact tagSources_rename b.log

theorem parse_fillName_error {halt : Halt}
    (read : readLines { settings with defaultTag := nameMark } (linesOf source.toList) = .error halt)
    (name : String) :
    parse { settings with defaultTag := name } source = .error ⟨halt.fault, settings.shownFile⟩ := by
  have filled := readLines_fillName settings name (linesOf source.toList)
  rw [read] at filled
  change _ = Except.error (halt.rename (fillName nameMark name)) at filled
  rw [parse_of_error filled]
  rfl

/-- The tree that stands for all of these is found again by naming the tags anew that no line
names. -/
theorem retag_fillName {b : Builder}
    (read : readLines { settings with defaultTag := nameMark } (linesOf source.toList) = .ok b)
    (name x : String) :
    (b.tree.rename (fillName nameMark name)).retag x ((tagSources b.log).map (·.isNameless)) =
      b.tree.rename (fillName nameMark x) := by
  have marks : (tagSources b.log).map (·.isNameless) = Node.marksOf nameMark b.tree.tags := by
    rw [tags_of_readLines read, Node.marksOf, List.map_map]
    exact List.map_congr_left fun tag mem => (sourced_of_readLines read tag mem).isNameless
  have filled := Node.retag_rename nameMark x name b.tree []
  rwa [List.append_nil, ← marks] at filled

/-- The file name and the encoding show in the name that a fault is reported under. -/
theorem parse_fileName (settings : Settings) (source : String) (file encoding : Option String) :
    parse { settings with fileName := file, encoding := encoding } source =
      (parse settings source).mapError fun d => { d with file := file.getD unnamedFile } := by
  have same : readLines { settings with fileName := file, encoding := encoding }
      (linesOf source.toList) = readLines settings (linesOf source.toList) := rfl
  cases read : readLines settings (linesOf source.toList) with
  | ok b =>
    rw [parse_of_ok (same.trans read), parse_of_ok read]
    rfl
  | error halt =>
    rw [parse_of_error (same.trans read), parse_of_error read]
    rfl

theorem parse_tabSize (tabless : ∀ line ∈ linesOf source.toList, IsTabless line)
    (settings : Settings) (tab : Nat) :
    parse { settings with tabSize := tab } source = parse settings source := by
  have same : readLines { settings with tabSize := tab } (linesOf source.toList) =
      readLines settings (linesOf source.toList) :=
    congrArg (· >>= State.finish) (State.foldlM_tabless tabless settings tab {})
  rw [parse, parse, readTemplate, readTemplate, same]
  rfl

/-- The options have influence on what they name alone. The file name and the encoding make no
difference but for the name that a fault is reported under. The columns of a tab make none where no
tab stands in an indentation. And another default tag leaves every fault as it is; the trees differ in
the names of the tags alone that start on a line which states no name. These stand at the same places
in both trees, and all have a shortcut. -/
theorem options_influence_only_named (settings : Settings) (source : String) :
    (∀ file encoding, parse { settings with fileName := file, encoding := encoding } source =
      (parse settings source).mapError fun d => { d with file := file.getD unnamedFile }) ∧
    (∀ tab, (∀ line ∈ linesOf source.toList, IsTabless line) →
      parse { settings with tabSize := tab } source = parse settings source) ∧
    ∀ name, let other := { settings with defaultTag := name }
      (∀ d, parse settings source = .error d ↔ parse other source = .error d) ∧
      ∀ tree tree', parse settings source = .ok tree → parse other source = .ok tree' →
        let tags := (readTemplate settings source).tagSources
        let tags' := (readTemplate other source).tagSources
        Accounts settings source tree tags ∧ Accounts other source tree' tags' ∧
        tags.map TagSource.line = tags'.map TagSource.line ∧
        ∀ x, tree.retag x (tags.map TagSource.isNameless) =
          tree'.retag x (tags'.map TagSource.isNameless) := by
  refine ⟨parse_fileName settings source, fun tab tabless => parse_tabSize tabless settings tab, ?_⟩
  intro name other
  cases read : readLines { settings with defaultTag := nameMark } (linesOf source.toList) with
  | error halt =>
    have mine : parse settings source = _ := parse_fillName_error read settings.defaultTag
    rw [mine, parse_fillName_error read name]
    refine ⟨fun _ => Iff.rfl, ?_⟩
    intro tree tree' failed
    cases failed
  | ok b =>
    have mine : parse settings source = _ ∧ (readTemplate settings source).tagSources = _ :=
      parse_fillName read settings.defaultTag
    have others := parse_fillName read name
    constructor
    · intro d
      rw [mine.1, others.1]
      simp only [reduceCtorEq]
    · intro tree tree' h h'
      refine ⟨accounts_of_parse h, accounts_of_parse h', ?_, ?_⟩
      · rw [mine.2, others.2, List.map_map, List.map_map]
        rfl
      · intro x
        rw [mine.1] at h
        rw [others.1] at h'
        cases h
        cases h'
        rw [mine.2, others.2, List.map_map, List.map_map]
        exact (retag_fillName read settings.defaultTag x).trans (retag_fillName read name x).symm

/-- A nameless tag around nothing, and another in a paragraph. -/
theorem options_influence_only_named_mixed :
    parse { tabSize := 8 } "<.a x\n<p\n  <#b/" = parse {} "<.a x\n<p\n  <#b/" ∧
    ∃ tree tree', parse {} "<.a x\n<p\n  <#b/" = .ok tree ∧
      parse { defaultTag := "i" } "<.a x\n<p\n  <#b/" = .ok tree' ∧
      tree'.tags = [("i", [.shortcut "class" "a", .flag "x"]), ("p", []),
        ("i", [.shortcut "id" "b"])] ∧
      tree.retag "s" [true, false, true] = tree'.retag "s" [true, false, true] := by
  have tree : parse {} "<.a x\n<p\n  <#b/" = .ok (.multi [
      .tag "div" [.shortcut "class" "a", .flag "x"] (.multi [.newline]),
      .tag "p" [] (.multi [.newline, .voidTag "div" [.shortcut "id" "b"], .newline])]) := by
    with_unfolding_all rfl
  have tree' : parse { defaultTag := "i" } "<.a x\n<p\n  <#b/" = .ok (.multi [
      .tag "i" [.shortcut "class" "a", .flag "x"] (.multi [.newline]),
      .tag "p" [] (.multi [.newline, .voidTag "i" [.shortcut "id" "b"], .newline])]) := by
    with_unfolding_all rfl
  have marks : (readTemplate {} "<.a x\n<p\n  <#b/").tagSources.map TagSource.isNameless =
      [true, false, true] := by with_unfolding_all rfl
  have marks' : (readTemplate { defaultTag := "i" } "<.a x\n<p\n  <#b/").tagSources.map
      TagSource.isNameless = [true, false, true] := by with_unfolding_all rfl
  have lines : linesOf "<.a x\n<p\n  <#b/".toList =
      ["<.a x".toList, "<p".toList, "  <#b/".toList] := by decide
  have main := options_influence_only_named {} "<.a x\n<p\n  <#b/"
  refine ⟨main.2.1 8 ?_, _, _, tree, tree', rfl, ?_⟩
  · rw [lines]
    decide
  · have same := ((main.2.2 "i").2 _ _ tree tree').2.2.2 "s"
    rwa [marks, marks'] at same

end TemplateMarkup
