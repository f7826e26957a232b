import TemplateMarkup.Proofs.Reading.Dispatched
import TemplateMarkup.Proofs.TagNames.Tree
import TemplateMarkup.Proofs.WellFormed.Line

/-! Where the tags of a template come from. Each starts on the line that was dispatched last before
it, and has the name that this line states or else the default one. -/
namespace TemplateMarkup
open Builder

/-- Whether a line starts a tag and states no name for it. -/
def isNameless : List Char → Bool
  | '<' :: c :: _ => c = '#' || c = '.'
  | _ => false

/-- A tag with the line that it starts on. -/
structure TagSource where
  line : Option Dispatched
  name : String
  attrs : List Attr

namespace TagSource

def tag (source : TagSource) : String × List Attr := (source.name, source.attrs)

def isNameless (source : TagSource) : Bool := source.line.any (TemplateMarkup.isNameless ·.text)

end TagSource

/-- The tag that an event tells of. -/
def Event.tag? (event : Event) : Option (String × List Attr) := event.visit?.bind Visit.tag?

/-- The tags that a log tells of, oldest first, each with the line that was dispatched last before
it. The log is held newest first. -/
def tagSources : List Event → List TagSource
  | [] => []
  | event :: older =>
    tagSources older ++
      (event.tag?.map fun tag => ⟨(older.filterMap Event.dispatched?).head?, tag.1, tag.2⟩).toList

/-- The head of a line makes a tag of some name with some attributes: the name is stated there, or
it is the default one and there is a shortcut. -/
inductive Head.Makes (settings : Settings) : Head → String → List Attr → Prop
  | named (stated rest : List Char) (attrs : List Attr) :
      Makes settings (.tag (some stated) rest) (String.ofList stated) attrs
  | nameless (rest : List Char) {attrs : List Attr} (short : ∃ attr ∈ attrs, attr.IsShortcut) :
      Makes settings (.tag none rest) settings.defaultTag attrs

/-- The line of a tag makes it. -/
def TagSource.IsMade (settings : Settings) (source : TagSource) : Prop :=
  ∃ d, source.line = some d ∧ (Head.read d.text).Makes settings source.name source.attrs

variable {settings : Settings}

/-- Attributes on the lines below go to the same tag. -/
theorem Head.Makes.append {head : Head} {name : String} {attrs : List Attr}
    (made : head.Makes settings name attrs) (more : List Attr) :
    head.Makes settings name (attrs ++ more) := by
  cases made with
  | named stated rest => exact .named stated rest _
  | nameless rest short =>
    obtain ⟨attr, mem, isShort⟩ := short
    exact .nameless rest ⟨attr, List.mem_append_left more mem, isShort⟩

theorem isNameless_of_read {cs rest : List Char} {name : Option (List Char)}
    (h : Head.read cs = .tag name rest) : isNameless cs = name.isNone := by
  obtain ⟨text, rfl, tagged⟩ := Head.tagStart_of_read h
  cases tagged with
  | nameless more mark => simpa [isNameless] using mark
  | named more word =>
    have hash := ne_of_isWord word (d := '#') (by decide)
    have dot := ne_of_isWord word (d := '.') (by decide)
    simp [isNameless, hash, dot]

/-! Behind the mark of a shortcut there is one, or nothing that can be read. -/

theorem readShortcuts_none {cs : List Char} (none_ : (readShortcuts cs).1 = []) :
    (readShortcuts cs).2 = cs := by
  unfold readShortcuts at none_ ⊢
  split
  · split
    · next mark c rest text shortcut =>
      rw [text] at none_
      simp [shortcut] at none_
    · rfl
  · rfl

theorem readListEnd_mark {c : Char} (mark : c = '#' ∨ c = '.') (cs : List Char) :
    readListEnd none (c :: cs) = .error ⟨.expectedAttribute, c :: cs⟩ := by
  have start (d : Char) (other : c ≠ d) : trimRight (c :: cs) ≠ [d] := by
    intro trimmed
    have front := trimRight_prefix (c :: cs)
    rw [trimmed, List.singleton_prefix_cons_iff] at front
    exact other front.symm
  obtain rfl | rfl := mark
  · simp [readListEnd, start '/' (by decide)]
  · simp [readListEnd, start '/' (by decide)]

theorem State.shortcut_of_takeTag {s t : State} {tab : Nat} {name : String} {line : Line} {c : Char}
    {cs : List Char} (mark : c = '#' ∨ c = '.') (h : s.takeTag tab name line (c :: cs) = .ok t) :
    ∃ attr ∈ (readShortcuts (c :: cs)).1, attr.IsShortcut := by
  cases found : (readShortcuts (c :: cs)).1 with
  | cons attr attrs =>
    have mem : attr ∈ (readShortcuts (c :: cs)).1 := by simp [found]
    exact ⟨attr, List.mem_cons_self, isShortcut_readShortcuts _ attr mem⟩
  | nil =>
    have rest := readShortcuts_none found
    have text : trimLeft (c :: cs) = c :: cs :=
      trimLeft_cons_of_not_white (by obtain rfl | rfl := mark <;> decide) cs
    have noName : readName (c :: cs) = none := by
      have word : isWord c = false := by obtain rfl | rfl := mark <;> decide
      simp [readName, text, word]
    have noAttributes : readAttributes none (c :: cs) = .ok ([], c :: cs) := by
      rw [readAttributes, noName, text]
    have noBracket : closingBracket c = none := by obtain rfl | rfl := mark <;> rfl
    simp [takeTag, rest, noBracket, takeAttributes, noAttributes, readListEnd_mark mark,
      halt] at h

/-! The tags so far. -/

namespace Builder

/-- Every tag that the log tells of is made by its line. -/
def Sourced (settings : Settings) (b : Builder) : Prop :=
  ∀ source ∈ tagSources b.log, source.IsMade settings

/-- The line that was dispatched last makes such a tag. -/
def Makes (settings : Settings) (b : Builder) (tag : String × List Attr) : Prop :=
  TagSource.IsMade settings ⟨b.dispatches.head?, tag.1, tag.2⟩

variable {b c : Builder}

/-- Nothing has to be made where no tag is told of. -/
theorem makes_of_none {found : Option (String × List Attr)} (none_ : found = none) :
    ∀ tag ∈ found, b.Makes settings tag := by
  simp [none_]

theorem sourced_cons {event : Event} (sourced : b.Sourced settings) (hlog : c.log = event :: b.log)
    (fresh : ∀ tag ∈ event.tag?, b.Makes settings tag) : c.Sourced settings := by
  intro source mem
  rw [hlog, tagSources, List.mem_append] at mem
  obtain older | new := mem
  · exact sourced source older
  · obtain ⟨tag, told, rfl⟩ := Option.map_eq_some_iff.1 (Option.mem_toList.1 new)
    exact fresh tag told

theorem sourced_place (sourced : b.Sourced settings) {node : Node}
    (fresh : ∀ tag ∈ (Visit.leaf node).tag?, b.Makes settings tag) :
    (b.place node).Sourced settings :=
  sourced_cons sourced (log_place b node) fresh

@[simp] theorem makes_place (b : Builder) (node : Node) (tag : String × List Attr) :
    (b.place node).Makes settings tag ↔ b.Makes settings tag := by
  rw [Makes, dispatches_place, Makes]

theorem sourced_begin (sourced : b.Sourced settings) {owner : Owner}
    (fresh : ∀ tag ∈ (Visit.enter owner).tag?, b.Makes settings tag) :
    (b.begin owner).Sourced settings :=
  sourced_cons sourced (log_begin b owner) fresh

theorem sourced_newline (sourced : b.Sourced settings) : (b.place .newline).Sourced settings :=
  sourced_place sourced (makes_of_none rfl)

theorem sourced_placeBreaks (sourced : b.Sourced settings) (n : Nat) :
    (placeBreaks n b).Sourced settings := by
  induction n generalizing b with
  | zero => exact sourced
  | succ n ih => exact ih (sourced_newline sourced)

theorem sourced_shut (sourced : b.Sourced settings) (n : Nat) : (b.shut n).Sourced settings :=
  shut_invariant
    (fun pending sourced => sourced_cons sourced (log_closeAwaiting pending) (makes_of_none rfl))
    (fun _ top sourced => sourced_cons sourced (log_closeLevel top) (makes_of_none rfl)) sourced n

theorem sourced_align {width : Nat} {moved : Bool} (fit : b.align width = .ok (c, moved))
    (sourced : b.Sourced settings) : c.Sourced settings := by
  obtain ⟨block, -, -, -, rfl⟩ | ⟨-, rfl, -, -⟩ := align_cases fit
  · exact sourced
  · exact sourced_shut sourced _

end Builder

/-! The tag that is under way. -/

def CodeOwner.tag? : CodeOwner → Option (String × List Attr)
  | tag name attrs _ => some (name, attrs)
  | _ => none

def TagHead.tag (tag : TagHead) : String × List Attr := (tag.name, tag.attrs)

def Phase.tag? : Phase → Option (String × List Attr)
  | code owner _ _ => owner.tag?
  | attributes tag _ => some tag.tag
  | _ => none

theorem CodeOwner.tag?_withCode (owner : CodeOwner) (code : String) :
    (Visit.enter (owner.withCode code)).tag? = owner.tag? := by
  cases owner <;> rfl

namespace State

/-- Every tag so far is made by its line, and so is the one that is under way. -/
structure Sourced (settings : Settings) (s : State) : Prop where
  told : s.builder.Sourced settings
  pending : ∀ tag ∈ s.phase.tag?, s.builder.Makes settings tag

variable {s t : State}

theorem sourced_takeCode (told : s.builder.Sourced settings) {owner : CodeOwner}
    (made : ∀ tag ∈ owner.tag?, s.builder.Makes settings tag) (segments : List (List Char))
    (line : Line) (cs : List Char) : (s.takeCode owner segments line cs).Sourced settings := by
  unfold takeCode
  simp only
  split
  · exact ⟨told, made⟩
  · refine ⟨sourced_newline (sourced_begin told ?_), makes_of_none rfl⟩
    rw [CodeOwner.tag?_withCode]
    exact made

theorem sourced_takeTail (told : s.builder.Sourced settings) (tab : Nat) {tag : TagHead}
    (made : s.builder.Makes settings tag.tag) (line : Line) (tail : Tail) :
    (s.takeTail tab tag line tail).Sourced settings := by
  have fresh : ∀ other ∈ some tag.tag, s.builder.Makes settings other := by
    intro other same
    exact Option.mem_some.1 same ▸ made
  cases tail with
  | output mark cs =>
    have pending : ∀ other ∈ (CodeOwner.tag tag.name tag.attrs mark).tag?,
        s.builder.Makes settings other := fresh
    exact sourced_takeCode told pending [] line cs
  | void => exact ⟨sourced_newline (sourced_place told fresh), makes_of_none rfl⟩
  | block => exact ⟨sourced_newline (sourced_begin told fresh), makes_of_none rfl⟩
  | text inline => exact ⟨sourced_begin told fresh, makes_of_none rfl⟩

theorem sourced_takeAttributes {tab : Nat} {tag : TagHead} {close : Option Char} {line : Line}
    {cs : List Char} (told : s.builder.Sourced settings) (made : s.builder.Makes settings tag.tag)
    (h : s.takeAttributes tab tag close line cs = .ok t) : t.Sourced settings := by
  obtain ⟨attrs, rest, -, taken⟩ := takeAttributes_cases h
  obtain ⟨d, last, makes⟩ := made
  have more : s.builder.Makes settings { tag with attrs := tag.attrs ++ attrs }.tag :=
    ⟨d, last, makes.append attrs⟩
  obtain ⟨bracket, -, rfl⟩ | ⟨angle, behind, tail, -, -, rfl⟩ := taken
  · refine ⟨sourced_newline told, ?_⟩
    intro other same
    rw [← Option.mem_some.1 same]
    exact (makes_place _ _ _).2 more
  · exact sourced_takeTail told tab more line tail

theorem sourced_separate (told : s.builder.Sourced settings) :
    s.separate.builder.Sourced settings := by
  unfold separate
  split
  · exact sourced_place told (makes_of_none rfl)
  · exact told

/-- A line that was dispatched makes the tag that it starts. -/
theorem sourced_takeHead {line : Line} {d : Dispatched} {head : Head}
    (told : s.builder.Sourced settings) (last : s.builder.dispatches.head? = some d)
    (reads : Head.read d.text = head) (h : takeHead settings s line head = .ok t) :
    t.Sourced settings := by
  cases head with
  | tag name rest =>
    change s.separate.takeTag _ _ line rest = .ok t at h
    obtain ⟨close, inner, -, taken⟩ := takeTag_eq settings.tabSize
      ((name.map String.ofList).getD settings.defaultTag) line rest
    have attributes := h
    rw [taken] at attributes
    refine sourced_takeAttributes (sourced_separate told) ⟨d, ?_, ?_⟩ attributes
    · rw [dispatches_fills (fills_separate s)]
      exact last
    · obtain ⟨text, -, tagged⟩ := Head.tagStart_of_read reads
      rw [reads]
      cases tagged with
      | nameless more mark => exact .nameless _ (shortcut_of_takeTag mark h)
      | named more word => exact .named _ _ _
  | control cs | output mark cs =>
    cases h
    exact sourced_takeCode told (makes_of_none rfl) _ _ _
  | embedded engine =>
    cases h
    exact ⟨sourced_begin (sourced_newline told) (makes_of_none rfl), makes_of_none rfl⟩
  | comment wide cs =>
    cases h
    exact ⟨sourced_begin told (makes_of_none rfl), makes_of_none rfl⟩
  | conditional condition =>
    cases h
    exact ⟨sourced_newline (sourced_begin told (makes_of_none rfl)), makes_of_none rfl⟩
  | remark =>
    cases h
    exact ⟨sourced_newline told, makes_of_none rfl⟩
  | doctype value =>
    cases h
    exact ⟨sourced_newline (sourced_place told (makes_of_none rfl)), makes_of_none rfl⟩
  | text glued cs =>
    cases h
    cases glued
    · exact ⟨sourced_separate told, makes_of_none rfl⟩
    · exact ⟨told, makes_of_none rfl⟩
  | unknown rest => cases h

theorem sourced_settle (told : s.builder.Sourced settings) (block : TextBlock) :
    (s.settle block).builder.Sourced settings := by
  unfold settle
  simp only
  split
  · exact sourced_placeBreaks told _
  · exact sourced_placeBreaks (sourced_place told (makes_of_none rfl)) _

theorem sourced_beforeDispatch {line : Line} (told : s.builder.Sourced settings)
    (h : s.beforeDispatch? settings line = some t) : t.builder.Sourced settings := by
  obtain ⟨-, phase, rfl⟩ | ⟨block, -, -, rfl⟩ := beforeDispatch_cases h
  · exact told
  · exact sourced_settle told block

theorem sourced_dispatch {line : Line} (told : s.builder.Sourced settings)
    (h : s.dispatch settings line = .ok t) : t.Sourced settings := by
  obtain ⟨-, rfl⟩ | ⟨builder, moved, -, fit, taken⟩ := dispatch_cases h
  · exact ⟨sourced_newline told, makes_of_none rfl⟩
  · have recorded : (s.fitted settings line builder moved).builder.Sourced settings :=
      sourced_cons (sourced_align fit told) rfl (makes_of_none rfl)
    exact sourced_takeHead recorded rfl rfl taken

/-- Whatever a line is for, every tag goes on to be made by its line. -/
theorem sourced_step {line : Line} (sourced : s.Sourced settings) (step : Step settings line s t) :
    t.Sourced settings := by
  obtain ⟨told, pending⟩ := sourced
  cases step with
  | blank start _ =>
    refine ⟨sourced_newline told, ?_⟩
    simp [breakLine, place, start, Phase.tag?]
  | header value rest _ _ _ =>
    have placed : (s.builder.place (.doctype (String.ofList value))).Sourced settings :=
      sourced_place told (makes_of_none rfl)
    exact ⟨sourced_newline placed, makes_of_none rfl⟩
  | code owner segments last under =>
    rw [under] at pending
    exact sourced_takeCode (s := { s with number := s.number + 1 }) told pending segments line line
  | attributes t tag close under taken =>
    rw [under] at pending
    exact sourced_takeAttributes (s := { s with number := s.number + 1 }) told (pending _ rfl) taken
  | text block more _ _ _ => exact ⟨told, makes_of_none rfl⟩
  | remark under _ =>
    refine ⟨sourced_newline told, ?_⟩
    simp [breakLine, place, under, Phase.tag?]
  | dispatch u t before taken =>
    have found := sourced_beforeDispatch told before
    exact sourced_dispatch (s := { u with number := u.number + 1 }) found taken

theorem sourced_start : ({} : State).Sourced settings := ⟨nofun, makes_of_none rfl⟩

theorem sourced_foldlM {lines : List Line} (ht : lines.foldlM (feed settings) {} = .ok t) :
    t.Sourced settings :=
  @run_induction settings (fun _ s => s.Sourced settings) (fun _ => sourced_step) lines [] {} t
    steady_start sourced_start ht

theorem sourced_finish {b : Builder} (sourced : s.Sourced settings) (h : s.finish = .ok b) :
    b.Sourced settings := by
  obtain ⟨-, rfl⟩ | ⟨block, -, rfl⟩ := finish_cases h
  · exact sourced_shut sourced.told _
  · exact sourced_shut (sourced_settle sourced.told block) _

end State

/-! The tags of a whole template. -/

theorem map_tagSources (log : List Event) :
    (tagSources log).map TagSource.tag = log.reverse.filterMap Event.tag? := by
  induction log with
  | nil => rfl
  | cons event older ih =>
    rw [tagSources, List.map_append, ih, List.reverse_cons, List.filterMap_append]
    cases found : event.tag? with
    | none => simp [found]
    | some tag => simp [found, TagSource.tag]

theorem line_of_tagSources {log : List Event} {source : TagSource} (mem : source ∈ tagSources log)
    {d : Dispatched} (line : source.line = some d) : d ∈ log.filterMap Event.dispatched? := by
  induction log with
  | nil => cases mem
  | cons event older ih =>
    have kept : older.filterMap Event.dispatched? ⊆ (event :: older).filterMap Event.dispatched? :=
      ((List.sublist_cons_self event older).filterMap _).subset
    rw [tagSources, List.mem_append] at mem
    obtain before | new := mem
    · exact kept (ih before)
    · obtain ⟨tag, -, rfl⟩ := Option.map_eq_some_iff.1 (Option.mem_toList.1 new)
      exact kept (List.mem_of_mem_head? line)

/-- The tags that the log of a reading tells of, oldest first. -/
def Reading.tagSources (reading : Reading) : List TagSource :=
  TemplateMarkup.tagSources reading.log.reverse

/-- The tags of a template's tree in document order. Each starts on a line of the template, and
where that line states no name the tag has the default one and a shortcut. -/
structure Accounts (settings : Settings) (source : String) (tree : Node) (tags : List TagSource) :
    Prop where
  all : tree.tags = tags.map TagSource.tag
  lines : ∀ tag ∈ tags, ∃ d line, tag.line = some d ∧
    (linesOf source.toList)[d.number - 1]? = some line ∧ d.text = trimLeft line
  nameless : ∀ tag ∈ tags, tag.isNameless = true →
    tag.name = settings.defaultTag ∧ ∃ attr ∈ tag.attrs, attr.IsShortcut

/-- The name of a tag starts with a word character where its line states one. -/
theorem TagSource.IsMade.cases {source : TagSource} (made : source.IsMade settings) :
    (source.isNameless = true ∧ source.name = settings.defaultTag ∧
      ∃ attr ∈ source.attrs, attr.IsShortcut) ∨
    ∃ c cs, source.isNameless = false ∧ source.name = String.ofList (c :: cs) ∧ isWord c = true := by
  obtain ⟨line, name, attrs⟩ := source
  obtain ⟨d, rfl, makes⟩ := made
  rw [isNameless, Option.any_some]
  generalize head : Head.read d.text = read at makes
  cases makes with
  | named stated rest =>
    rw [isNameless_of_read head]
    obtain ⟨text, -, tagged⟩ := Head.tagStart_of_read head
    cases tagged with
    | named more word => exact .inr ⟨_, _, rfl, rfl, word⟩
  | nameless rest short => exact .inl ⟨isNameless_of_read head, rfl, short⟩

theorem sourced_of_readLines {lines : List Line} {b : Builder} (h : readLines settings lines = .ok b) :
    b.Sourced settings := by
  obtain ⟨s, hs, hb⟩ := run_of_readLines h
  exact State.sourced_finish (State.sourced_foldlM hs) hb

/-- The tags of a tree are those that the log tells of. -/
theorem tags_of_readLines {lines : List Line} {b : Builder} (h : readLines settings lines = .ok b) :
    b.tree.tags = (tagSources b.log).map TagSource.tag := by
  obtain ⟨c, moves, rfl⟩ := readLines_ok h
  have told := told_of_moves (moves.trans (moves_closeAll c))
  rw [map_tagSources, ← Node.filterMap_walk, ← script_closeAll, ← told, List.filterMap_filterMap]
  rfl

theorem accounts_of_parse {source : String} {tree : Node} (h : parse settings source = .ok tree) :
    Accounts settings source tree (readTemplate settings source).tagSources := by
  obtain ⟨b, read, rfl, log⟩ := readLines_of_parse h
  have sourced := sourced_of_readLines read
  rw [Reading.tagSources, log, List.reverse_reverse]
  refine ⟨tags_of_readLines read, ?_, ?_⟩
  · intro tag mem
    obtain ⟨d, line, -⟩ := sourced tag mem
    have dispatched := line_of_tagSources mem line
    rw [← List.mem_reverse, ← List.filterMap_reverse, ← log] at dispatched
    obtain ⟨before, text, after, -, -, split, rfl, -⟩ := dispatches_readTemplate dispatched
    refine ⟨_, text, line, ?_, rfl⟩
    simp [split]
  · intro tag mem nameless
    obtain ⟨-, made⟩ | ⟨c, cs, stated, -⟩ := (sourced tag mem).cases
    · exact made
    · rw [nameless] at stated
      cases stated

end TemplateMarkup
