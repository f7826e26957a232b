import TemplateMarkup.Proofs.Reading.Moves
import TemplateMarkup.Proofs.Text.Lines
import TemplateMarkup.Proofs.WellFormed.Line

/-! The tree of a template is well formed. Any line may add to the open blocks but to that of a
comment or of embedded text, which gets its one text and is ended before the next line is taken. -/
namespace TemplateMarkup
open Builder

def CodeOwner.Sound (fallback : String) : CodeOwner → Prop
  | tag name attrs _ => IsTagName fallback name ∧ Attr.Ordered attrs
  | control | output _ => True

theorem CodeOwner.holdsNodes_withCode {fallback : String} {owner : CodeOwner}
    (h : owner.Sound fallback) (code : String) : (owner.withCode code).HoldsNodes fallback := by
  cases owner with
  | control | output mark => trivial
  | tag name attrs mark => exact h

structure TagHead.Sound (fallback : String) (tag : TagHead) : Prop where
  named : IsTagName fallback tag.name
  ordered : Attr.Ordered tag.attrs

namespace Phase

/-- What the construct under way is known to be made of. -/
def Sound (fallback : String) : Phase → Prop
  | code owner _ _ => owner.Sound fallback
  | attributes tag _ => tag.Sound fallback
  | _ => True

/-- A block may wait for the text under way; otherwise lines may add any node to it. -/
def Pending (fallback : String) : Phase → Block → Prop
  | text gathered, block => block.Open fallback ∨ block.LacksText gathered.breaks
  | _, block => block.Open fallback

theorem pending_of_free {phase : Phase} (free : phase.isFree = true) (fallback : String) :
    phase.Pending fallback = Block.Open fallback := by
  cases phase <;> first | rfl | cases free

end Phase

/-- With the text that was gathered, and the line ends behind it, a block may end. -/
theorem complete_of_pending {fallback : String} {block : Block} {gathered : TextBlock}
    (h : (Phase.text gathered).Pending fallback block) (text : Option String)
    (filled : ∀ t ∈ text, t ≠ "") :
    Block.Complete fallback { block with
      nodes := List.replicate gathered.breaks .newline ++
        (text.toList.map Node.interpolate ++ block.nodes) } := by
  obtain opened | lacking := h
  · have breaks : ∀ node ∈ List.replicate gathered.breaks Node.newline,
        node.WellFormed fallback := by
      intro node mem
      rw [List.eq_of_mem_replicate mem]
      exact .newline
    have texts : ∀ node ∈ text.toList.map Node.interpolate, node.WellFormed fallback := by
      intro node mem
      obtain ⟨t, ht, rfl⟩ := List.mem_map.1 mem
      exact .interpolate (filled t (by simpa using ht))
    refine Block.Open.complete ⟨opened.owner, ?_⟩
    exact List.forall_mem_append.2 ⟨breaks, List.forall_mem_append.2 ⟨texts, opened.nodes⟩⟩
  · have reversed : (List.replicate gathered.breaks Node.newline ++
        text.toList.map Node.interpolate).reverse = Node.passage text gathered.breaks := by
      cases text <;> simp [Node.passage]
    rw [Block.Complete, lacking.empty, List.append_nil, reversed]
    exact Owner.wellFormed_enclose_passage lacking.owner filled

namespace State

/-- What is known of a state between two lines. -/
structure Sound (fallback : String) (s : State) : Prop where
  builder : s.builder.Sound fallback (s.phase.Pending fallback)
  phase : s.phase.Sound fallback

variable {fallback : String} {s t : State} {line : Line}

theorem sound_takeCode (h : s.builder.Sound fallback (Block.Open fallback)) {owner : CodeOwner}
    (known : owner.Sound fallback) (segments : List (List Char)) (line : Line) (cs : List Char) :
    (s.takeCode owner segments line cs).Sound fallback := by
  unfold takeCode
  simp only
  split
  · exact ⟨h, known⟩
  · exact ⟨(h.beginOpen (CodeOwner.holdsNodes_withCode known _)).place .newline, trivial⟩

/-- A text may be gathered for any block. -/
theorem sound_takeText (h : s.builder.Sound fallback (Block.Open fallback)) (block : TextBlock) :
    (s.takeText block).Sound fallback :=
  ⟨h.mono fun _ => .inl, trivial⟩

/-- The text that an opened block is for is gathered from its own line on. -/
theorem sound_beginText (h : s.builder.Sound fallback (Block.Open fallback)) {owner : Owner}
    (block : TextBlock) (holds : owner.HoldsText block.breaks) :
    ((s.begin owner).takeText block).Sound fallback :=
  ⟨h.begin (.inr ⟨holds, rfl⟩), trivial⟩

theorem sound_takeTail (h : s.builder.Sound fallback (Block.Open fallback)) {tag : TagHead}
    (known : tag.Sound fallback) (tab : Nat) (line : Line) (tail : Tail) :
    (s.takeTail tab tag line tail).Sound fallback := by
  have holds : (Owner.tag tag.name tag.attrs).HoldsNodes fallback := ⟨known.named, known.ordered⟩
  cases tail with
  | output mark cs =>
    have owner : (CodeOwner.tag tag.name tag.attrs mark).Sound fallback := holds
    exact sound_takeCode h owner _ line cs
  | void => exact ⟨(h.place (.voidTag known.named known.ordered)).place .newline, trivial⟩
  | block => exact ⟨(h.beginOpen holds).place .newline, trivial⟩
  | text inline => exact sound_takeText (h.beginOpen holds) _

theorem sound_takeAttributes (h : s.builder.Sound fallback (Block.Open fallback)) {tag : TagHead}
    (known : tag.Sound fallback) {tab : Nat} {close : Option Char} {cs : List Char}
    (unbroken : '\n' ∉ cs) (taken : s.takeAttributes tab tag close line cs = .ok t) :
    t.Sound fallback := by
  obtain ⟨attrs, rest, hattrs, ends⟩ := takeAttributes_cases taken
  have more : TagHead.Sound fallback { tag with attrs := tag.attrs ++ attrs } :=
    ⟨known.named, known.ordered.append (isListed_readAttributes unbroken hattrs)⟩
  obtain ⟨bracket, -, rfl⟩ | ⟨angle, behind, tail, -, -, rfl⟩ := ends
  · exact ⟨h.place .newline, more⟩
  · exact sound_takeTail h more tab line tail

theorem sound_takeTag (h : s.builder.Sound fallback (Block.Open fallback)) {tab : Nat}
    {name : String} (named : IsTagName fallback name) {cs : List Char} (unbroken : '\n' ∉ cs)
    (taken : s.takeTag tab name line cs = .ok t) : t.Sound fallback := by
  obtain ⟨close, inner, suffix, same⟩ := takeTag_eq tab name line cs
  rw [same] at taken
  have clean : '\n' ∉ inner :=
    fun mem => unbroken ((suffix.trans (readShortcuts_suffix cs)).subset mem)
  have ordered := Attr.ordered_of_shortcuts (isShortcut_readShortcuts cs)
  exact sound_takeAttributes h ⟨named, ordered⟩ clean taken

theorem sound_separate (h : s.builder.Sound fallback (Block.Open fallback)) :
    s.separate.builder.Sound fallback (Block.Open fallback) := by
  unfold separate
  split
  · exact h.place .static
  · exact h

theorem isTagName_getD {written : Option (List Char)} (known : ∀ cs ∈ written, isName cs = true) :
    IsTagName fallback ((written.map String.ofList).getD fallback) := by
  cases written with
  | none => exact .inr rfl
  | some cs =>
    have name := known cs rfl
    have line := newline_not_mem_of_isName name
    exact .inl ⟨by simpa using name, by simpa using line⟩

theorem sound_takeHead {settings : Settings}
    (h : s.builder.Sound settings.defaultTag (Block.Open settings.defaultTag)) {head : Head}
    (known : head.Sound) (unbroken : '\n' ∉ head.unread)
    (taken : takeHead settings s line head = .ok t) : t.Sound settings.defaultTag := by
  cases head with
  | control cs =>
    cases taken
    have known : CodeOwner.control.Sound settings.defaultTag := trivial
    exact sound_takeCode h known _ line cs
  | output mark cs =>
    cases taken
    have known : (CodeOwner.output mark).Sound settings.defaultTag := trivial
    exact sound_takeCode h known _ line cs
  | embedded engine =>
    cases taken
    have holds : (Owner.embedded (String.ofList engine)).HoldsText 0 := oneLine_ofList.2 known
    exact sound_beginText (s := { s with gap := false }.breakLine) (h.place .newline)
      (.empty true 0) holds
  | comment spaced cs =>
    cases taken
    refine sound_beginText (s := { s with gap := false }) h _ ?_
    split <;> exact Nat.one_pos
  | tag name cs => exact sound_takeTag (sound_separate h) (isTagName_getD known) unbroken taken
  | conditional condition =>
    cases taken
    have holds : (Owner.conditional (String.ofList condition)).HoldsNodes settings.defaultTag :=
      oneLine_ofList.2 known
    exact ⟨(h.beginOpen holds).place .newline, trivial⟩
  | remark =>
    cases taken
    exact ⟨h.place .newline, trivial⟩
  | doctype value =>
    cases taken
    exact ⟨(h.place (.doctype (oneLine_ofList.2 known))).place .newline, trivial⟩
  | text glued cs =>
    cases taken
    cases glued
    · exact sound_takeText (s := { s.separate with gap := true }) (sound_separate h) _
    · exact sound_takeText (s := { s with gap := true }) h _
  | unknown rest => cases taken

/-- A line that is blank or deeper has to find every block open; any other ends the innermost
block first. -/
theorem sound_dispatch {settings : Settings}
    (h : s.builder.Sound settings.defaultTag (Block.Complete settings.defaultTag))
    (inside : isBlank line = true ∨ s.builder.width < indentWidth settings.tabSize line →
      s.builder.Sound settings.defaultTag (Block.Open settings.defaultTag))
    (unbroken : '\n' ∉ line) (taken : s.dispatch settings line = .ok t) :
    t.Sound settings.defaultTag := by
  obtain ⟨blank, rfl⟩ | ⟨builder, moved, -, fit, headed⟩ := dispatch_cases taken
  · exact ⟨(inside (.inl blank)).place .newline, trivial⟩
  · have clean : '\n' ∉ trimLeft line := fun mem => unbroken ((trimLeft_suffix line).subset mem)
    have unread : '\n' ∉ (Head.read (trimLeft line)).unread :=
      fun mem => clean ((Head.read_unread _).subset mem)
    have aligned := h.align (fun deeper => inside (.inr deeper)) fit
    exact sound_takeHead (s := s.fitted settings line builder moved) (aligned.record _)
      (Head.sound_read clean) unread headed

/-- Once the text is there, the block that it was gathered for may end. -/
theorem sound_settle {block : TextBlock} (h : s.Sound fallback) (under : s.phase = .text block) :
    (s.settle block).builder.Sound fallback (Block.Complete fallback) := by
  have built := h.builder
  rw [under] at built
  unfold settle
  simp only
  split
  · refine built.placeBreaks _ ?_
    intro waiting pending
    exact complete_of_pending pending none (by simp)
  · next some_text =>
    have filled : String.ofList block.text ≠ "" := by
      intro empty
      have chars := congrArg String.toList empty
      rw [String.toList_ofList] at chars
      rw [chars] at some_text
      exact some_text rfl
    refine Sound.placeBreaks (P := fun waiting => Block.Complete fallback { waiting with
      nodes := List.replicate block.breaks .newline ++ waiting.nodes }) _ ?_ fun _ => id
    refine (built.add (.interpolate filled) ?_).record _
    intro waiting pending
    exact complete_of_pending pending (some (String.ofList block.text)) (by simpa using filled)

/-- A line that belongs to nothing before it finds a tree whose innermost block may end; and it may
go there, where it can. -/
theorem sound_beforeDispatch (h : s.Sound fallback) {settings : Settings}
    (before : s.beforeDispatch? settings line = some t) :
    t.builder.Sound fallback (Block.Complete fallback) ∧
      (isBlank line = true ∨ t.builder.width < indentWidth settings.tabSize line →
        t.builder.Sound fallback (Block.Open fallback)) := by
  have built := h.builder
  obtain ⟨free, phase, rfl⟩ | ⟨block, under, passed, rfl⟩ := beforeDispatch_cases before
  · rw [Phase.pending_of_free free] at built
    exact ⟨built.mono fun _ => Block.Open.complete, fun _ => built⟩
  · refine ⟨sound_settle h under, ?_⟩
    rw [width_fills (fills_settle s block)]
    -- The line is neither blank nor deeper, or it would belong to the text.
    obtain ⟨filled, level⟩ := passed_of_takes passed
    rintro (blank | deeper)
    · rw [filled] at blank
      cases blank
    · exact absurd deeper level

/-- A line end goes where any node may go. -/
theorem sound_breakLine (h : s.Sound fallback) (free : s.phase.isFree = true) :
    s.breakLine.Sound fallback := by
  have built := h.builder
  refine ⟨?_, h.phase⟩
  change (s.builder.place .newline).Sound fallback (s.phase.Pending fallback)
  rw [Phase.pending_of_free free] at built ⊢
  exact built.place .newline

theorem sound_step {settings : Settings} (h : s.Sound settings.defaultTag) (unbroken : '\n' ∉ line)
    (step : Step settings line s t) : t.Sound settings.defaultTag := by
  have built := h.builder
  have known := h.phase
  cases step with
  | blank start _ =>
    have free : s.phase.isFree = true := by rw [start]; rfl
    exact sound_breakLine (s := { s with number := s.number + 1 }) ⟨built, known⟩ free
  | header value rest start found _ =>
    rw [start] at built
    have value := fun mem => unbroken (doctypeHeader?_subset found mem)
    exact ⟨(built.place (.doctype (oneLine_ofList.2 value))).place .newline, trivial⟩
  | code owner segments last under =>
    rw [under] at built known
    exact sound_takeCode (s := { s with number := s.number + 1 }) built known segments line line
  | attributes t tag close under taken =>
    rw [under] at built known
    exact sound_takeAttributes (s := { s with number := s.number + 1 }) built known unbroken taken
  | text block more under _ taken =>
    rw [under] at built
    refine ⟨built.mono ?_, trivial⟩
    rintro waiting (opened | lacking)
    · exact .inl opened
    · refine .inr ⟨lacking.owner.mono ?_, lacking.empty⟩
      rw [breaks_add taken]
      exact Nat.le_succ _
  | remark under _ =>
    have free : s.phase.isFree = true := by rw [under]; rfl
    exact sound_breakLine (s := { s with number := s.number + 1 }) ⟨built, known⟩ free
  | dispatch u t before taken =>
    obtain ⟨complete, inside⟩ := sound_beforeDispatch h before
    exact sound_dispatch (s := { u with number := u.number + 1 }) complete inside unbroken taken

theorem state_sound_start : Sound fallback {} := ⟨Builder.sound_start, trivial⟩

/-- At every moment of a reading the tree is sound. -/
theorem sound_foldlM {settings : Settings} {lines : List Line}
    (unbroken : ∀ line ∈ lines, '\n' ∉ line) (ht : lines.foldlM (feed settings) {} = .ok t) :
    t.Sound settings.defaultTag := by
  refine run_induction_unbroken ?_ unbroken steady_start state_sound_start ht
  intro line s t here sound step
  exact sound_step sound here step

theorem wellFormed_finish (h : s.Sound fallback) {b : Builder} (hb : s.finish = .ok b) :
    ∃ nodes, b.tree = .multi nodes ∧ ∀ node ∈ nodes, node.WellFormed fallback := by
  have built := h.builder
  obtain ⟨free, rfl⟩ | ⟨block, under, rfl⟩ := finish_cases hb
  · rw [Phase.pending_of_free free] at built
    exact Sound.tree (built.mono fun _ => Block.Open.complete)
  · exact Sound.tree (sound_settle h under)

end State

/-- Every tree that is read is a block of well-formed nodes. -/
theorem parse_wellFormed {settings : Settings} {source : String} {tree : Node}
    (h : parse settings source = .ok tree) :
    ∃ nodes, tree = .multi nodes ∧ ∀ node ∈ nodes, node.WellFormed settings.defaultTag := by
  obtain ⟨b, read, rfl, -⟩ := readLines_of_parse h
  obtain ⟨s, hs, hb⟩ := run_of_readLines read
  have unbroken : ∀ line ∈ linesOf source.toList, '\n' ∉ line :=
    fun line mem => newline_not_mem_of_mem_linesOf mem
  exact State.wellFormed_finish (State.sound_foldlM unbroken hs) hb

/-- A comment takes the deeper line for its text, and code is built behind it. -/
theorem parse_wellFormed_comment : ∃ nodes, parse {} "<!-- a\n   b\n- f\n  c" = .ok (.multi nodes) ∧
    nodes.length = 2 ∧ ∀ node ∈ nodes, node.WellFormed "div" := by
  have tree : parse {} "<!-- a\n   b\n- f\n  c" = .ok (.multi
      [.comment (.multi [.interpolate "a\nb", .newline, .newline]),
        .control "f" (.multi [.newline, .interpolate "c", .newline])]) := rfl
  obtain ⟨nodes, same, formed⟩ := parse_wellFormed tree
  cases same
  exact ⟨_, tree, rfl, formed⟩

end TemplateMarkup
