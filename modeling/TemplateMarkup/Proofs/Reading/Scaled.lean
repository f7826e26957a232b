import TemplateMarkup.Proofs.Builder.Scaled
import TemplateMarkup.Proofs.Reading.Moves
import TemplateMarkup.Proofs.Tag.Readers

/-! Two readings of lines that differ in their indentation alone, the widths of the second changed
by a function that keeps their order. As long as texts take blank lines only, the trees differ in
their widths alone, and the faults are of the same cause. -/
namespace TemplateMarkup
open Builder

/-- A line of the same text whose indentation has the changed width. -/
structure Respaced (f : Nat → Nat) (tab : Nat) (line other : Line) : Prop where
  width : indentWidth tab other = f (indentWidth tab line)
  text : trimLeft other = trimLeft line
  header : doctypeHeader? other = doctypeHeader? line

/-- Results that are related, or faults of the same cause in lines of the same number. -/
inductive SameCause {α : Type} (Q : α → α → Prop) : Except Halt α → Except Halt α → Prop
  | ok {a b} (related : Q a b) : SameCause Q (.ok a) (.ok b)
  | error {h h' : Halt} (cause : h'.fault.cause = h.fault.cause)
      (number : h'.fault.number = h.fault.number) : SameCause Q (.error h) (.error h')

theorem SameCause.bind {α β : Type} {Q : α → α → Prop} {P : β → β → Prop} {x y : Except Halt α}
    {g g' : α → Except Halt β} (h : SameCause Q x y)
    (next : ∀ a b, x = .ok a → Q a b → SameCause P (g a) (g' b)) :
    SameCause P (x >>= g) (y >>= g') := by
  cases h with
  | ok related => exact next _ _ rfl related
  | error cause number => exact .error cause number

/-- Phases that differ in what a reading remembers of a line for its faults, and in the columns and
the blank lines of a text. -/
inductive Phase.Scaled : Phase → Phase → Prop
  | free (phase : Phase) (free : phase.isFree = true) : Scaled phase phase
  | code (owner : CodeOwner) (segments : List (List Char)) (last last' : Line) :
      Scaled (.code owner segments last) (.code owner segments last')
  | attributes (tag : TagHead) (line : Line) (close : Char) :
      Scaled (.attributes tag close) (.attributes { tag with line := line } close)
  | text (block more : TextBlock) (verbatim : more.verbatim = block.verbatim)
      (parts : more.parts = block.parts) (breaks : more.breaks = block.breaks) :
      Scaled (.text block) (.text more)

variable {f : Nat → Nat} {settings : Settings} {tab : Nat} {line other : Line}

theorem Respaced.isBlank (h : Respaced f tab line other) : isBlank other = isBlank line := by
  rw [isBlank_eq_isEmpty, isBlank_eq_isEmpty, h.text]

theorem Respaced.isBlankLine (h : Respaced f tab line other) {block more : TextBlock}
    (verbatim : more.verbatim = block.verbatim) :
    more.isBlankLine other = block.isBlankLine line := by
  unfold TextBlock.isBlankLine isBlankText
  rw [verbatim, h.isBlank, h.text]

namespace State

/-- If a text takes the line, the line is blank by some measure. -/
def GivesOnly (settings : Settings) (blank : TextBlock → Line → Bool) (line : Line) (s : State) :
    Prop :=
  ∀ block, s.phase = .text block → block.takes settings.tabSize s.builder.width line = true →
    blank block line = true

/-- The second state has the same tree but for its widths, and waits for the same. -/
structure Scaled (f : Nat → Nat) (s t : State) : Prop where
  number : t.number = s.number
  builder : t.builder = s.builder.scale f
  gap : t.gap = s.gap
  phase : s.phase.Scaled t.phase

variable {s t : State}

theorem Scaled.place (h : Scaled f s t) (node : Node) : Scaled f (s.place node) (t.place node) :=
  ⟨h.number, by rw [builder_place, builder_place, h.builder, scale_place], h.gap, h.phase⟩

theorem Scaled.breakLine (h : Scaled f s t) : Scaled f s.breakLine t.breakLine := h.place .newline

theorem Scaled.begin (h : Scaled f s t) (owner : Owner) : Scaled f (s.begin owner) (t.begin owner) := by
  refine ⟨h.number, ?_, h.gap, h.phase⟩
  change t.builder.begin owner = (s.builder.begin owner).scale f
  rw [h.builder, scale_begin]

theorem Scaled.separate (h : Scaled f s t) : Scaled f s.separate t.separate := by
  unfold State.separate
  rw [h.gap]
  split
  · exact h.place _
  · exact h

/-- What a state is replaced by where a line has said what the next one is for. -/
theorem Scaled.turn (h : Scaled f s t) (gap : Bool) {phase phase' : Phase}
    (scaled : phase.Scaled phase') :
    Scaled f { s with gap := gap, phase := phase } { t with gap := gap, phase := phase' } :=
  ⟨h.number, h.builder, rfl, scaled⟩

theorem sameCause_halt {Q : State → State → Prop} (h : Scaled f s t) (cause : Cause)
    (line other : Line) (rest rest' : List Char) :
    SameCause Q (s.halt cause line rest) (t.halt cause other rest') :=
  .error rfl h.number

theorem scaled_takeCode (h : Scaled f s t) (owner : CodeOwner) (segments : List (List Char))
    (line other : Line) {cs cs' : List Char} (same : trim cs' = trim cs) :
    Scaled f (s.takeCode owner segments line cs) (t.takeCode owner segments other cs') := by
  unfold takeCode
  simp only [same]
  split
  · exact ⟨h.number, h.builder, h.gap, .code owner _ line other⟩
  · exact ((h.turn owner.leavesGap (.free .ready rfl)).begin _).breakLine

theorem scaled_takeTail (h : Scaled f s t) (tab : Nat) (tag : TagHead) (first line other : Line)
    (tail : Tail) : Scaled f (s.takeTail tab tag line tail)
      (t.takeTail tab { tag with line := first } other tail) := by
  cases tail with
  | output mark cs => exact scaled_takeCode h _ _ _ _ rfl
  | void => exact ((h.turn false (.free .ready rfl)).place _).breakLine
  | block => exact ((h.turn false (.free .ready rfl)).begin _).breakLine
  | text inline =>
    have opened := h.begin (.tag tag.name tag.attrs)
    exact opened.turn true (.text _ _ rfl rfl rfl)

theorem sameCause_takeAttributes (h : Scaled f s t) (tab : Nat) (tag : TagHead)
    (close : Option Char) (first line other : Line) {cs cs' : List Char}
    (same : readAttributes close cs' = readAttributes close cs) :
    SameCause (Scaled f) (s.takeAttributes tab tag close line cs)
      (t.takeAttributes tab { tag with line := first } close other cs') := by
  unfold takeAttributes
  rw [same]
  split
  · exact sameCause_halt h _ _ _ _ _
  · simp only
    split
    · exact sameCause_halt h _ _ _ _ _
    · exact .ok ⟨h.number, h.breakLine.builder, h.gap, .attributes _ first _⟩
    · split
      · exact sameCause_halt h _ _ _ _ _
      · exact .ok (scaled_takeTail h _ _ _ _ _ _)

theorem sameCause_takeTag (h : Scaled f s t) (tab : Nat) (name : String) (line other : Line)
    (cs : List Char) :
    SameCause (Scaled f) (s.takeTag tab name line cs) (t.takeTag tab name other cs) := by
  unfold takeTag
  rw [h.number]
  obtain ⟨shortcuts, rest⟩ := readShortcuts cs
  have taken (close : Option Char) (cs : List Char) :=
    sameCause_takeAttributes h tab ⟨name, shortcuts, s.number, line⟩ close other line other
      (Eq.refl (readAttributes close cs))
  cases rest with
  | nil => exact taken none []
  | cons c inner =>
    simp only
    cases closingBracket c with
    | none => exact taken none (c :: inner)
    | some bracket => exact taken (some bracket) inner

/-- The text of a comment or of a text line, wherever it starts. -/
theorem Phase.scaled_started (empty : Bool) (column column' : Nat) (text : List Char) :
    Phase.Scaled (.text (if empty then .empty false 1 else .startAt column text))
      (.text (if empty then .empty false 1 else .startAt column' text)) := by
  cases empty <;> exact .text _ _ rfl rfl rfl

theorem sameCause_takeHead (h : Scaled f s t) (settings : Settings) (line other : Line)
    (head : Head) :
    SameCause (Scaled f) (takeHead settings s line head) (takeHead settings t other head) := by
  cases head with
  | control cs => exact .ok (scaled_takeCode h _ _ _ _ rfl)
  | output mark cs => exact .ok (scaled_takeCode h _ _ _ _ rfl)
  | embedded engine =>
    exact .ok ((h.breakLine.begin _).turn false (.text _ _ rfl rfl rfl))
  | comment spaced cs =>
    exact .ok ((h.begin .comment).turn false (Phase.scaled_started _ _ _ _))
  | tag name cs => exact sameCause_takeTag h.separate _ _ _ _ _
  | conditional condition =>
    exact .ok ((h.turn false (.free .ready rfl)).begin _).breakLine
  | remark => exact .ok (h.breakLine.turn false (.free .remark rfl))
  | doctype value =>
    exact .ok ((h.turn false (.free .ready rfl)).place _).breakLine
  | text glued cs =>
    have spaced : Scaled f (if glued then s else s.separate) (if glued then t else t.separate) := by
      split
      · exact h
      · exact h.separate
    exact .ok (spaced.turn true (Phase.scaled_started _ _ _ _))
  | unknown rest => exact sameCause_halt h _ _ _ _ _

section Monotone

variable (mono : StrictMono f) (zero : f 0 = 0)
include mono zero

theorem sameCause_dispatch (h : Scaled f s t) (respaced : Respaced f settings.tabSize line other) :
    SameCause (Scaled f) (s.dispatch settings line) (t.dispatch settings other) := by
  have fits := align_scale s.builder mono zero (indentWidth settings.tabSize line)
  unfold dispatch
  simp only [respaced.isBlank, respaced.text, respaced.width, h.builder, fits]
  split
  · exact .ok ⟨h.number, h.breakLine.builder, h.gap, .free .ready rfl⟩
  · cases s.builder.align (indentWidth settings.tabSize line) with
    | error misfit => exact .error rfl h.number
    | ok result =>
      obtain ⟨builder, moved⟩ := result
      have fitted : Scaled f (s.fitted settings line builder moved)
          { t with
            builder := (builder.scale f).record
              (.dispatched t.number (f (indentWidth settings.tabSize line)) (trimLeft line))
            gap := t.gap && !moved } :=
        ⟨h.number, by rw [h.number]; rfl, congrArg (· && !moved) h.gap, h.phase⟩
      exact sameCause_takeHead fitted settings line other (Head.read (trimLeft line))

omit mono zero in
theorem scaled_settle (h : Scaled f s t) {block more : TextBlock} (parts : more.parts = block.parts)
    (breaks : more.breaks = block.breaks) : Scaled f (s.settle block) (t.settle more) := by
  have text : more.text = block.text := congrArg (fun parts => parts.reverse.flatten) parts
  unfold settle
  simp only [text, breaks]
  split
  · exact ⟨h.number, by rw [h.builder, scale_placeBreaks], h.gap, .free .ready rfl⟩
  · have placed := h.place (.interpolate (String.ofList block.text))
    exact ⟨h.number, by rw [placed.builder, scale_placeBreaks], h.gap, .free .ready rfl⟩

theorem sameCause_takeFirst (h : Scaled f s t) (respaced : Respaced f settings.tabSize line other) :
    SameCause (Scaled f) (s.takeFirst settings line) (t.takeFirst settings other) := by
  unfold takeFirst
  rw [respaced.isBlank, respaced.header]
  split
  · exact .ok h.breakLine
  · split
    · exact sameCause_dispatch mono zero h respaced
    · next value rest _ =>
      split
      · have placed := (h.place (.doctype (String.ofList value))).breakLine
        exact .ok ⟨placed.number, placed.builder, placed.gap, .free .ready rfl⟩
      · exact sameCause_halt h _ _ _ _ _

/-- Both readings take one more line, which is blank if a text takes it. -/
theorem sameCause_feed (h : Scaled f s t) (respaced : Respaced f settings.tabSize line other)
    (blank : s.GivesOnly settings TextBlock.isBlankLine line) :
    SameCause (Scaled f) (s.feed settings line) (t.feed settings other) := by
  obtain ⟨n, b, g, phase⟩ := s
  obtain ⟨n', c, g', phase'⟩ := t
  obtain ⟨number, builder, gap, scaled⟩ := h
  simp only at number builder gap scaled
  subst number builder gap
  have next : Scaled f ⟨n' + 1, b, g', phase⟩ ⟨n' + 1, b.scale f, g', phase'⟩ := ⟨rfl, rfl, rfl, scaled⟩
  have width : (b.scale f).width = f b.width := width_scale b zero
  cases scaled with
  | free _ free =>
    cases phase with
    | start => exact sameCause_takeFirst mono zero next respaced
    | ready => exact sameCause_dispatch mono zero next respaced
    | remark =>
      simp only [feed, width, respaced.width, respaced.isBlank, mono.lt_iff_lt]
      split
      · exact .ok next.breakLine
      · exact sameCause_dispatch mono zero ⟨rfl, rfl, rfl, .free .ready rfl⟩ respaced
    | code owner segments last => cases free
    | attributes tag close => cases free
    | text block => cases free
  | code owner segments last last' =>
    have same : trim other = trim line := by rw [trim, respaced.text, trim]
    exact .ok (scaled_takeCode next owner segments line other same)
  | attributes tag first close =>
    have same : readAttributes (some close) other = readAttributes (some close) line := by
      rw [← readAttributes_trimLeft, respaced.text, readAttributes_trimLeft]
    exact sameCause_takeAttributes next settings.tabSize tag (some close) first line other same
  | text block more verbatim parts breaks =>
    have within : more.isBlankLine other = block.isBlankLine line := respaced.isBlankLine verbatim
    have takes : more.takes settings.tabSize (f b.width) other =
        block.takes settings.tabSize b.width line := by
      simp only [TextBlock.takes, within, respaced.width, mono.lt_iff_lt]
    simp only [feed, width, takes]
    split
    · next joined =>
      -- Only a blank line can join, and that needs no column of the text, which may be another.
      have empty := blank block rfl joined
      simp only [TextBlock.add, within, empty, if_true]
      exact .ok ⟨rfl, rfl, rfl, .text _ _ verbatim parts (congrArg (· + 1) breaks)⟩
    · exact sameCause_dispatch mono zero (scaled_settle next parts breaks) respaced

/-- So do they take any number of lines, -/
theorem sameCause_foldlM {lines others : List Line} (h : Scaled f s t)
    (respaced : List.Forall₂ (Respaced f settings.tabSize) lines others)
    (blank : ∀ before line after u, lines = before ++ line :: after →
      before.foldlM (feed settings) s = .ok u → u.GivesOnly settings TextBlock.isBlankLine line) :
    SameCause (Scaled f) (lines.foldlM (feed settings) s) (others.foldlM (feed settings) t) := by
  induction respaced generalizing s t with
  | nil => exact .ok h
  | @cons line other lines others first _ ih =>
    have fed := sameCause_feed mono zero h first (blank [] line lines s rfl rfl)
    rw [List.foldlM_cons, List.foldlM_cons]
    refine fed.bind fun u v hu related => ih related ?_
    intro before line' after w split run
    refine blank (line :: before) line' after w (congrArg (line :: ·) split) ?_
    rw [List.foldlM_cons, hu]
    exact run

omit mono zero in
/-- and the end of a template. -/
theorem sameCause_finish (h : Scaled f s t) :
    SameCause (fun b c => c = b.scale f) s.finish t.finish := by
  obtain ⟨n, b, g, phase⟩ := s
  obtain ⟨n', c, g', phase'⟩ := t
  obtain ⟨number, builder, gap, scaled⟩ := h
  simp only at number builder gap scaled
  subst number builder gap
  cases scaled with
  | free _ free =>
    cases phase with
    | start | ready | remark => exact .ok (scale_closeAll b).symm
    | code owner segments last => cases free
    | attributes tag close => cases free
    | text block => cases free
  | code owner segments last last' => exact .error rfl rfl
  | attributes tag first close => exact .error rfl rfl
  | text block more verbatim parts breaks =>
    have whole : Scaled f ⟨n', b, g', .text block⟩ ⟨n', b.scale f, g', .text more⟩ :=
      ⟨rfl, rfl, rfl, .text block more verbatim parts breaks⟩
    refine .ok ?_
    rw [(scaled_settle whole parts breaks).builder, scale_closeAll]

end Monotone

end State

end TemplateMarkup
