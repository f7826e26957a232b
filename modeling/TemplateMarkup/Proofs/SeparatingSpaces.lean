import TemplateMarkup.Proofs.Reading.Rows

/-! Separating spaces separate. Behind each stands a text or a tag. In front of each stands a text, a
tag or an output, unless the line before it was a text that came to nothing. -/
namespace TemplateMarkup
open Builder

/-- Whether a row, newest role first, ends with a word or a value. -/
def EndsInline (row : List Role) : Prop := row.head? = some .word ∨ row.head? = some .value

namespace Builder

/-- The row of the innermost level ends with a word or a value, perhaps that of the block which
awaits its width. -/
def Backs (b : Builder) : Prop := ∀ row ∈ b.settledRows.head?, EndsInline row

variable {b : Builder}

theorem settledRows_of_pending {block : Block} (pending : b.awaiting = some block) (node : Node) :
    (b.place node).settledRows = b.settledRows := by
  obtain ⟨root, levels, awaiting, log⟩ := b
  cases pending
  rfl

theorem settledRows_breakLine (b : Builder) : (b.place .newline).settledRows = b.settledRows := by
  cases pending : b.awaiting with
  | some block => exact settledRows_of_pending pending .newline
  | none =>
    obtain ⟨top, outer, rows⟩ := b.rows_ne_nil
    have added := rows_add rows .newline
    rw [← rows_of_idle pending, ← rows_of_idle (awaiting_place_eq_none pending .newline), rows]
    exact added

theorem settledRows_placeBreaks (b : Builder) (n : Nat) :
    (placeBreaks n b).settledRows = b.settledRows := by
  induction n generalizing b with
  | zero => rfl
  | succ n ih => rw [placeBreaks, ih, settledRows_breakLine]

theorem backs_begin (idle : b.awaiting = none) {owner : Owner}
    (inline : owner.role = .word ∨ owner.role = .value) : (b.begin owner).Backs := by
  obtain ⟨top, outer, rows⟩ := b.rows_ne_nil
  have pending : (b.begin owner).awaiting = some ⟨owner, []⟩ := rfl
  have begun := (rows_of_pending pending).symm.trans (rows_begin idle rows owner)
  intro row mem
  rw [(List.cons.inj begun).2] at mem
  cases mem
  exact inline.imp (congrArg some) (congrArg some)

theorem backs_place (idle : b.awaiting = none) {node : Node} (word : node.role = .word) :
    (b.place node).Backs := by
  obtain ⟨top, outer, rows⟩ := b.rows_ne_nil
  have placed : (b.place node).settledRows = node.role.onto top :: outer := by
    rw [← rows_of_idle (awaiting_place_eq_none idle node)]
    exact rows_add rows node
  intro row mem
  rw [placed, word] at mem
  cases mem
  exact .inl rfl

/-- Where the innermost level stays the same, the block that awaited its width is a node of it. -/
theorem rows_align {c : Builder} {width : Nat} (fit : b.align width = .ok (c, false)) :
    c.rows = b.settledRows := by
  obtain ⟨block, -, -, moved, -⟩ | ⟨level, rfl, -, moved⟩ := align_cases fit
  · cases moved
  · have same : b.width ≤ width := by simpa using moved.symm
    have flat : (b.levels.takeWhile (width < ·.width)) = [] := by
      cases levels : b.levels with
      | nil => rfl
      | cons top levels =>
        have width : b.width = top.width := by rw [Builder.width, levels]
        exact List.takeWhile_cons_of_neg (by simp; omega)
    rw [cutTo, flat]
    change b.closeAwaiting.rows = b.settledRows
    cases pending : b.awaiting with
    | none => rw [closeAwaiting_of_none pending, rows_of_idle pending]
    | some block => exact settledRows_closeAwaiting pending

end Builder

namespace State

variable {settings : Settings} {line : Line} {s t u : State}

/-- Where the next line may be set apart there is something to set it apart from, unless that is the
text under way. -/
def Backed (s : State) : Prop :=
  match s.phase with
  | .start | .remark => s.gap = false
  | .ready => s.gap = true → s.builder.Backs
  | .text _ => s.gap = true → s.builder.awaiting = none ∨ s.builder.Backs
  | .code .. | .attributes .. => True

theorem backed_takeCode (idle : s.builder.awaiting = none) (owner : CodeOwner)
    (segments : List (List Char)) (line : Line) (cs : List Char) :
    (s.takeCode owner segments line cs).Backed := by
  unfold takeCode
  simp only
  split
  · trivial
  · intro gap
    have inline (code : String) : (owner.withCode code).role = .word ∨
        (owner.withCode code).role = .value := by
      cases owner with
      | control => cases gap
      | output mark => exact .inr rfl
      | tag name attrs mark => exact .inl rfl
    have begun := backs_begin idle (inline (joinCode (trim cs :: segments)))
    rw [Builder.Backs, ← settledRows_breakLine] at begun
    exact begun

theorem backed_takeTail (idle : s.builder.awaiting = none) (tab : Nat) (tag : TagHead) (line : Line)
    (tail : Tail) : (s.takeTail tab tag line tail).Backed := by
  cases tail with
  | output mark cs => exact backed_takeCode idle _ _ _ _
  | void => exact fun gap => by cases gap
  | block => exact fun gap => by cases gap
  | text inline => exact fun _ => .inr (backs_begin idle (.inl rfl))

theorem backed_takeAttributes (idle : s.builder.awaiting = none) {tab : Nat} {tag : TagHead}
    {close : Option Char} {cs : List Char}
    (taken : s.takeAttributes tab tag close line cs = .ok t) : t.Backed := by
  obtain ⟨attrs, rest, -, ⟨bracket, -, rfl⟩ | ⟨angle, behind, tail, -, -, rfl⟩⟩ :=
    takeAttributes_cases taken
  · trivial
  · exact backed_takeTail idle tab _ line tail

theorem backed_takeHead (idle : s.builder.awaiting = none) {head : Head}
    (taken : takeHead settings s line head = .ok t) : t.Backed := by
  cases head with
  | control cs | output mark cs =>
    cases taken
    exact backed_takeCode idle _ _ _ _
  | embedded engine | comment spaced cs | conditional condition | doctype value =>
    cases taken
    exact fun gap => by cases gap
  | tag name cs =>
    obtain ⟨tag, close, inner, listed⟩ := takeAttributes_of_tag taken
    exact backed_takeAttributes (awaiting_separate idle) listed
  | remark =>
    cases taken
    rfl
  | text glued cs =>
    cases taken
    cases glued with
    | true => exact fun _ => .inl idle
    | false => exact fun _ => .inl (awaiting_separate idle)
  | unknown rest => cases taken

theorem Backed.of_free (h : s.Backed) (free : s.phase.isFree = true) (gap : s.gap = true) :
    s.builder.Backs := by
  unfold Backed at h
  cases phase : s.phase with
  | start | remark =>
    rw [phase, gap] at h
    cases h
  | ready =>
    rw [phase] at h
    exact h gap
  | code | attributes | text =>
    rw [phase] at free
    cases free

theorem backed_step (backed : s.Backed) (steady : s.Steady) (step : Step settings line s t) :
    t.Backed := by
  have h := backed
  unfold Backed at h
  cases step with
  | blank start _ =>
    rw [start] at h
    simpa [Backed, breakLine, place, start] using h
  | header value rest start _ _ =>
    rw [start] at h
    intro gap
    change s.gap = true at gap
    rw [h] at gap
    cases gap
  | code owner segments last under =>
    exact backed_takeCode (s := { s with number := s.number + 1 }) (steady (by rw [under]; rfl))
      owner segments line line
  | attributes t tag close under taken =>
    exact backed_takeAttributes (s := { s with number := s.number + 1 })
      (steady (by rw [under]; rfl)) taken
  | text block more under _ _ =>
    rw [under] at h
    exact h
  | remark under _ =>
    rw [under] at h
    simpa [Backed, breakLine, place, under] using h
  | dispatch u t found taken =>
    obtain ⟨blank, rfl⟩ | ⟨builder, moved, -, fit, headed⟩ := dispatch_cases taken
    · obtain ⟨free, phase, rfl⟩ | ⟨block, -, passed, -⟩ := beforeDispatch_cases found
      · intro gap
        have backs := backed.of_free free gap
        rw [Builder.Backs, ← settledRows_breakLine] at backs
        exact backs
      · rw [(passed_of_takes passed).1] at blank
        cases blank
    · have idle : builder.awaiting = none := awaiting_align fit
      exact backed_takeHead
        (s := { u with number := u.number + 1 }.fitted settings line builder moved) idle headed

theorem backed_foldlM {lines : List Line} (ht : lines.foldlM (feed settings) {} = .ok t) :
    t.Backed :=
  @run_induction settings (fun _ s => s.Backed) (fun steady backed => backed_step backed steady) lines
    [] {} t steady_start rfl ht

/-- A text that is there backs the next line, and so does a block that has a place in its row. -/
theorem backs_settle {block : TextBlock} (backed : s.builder.awaiting = none ∨ s.builder.Backs)
    (text : s.builder.awaiting = none → block.text ≠ []) : (s.settle block).builder.Backs := by
  unfold settle Builder.Backs
  simp only [settledRows_placeBreaks]
  cases pending : s.builder.awaiting with
  | none =>
    rw [if_neg (by simpa using text pending)]
    exact backs_place pending rfl
  | some waiting =>
    have backs := backed.resolve_left (by simp [pending])
    split
    · exact backs
    · rw [builder_place, settledRows_of_pending pending]
      exact backs

/-- A line that is set apart is so from a word or a value, unless a text came to nothing. -/
theorem endsInline_of_dispatches (backed : s.Backed) (here : s.Dispatches settings line u)
    (text : ∀ block, s.phase = .text block → s.builder.awaiting = none → block.text ≠ [])
    (gap : u.gap = true) : ∀ top ∈ u.builder.rows.head?, EndsInline top := by
  obtain @⟨r, builder, moved, before, -, -, fit⟩ := here
  obtain ⟨was, same⟩ : r.gap = true ∧ moved = false := by simpa [fitted] using gap
  subst same
  have due : s.gap = true := (fills_beforeDispatch before).2.2.1 ▸ was
  -- The block that awaited its width, or the text under way, is what the level around now ends with.
  have backs : r.builder.Backs := by
    obtain ⟨free, phase, rfl⟩ | ⟨block, under, -, rfl⟩ := beforeDispatch_cases before
    · exact backed.of_free free due
    · unfold Backed at backed
      rw [under] at backed
      exact backs_settle (backed due) (text block under)
  change ∀ top ∈ builder.rows.head?, EndsInline top
  rw [rows_align fit]
  exact backs

end State

/-- No text that came to nothing is what a line is set apart from. -/
def NoEmptyText (settings : Settings) (source : String) : Prop :=
  ∀ before line after s u block, linesOf source.toList = before ++ line :: after →
    before.foldlM (State.feed settings) {} = .ok s → s.Dispatches settings line u →
    (Head.read (trimLeft line)).isSpaced = true → u.gap = true → s.phase = .text block →
    s.builder.awaiting = none → block.text ≠ []

/-- Separating spaces separate. In every block of a tree, line ends left out, each space is followed
by a text or a tag; and each comes behind a text, a tag or an output, if no text that came to
nothing is what a line is set apart from. -/
theorem spaces_separate {settings : Settings} {source : String} {tree : Node}
    (parsed : parse settings source = .ok tree) {nodes : List Node}
    (block : .multi nodes ∈ tree.preorder) {before after : List Role}
    (space : rowOf nodes = before ++ .space :: after) :
    after.head? = some .word ∧
      (NoEmptyText settings source →
        before.getLast? = some .word ∨ before.getLast? = some .value) := by
  obtain ⟨b, read, rfl, -⟩ := readLines_of_parse parsed
  obtain ⟨s, hs, hb⟩ := run_of_readLines read
  have newest : rowOf nodes.reverse = after.reverse ++ .space :: before.reverse := by
    rw [rowOf_reverse, space]
    simp
  constructor
  · have kept : s.HasRows fun _ => True :=
      State.hasRows_foldlM (fun _ _ _ _ _ _ _ _ _ _ _ _ => trivial) hs
    have row := State.hasRows_finish kept hb nodes block
    simpa using (row.at_space newest).1
  · intro filled
    have kept : s.HasRows EndsInline := by
      refine State.hasRows_foldlM ?_ hs
      intro front line back r u split hr here spaced gap
      exact State.endsInline_of_dispatches (State.backed_foldlM hr) here
        (fun text under idle => filled front line back r u text split hr here spaced gap under idle) gap
    have row := State.hasRows_finish kept hb nodes block
    simpa [EndsInline] using (row.at_space newest).2

/-- The space in front of a text stands between it and the output before. -/
theorem spaces_separate_output : ∃ nodes before after, parse {} "= x\ny" = .ok (.multi nodes) ∧
    rowOf nodes = before ++ .space :: after ∧ after.head? = some .word ∧
    (before.getLast? = some .word ∨ before.getLast? = some .value) := by
  have tree : parse {} "= x\ny" = .ok (.multi [.output true "x" (.multi [.newline]), .static " ",
      .interpolate "y", .newline]) := rfl
  have filled : NoEmptyText {} "= x\ny" := by
    intro before line after s u block split run _ _ _ under _
    have lines : linesOf "= x\ny".toList = ["= x".toList, "y".toList] := by decide
    rw [lines] at split
    rcases before with _ | ⟨_, _ | ⟨_, before⟩⟩
    · cases run
      cases under
    · cases split
      cases run
      cases under
    · simp at split
  have space : rowOf [.output true "x" (.multi [.newline]), .static " ", .interpolate "y", .newline] =
      [.value] ++ .space :: [.word] := rfl
  obtain ⟨behind, front⟩ := spaces_separate tree (List.mem_cons_self ..) space
  exact ⟨_, _, _, tree, space, behind, front filled⟩

/-- A marker without text is a text that comes to nothing, but the next line is set apart from it. So
a block may begin with a space. -/
theorem space_behind_marker : ∃ nodes after, parse {} ">\nfoo" = .ok (.multi nodes) ∧
    rowOf nodes = .space :: after := by
  have tree : parse {} ">\nfoo" =
      .ok (.multi [.newline, .static " ", .interpolate "foo", .newline]) := rfl
  exact ⟨_, [.word], tree, rfl⟩

end TemplateMarkup
