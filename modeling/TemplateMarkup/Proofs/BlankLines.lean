import TemplateMarkup.Proofs.Builder.Pruned
import TemplateMarkup.Proofs.LineEnds.Reading
import TemplateMarkup.Proofs.Reading.Dispatched

/-! Blank lines between constructs are neutral. Where a line belongs to nothing before it, blank
lines in front of it add their line ends to the tree, move the faults behind them down, and do
nothing else. -/
namespace TemplateMarkup
open Builder

/-- What blank lines make of the phase they stand in. A text counts them. -/
inductive Phase.Padded : Phase → Phase → Prop
  | free (phase : Phase) (free : phase.isFree = true) : Padded phase phase
  | text (block more : TextBlock) (verbatim : more.verbatim = block.verbatim)
      (parts : more.parts = block.parts) : Padded (.text block) (.text more)

variable {settings : Settings} {line : Line}

namespace State

/-- The second state has met `k` blank lines more, where they belong to no code and no tag. -/
structure Padded (k : Nat) (s t : State) : Prop where
  number : t.number = s.number + k
  builder : SamePruned s.builder t.builder
  gap : t.gap = s.gap
  phase : s.phase.Padded t.phase

variable {k : Nat} {s t u : State}

theorem Padded.breakLine (h : Padded k s t) :
    Padded (k + 1) s { t with number := t.number + 1 }.breakLine :=
  ⟨congrArg (· + 1) h.number, h.builder.trans (.breakLine t.builder), h.gap, h.phase⟩

/-- One more blank line. -/
theorem Padded.feed (h : Padded k s t) (settings : Settings) (blank : isBlank line = true) :
    ∃ u, t.feed settings line = .ok u ∧ Padded (k + 1) s u := by
  have broken := h.breakLine
  obtain ⟨number, builder, gap, phase⟩ := s
  obtain ⟨number', builder', gap', phase'⟩ := t
  obtain ⟨hnumber, hbuilder, hgap, hphase⟩ := h
  simp only at hnumber hbuilder hgap hphase
  cases hphase with
  | free _ free =>
    cases phase with
    | start => exact ⟨_, by simp [State.feed, takeFirst, blank], broken⟩
    | ready =>
      -- Even a block that awaits its width goes on to await it behind the line end.
      refine ⟨_, dispatch_blank blank, ?_⟩
      exact ⟨broken.number, broken.builder, broken.gap, broken.phase⟩
    | remark => exact ⟨_, by simp [State.feed, blank], broken⟩
    | code owner segments last => cases free
    | attributes tag close => cases free
    | text block => cases free
  | text block more verbatim parts =>
    have within := more.isBlankLine_of_isBlank blank
    refine ⟨_, by simp [State.feed, TextBlock.takes, TextBlock.add, within]; rfl, ?_⟩
    exact ⟨congrArg (· + 1) hnumber, hbuilder, hgap, .text block _ verbatim parts⟩

theorem Padded.foldlM {blanks : List Line} (h : Padded k s t) (settings : Settings)
    (blank : ∀ line ∈ blanks, isBlank line = true) :
    ∃ u, blanks.foldlM (State.feed settings) t = .ok u ∧ Padded (k + blanks.length) s u := by
  induction blanks generalizing k t with
  | nil => exact ⟨t, rfl, h⟩
  | cons line blanks ih =>
    obtain ⟨first, rest⟩ := List.forall_mem_cons.1 blank
    obtain ⟨u, fed, onward⟩ := h.feed settings first
    obtain ⟨v, run, padded⟩ := ih onward rest
    refine ⟨v, ?_, ?_⟩
    · rw [List.foldlM_cons, fed]
      exact run
    · rwa [List.length_cons, Nat.add_comm blanks.length, ← Nat.add_assoc]

theorem padded_start (free : s.phase.isFree = true ∨ ∃ block, s.phase = .text block) :
    Padded 0 s s := by
  refine ⟨rfl, .refl _, rfl, ?_⟩
  obtain free | ⟨block, under⟩ := free
  · exact .free _ free
  · rw [under]
    exact .text block block rfl rfl

/-- A text that has counted more blank lines holds no other text. -/
theorem samePruned_settle (h : SamePruned s.builder t.builder) {block more : TextBlock}
    (parts : more.parts = block.parts) :
    SamePruned (s.settle block).builder (t.settle more).builder := by
  have text : more.text = block.text := congrArg (fun parts => parts.reverse.flatten) parts
  unfold settle
  simp only [text]
  split
  · exact (SamePruned.placeBreaks _ _).symm.trans (h.trans (.placeBreaks _ _))
  · exact (SamePruned.placeBreaks _ _).symm.trans ((h.place _).trans (.placeBreaks _ _))

/-- Where a line belongs to nothing before it, it still does so behind blank lines. -/
theorem Padded.beforeDispatch (h : Padded k s t) (before : s.beforeDispatch? settings line = some u) :
    ∃ v, t.beforeDispatch? settings line = some v ∧ v.number = u.number + k ∧
      SamePruned u.builder v.builder ∧ v.gap = u.gap := by
  obtain ⟨number, builder, gap, phase⟩ := s
  obtain ⟨number', builder', gap', phase'⟩ := t
  obtain ⟨hnumber, hbuilder, hgap, hphase⟩ := h
  simp only at hnumber hbuilder hgap hphase
  have width : builder'.width = builder.width := samePruned_congruence.width hbuilder
  cases hphase with
  | free _ free =>
    cases phase with
    | start | ready =>
      cases before
      exact ⟨_, rfl, hnumber, hbuilder, hgap⟩
    | remark =>
      simp only [beforeDispatch?, width] at before ⊢
      split at before
      · cases before
      · next outside =>
        cases before
        rw [if_neg outside]
        exact ⟨⟨number', builder', gap', .ready⟩, rfl, hnumber, hbuilder, hgap⟩
    | code owner segments last => cases free
    | attributes tag close => cases free
    | text block => cases free
  | text block more verbatim parts =>
    have takes : more.takes settings.tabSize builder.width line =
        block.takes settings.tabSize builder.width line := by
      simp only [TextBlock.takes, TextBlock.isBlankLine, verbatim]
    simp only [beforeDispatch?, width, takes] at before ⊢
    split at before
    · cases before
    · next passed =>
      cases before
      rw [if_neg passed]
      refine ⟨settle ⟨number', builder', gap', .text more⟩ more, rfl, ?_,
        samePruned_settle hbuilder parts, ?_⟩
      · rw [number_settle, number_settle]
        exact hnumber
      · rw [gap_settle, gap_settle]
        exact hgap

theorem Padded.phase_start_iff (h : Padded k s t) : t.phase = .start ↔ s.phase = .start := by
  have phase := h.phase
  generalize s.phase = p at phase ⊢
  generalize t.phase = q at phase ⊢
  cases phase with
  | free => rfl
  | text => simp

/-- A line that is dispatched is taken alike behind blank lines, -/
theorem Padded.agree_feed (h : Padded k s t) (here : s.Dispatches settings line u) :
    Agree (Alike SamePruned k) k (s.feed settings line) (t.feed settings line) := by
  obtain @⟨r, builder, moved, before, filled, plain, fit⟩ := here
  obtain ⟨v, before', number, related, gap⟩ := h.beforeDispatch before
  rw [feed_of_filled before filled plain,
    feed_of_filled before' filled fun start => plain (h.phase_start_iff.1 start)]
  refine agree_dispatch (s := { r with number := r.number + 1 })
    (t := { v with number := v.number + 1 }) samePruned_congruence ?_ related gap settings line
  simp only [number]
  omega

/-- and so is the end of a template. -/
theorem Padded.finish (h : Padded k s t) {b : Builder} (hb : s.finish = .ok b) :
    ∃ c, t.finish = .ok c ∧ SamePruned b c := by
  obtain ⟨number, builder, gap, phase⟩ := s
  obtain ⟨number', builder', gap', phase'⟩ := t
  obtain ⟨hnumber, hbuilder, hgap, hphase⟩ := h
  simp only at hnumber hbuilder hgap hphase
  cases hphase with
  | free _ free =>
    cases phase with
    | start | ready | remark =>
      cases hb
      exact ⟨_, rfl, samePruned_congruence.closeAll hbuilder⟩
    | code owner segments last => cases free
    | attributes tag close => cases free
    | text block => cases free
  | text block more verbatim parts =>
    cases hb
    exact ⟨_, rfl, samePruned_congruence.closeAll (samePruned_settle hbuilder parts)⟩

/-- Blank lines in front of a line that is dispatched change nothing else, -/
theorem agree_padded {before blanks after : List Line} (hs : before.foldlM (feed settings) {} = .ok s)
    (here : s.Dispatches settings line u) (blank : ∀ line ∈ blanks, isBlank line = true) :
    Agree SamePruned blanks.length (readLines settings (before ++ line :: after))
      (readLines settings (before ++ (blanks ++ line :: after))) := by
  obtain @⟨r, builder, moved, found, filled, plain, fit⟩ := id here
  have free : s.phase.isFree = true ∨ ∃ block, s.phase = .text block :=
    (beforeDispatch_cases found).imp (·.1) fun ⟨block, under, _⟩ => ⟨block, under⟩
  obtain ⟨t, run, padded⟩ := (padded_start free).foldlM settings blank
  rw [Nat.zero_add] at padded
  have onward := (padded.agree_feed here).bind fun _ _ alike =>
    agree_rest samePruned_congruence alike settings after
  rw [readLines_append hs, readLines_append hs, List.foldlM_append, run]
  change Agree _ _ _ ((line :: after).foldlM (feed settings) t >>= State.finish)
  simpa only [List.foldlM_cons, bind_assoc] using onward

/-- and neither do any at the end of a template. -/
theorem agree_padded_end {before blanks : List Line} {b : Builder}
    (read : readLines settings before = .ok b) (blank : ∀ line ∈ blanks, isBlank line = true) :
    Agree SamePruned blanks.length (readLines settings before)
      (readLines settings (before ++ blanks)) := by
  obtain ⟨s, hs, hb⟩ := run_of_readLines read
  have free : s.phase.isFree = true ∨ ∃ block, s.phase = .text block :=
    (finish_cases hb).imp (·.1) fun ⟨block, under, _⟩ => ⟨block, under⟩
  obtain ⟨t, run, padded⟩ := (padded_start free).foldlM settings blank
  obtain ⟨c, hc, same⟩ := padded.finish hb
  rw [read, readLines_append hs, run]
  change Agree _ _ _ t.finish
  rw [hc]
  exact .ok same

end State

/-- Blank lines between constructs are neutral. Put before a line that is dispatched, or behind the
last line of a template that has a tree, they add their line ends to the tree and nothing else; and
a fault stands so many lines further down. -/
theorem blank_lines_neutral {source other : String} {before blanks after : List Line}
    (split : linesOf source.toList = before ++ after)
    (padded : linesOf other.toList = before ++ (blanks ++ after))
    (blank : ∀ line ∈ blanks, isBlank line = true)
    (between : (∃ width text,
        .dispatched (before.length + 1) width text ∈ (readTemplate settings source).log) ∨
      after = [] ∧ ∃ tree, parse settings source = .ok tree) :
    (∀ tree, parse settings source = .ok tree →
      ∃ tree', parse settings other = .ok tree' ∧ tree'.breaks = tree.breaks + blanks.length ∧
        tree'.pruned = tree.pruned) ∧
    ∀ d, parse settings source = .error d →
      parse settings other = .error { d with number := d.number + blanks.length } := by
  have agree : Agree SamePruned blanks.length (readLines settings (linesOf source.toList))
      (readLines settings (linesOf other.toList)) := by
    rw [split, padded]
    obtain ⟨width, text, told⟩ | ⟨rfl, tree, parsed⟩ := between
    · obtain ⟨line, rest, s, u, rfl, -, -, hs, here⟩ := dispatches_of_told split told
      exact State.agree_padded hs here blank
    · obtain ⟨b, read, -, -⟩ := readLines_of_parse parsed
      rw [split, List.append_nil] at read
      rw [List.append_nil, List.append_nil]
      exact State.agree_padded_end read blank
  generalize hx : readLines settings (linesOf source.toList) = x at agree
  generalize hy : readLines settings (linesOf other.toList) = y at agree
  cases agree with
  | ok same =>
    have parsed := parse_of_ok hx
    have parsed' := parse_of_ok hy
    constructor
    · intro tree found
      obtain rfl := Except.ok.inj (parsed.symm.trans found)
      refine ⟨_, parsed', Node.breaks_of_pruned same.pruned_tree ?_, same.pruned_tree⟩
      rw [lineEnds_parse parsed, lineEnds_parse parsed', split, padded]
      simp only [List.length_append]
      omega
    · intro d failed
      cases parsed.symm.trans failed
  | error fault =>
    have failed := parse_of_error hx
    constructor
    · intro tree found
      cases failed.symm.trans found
    · intro d found
      obtain rfl := Except.error.inj (failed.symm.trans found)
      rw [parse_of_error hy, fault]
      rfl

/-- Two blank lines below a text do not join it. -/
theorem blank_lines_neutral_text :
    ∃ tree tree', parse {} "- if x\n  a\n  = y" = .ok tree ∧
      parse {} "- if x\n  a\n\u2003\n\n  = y" = .ok tree' ∧ tree'.breaks = tree.breaks + 2 ∧
      tree'.pruned = tree.pruned := by
  have log : (readTemplate {} "- if x\n  a\n  = y").log =
      [.dispatched 1 0 "- if x".toList, .opened (.control "if x") 2, .placed .newline,
        .dispatched 2 2 "a".toList, .placed (.interpolate "a"), .placed .newline] ++
      .dispatched 3 2 "= y".toList ::
      [.opened (.output true "y") 3, .placed .newline, .closed 2, .closed 1] := rfl
  have told : .dispatched (["- if x".toList, "  a".toList].length + 1) 2 "= y".toList ∈
      (readTemplate {} "- if x\n  a\n  = y").log := by
    rw [log]
    simp
  have tree : parse {} "- if x\n  a\n  = y" = .ok (.multi [.control "if x" (.multi [.newline,
      .interpolate "a", .newline, .output true "y" (.multi [.newline])])]) := rfl
  have split : linesOf "- if x\n  a\n  = y".toList =
      ["- if x".toList, "  a".toList] ++ ["  = y".toList] := by decide
  have padded : linesOf "- if x\n  a\n\u2003\n\n  = y".toList =
      ["- if x".toList, "  a".toList] ++ (["\u2003".toList, []] ++ ["  = y".toList]) := by decide
  obtain ⟨tree', parsed, more, same⟩ :=
    (blank_lines_neutral split padded (by decide) (.inl ⟨_, _, told⟩)).1 _ tree
  exact ⟨_, tree', tree, parsed, more, same⟩

end TemplateMarkup
