import TemplateMarkup.Proofs.InlineRemarks
import TemplateMarkup.Proofs.Passage.Joined
import TemplateMarkup.Proofs.WellFormed.Line

/-! Remarks behind tags that an angle bracket closes. What follows the bracket is told apart before
remarks are cut, so with a remark there the tag has text in it, though no character of it is ever
placed. That goes unseen as long as no line below is markup of the tag or is set apart from it. -/
namespace TemplateMarkup
open Builder

variable {settings : Settings} {cs behind : List Char}

/-! Tags that an angle bracket closes. -/

/-- The attributes of one line are `attrs`, an angle bracket closes their list, and `behind` follows
the bracket. -/
def EndsInAngle (close : Option Char) (cs : List Char) (attrs : List Attr) (behind : List Char) :
    Prop :=
  ∃ rest, readAttributes close cs = .ok (attrs, rest) ∧
    readListEnd close rest = .ok (.closed true behind)

theorem readListEnd_angle_iff {close : Option Char} {rest : List Char} :
    readListEnd close rest = .ok (.closed true behind) ↔ rest = close.toList ++ '>' :: behind := by
  cases close with
  | none =>
    constructor
    · intro ended
      unfold readListEnd at ended
      split at ended
      · cases ended
      · next same => cases same
      · cases ended
        rfl
      · cases ended
      · cases ended
      · cases ended
      · split at ended <;> cases ended
    · rintro rfl
      rfl
  | some bracket =>
    cases rest with
    | nil => simp [readListEnd]
    | cons c rest =>
      rw [readListEnd_bracket]
      cases rest with
      | nil => split <;> simp
      | cons d rest =>
        by_cases same : c = bracket <;> by_cases angle : d = '>' <;> simp [same, angle, dropFront]

theorem EndsInAngle.iff {close : Option Char} {attrs : List Attr} :
    EndsInAngle close cs attrs behind ↔
      readAttributes close cs = .ok (attrs, close.toList ++ '>' :: behind) := by
  simp [EndsInAngle, readListEnd_angle_iff]

theorem EndsInAngle.exists_front {close : Option Char} {attrs : List Attr}
    (h : EndsInAngle close cs attrs behind) : ∃ front, cs = front ++ '>' :: behind := by
  have left := readAttributes_suffix close cs
  rw [EndsInAngle.iff.1 h] at left
  exact exists_keep_of_suffix left

/-- The bracket closes the list whatever else follows it. -/
theorem EndsInAngle.append {close : Option Char} {attrs : List Attr}
    (h : EndsInAngle close cs attrs behind) (y : List Char) :
    EndsInAngle close (cs ++ y) attrs (behind ++ y) := by
  obtain ⟨front, rfl⟩ := h.exists_front
  rw [EndsInAngle.iff] at h ⊢
  simpa using readAttributes_sign .angle h (behind ++ y)

/-- Behind a tag's name, `cs` is its shortcuts and its attributes, all on one line, and an angle
bracket that `behind` follows. -/
structure TagEndsInAngle (cs : List Char) (shortcuts attrs : List Attr) (behind : List Char) :
    Prop where
  shortcuts : (readShortcuts cs).1 = shortcuts
  list : EndsInAngle (openList (readShortcuts cs).2).1 (openList (readShortcuts cs).2).2 attrs behind

theorem TagEndsInAngle.exists_front {shortcuts attrs : List Attr}
    (h : TagEndsInAngle cs shortcuts attrs behind) : ∃ front, cs = front ++ '>' :: behind := by
  obtain ⟨front, same⟩ := h.list.exists_front
  have left := (openList_suffix (readShortcuts cs).2).trans (readShortcuts_suffix cs)
  rw [same] at left
  exact exists_keep_of_suffix left

theorem TagEndsInAngle.append {shortcuts attrs : List Attr}
    (h : TagEndsInAngle cs shortcuts attrs behind) (y : List Char) :
    TagEndsInAngle (cs ++ y) shortcuts attrs (behind ++ y) := by
  obtain ⟨front, rfl⟩ := h.exists_front
  obtain ⟨begun, list⟩ := h
  cases read : readShortcuts (front ++ '>' :: behind) with
  | mk found rest =>
    rw [read] at begun list
    have stop : Stops isShortcutMark (trimLeft rest) := by
      refine stops_of_list (EndsInAngle.iff.1 list) fun unbracketed => ?_
      rw [unbracketed]
      rfl
    have onward := list.append y
    obtain ⟨keep, rfl⟩ : ∃ keep, rest = keep ++ '>' :: behind := by
      obtain ⟨front, same⟩ := list.exists_front
      exact exists_keep_of_suffix (same ▸ openList_suffix rest)
    have read' := readShortcuts_sign .angle read stop (behind ++ y)
    rw [List.append_assoc, List.cons_append]
    refine ⟨?_, ?_⟩
    · rw [read']
      exact begun
    · rw [openList_sign .angle] at onward
      simpa [read', openList_sign .angle] using onward

/-- `text` is a tag on one line that an angle bracket closes, and `behind` follows the bracket. -/
def IsClosedTag (text behind : List Char) : Prop :=
  ∃ name cs shortcuts attrs, Head.read text = .tag name cs ∧
    TagEndsInAngle cs shortcuts attrs behind

/-- The head of a closed tag is told in front of its bracket. -/
theorem read_closed_append {text : List Char} {name : Option (List Char)}
    {shortcuts attrs : List Attr} (head : Head.read text = .tag name cs)
    (closed : TagEndsInAngle cs shortcuts attrs behind) (y : List Char) :
    (∃ front, text = '<' :: front ++ '>' :: behind) ∧
      Head.read (text ++ y) = .tag name (cs ++ y) := by
  obtain ⟨inner, rfl, -⟩ := Head.tagStart_of_read head
  change Head.ofAngle inner = .tag name cs at head
  obtain ⟨rest, rfl⟩ := closed.exists_front
  obtain ⟨front, rfl⟩ : ∃ front, inner = front ++ '>' :: behind := by
    have left := Head.ofAngle_unread inner
    rw [head] at left
    exact exists_keep_of_suffix left
  refine ⟨⟨front, rfl⟩, ?_⟩
  change Head.ofAngle (front ++ '>' :: behind ++ y) = _
  rw [List.append_assoc, List.cons_append]
  cases Head.ofAngle_sign .angle front with
  | comment spaced rest' read =>
    rw [read] at head
    cases head
  | tag name' rest' read =>
    rw [read] at head
    obtain ⟨rfl, same⟩ := Head.tag.inj head
    rw [read, List.append_cancel_right same, List.append_assoc, List.cons_append]
  | unknown read =>
    rw [read] at head
    cases head

namespace State

variable {s t u : State}

theorem takeTag_closed {shortcuts attrs : List Attr} {tail : Tail}
    (closed : TagEndsInAngle cs shortcuts attrs behind) (told : Tail.read true behind = .ok tail)
    (s : State) (tab : Nat) (name : String) (line : Line) :
    s.takeTag tab name line cs =
      .ok (s.takeTail tab ⟨name, shortcuts ++ attrs, s.number, line⟩ line tail) := by
  obtain ⟨begun, rest, read, ended⟩ := closed
  rw [takeTag_openList, begun]
  simp only [takeAttributes, read, ended, told]

/-! The lines below such a tag. -/

/-- The second reading stands below a closed tag with a remark where the first one stands below the
tag alone, at some width: it gathers a text that nothing has joined, and that owes line ends. -/
structure Unheard (width : Nat) (block : TextBlock) (s t : State) : Prop where
  number : t.number = s.number
  inside : s.builder.width = width
  ready : s.phase = .ready
  gap : s.gap = false
  under : t.phase = .text block
  plain : block.verbatim = false
  silent : block.text = []
  builder : Over [] s.builder (placeBreaks block.breaks t.builder)

variable {width : Nat} {block : TextBlock}

theorem Unheard.settle (h : Unheard width block s t) :
    Over [] s.builder (t.settle block).builder := by
  simp only [State.settle, h.silent, List.isEmpty_nil, if_true]
  exact h.builder

theorem Unheard.width_eq (h : Unheard width block s t) : t.builder.width = width := by
  rw [← h.inside, ← (over_congruence []).width h.builder, width_fills (fills_placeBreaks _ _)]

/-- A blank line is a line end in both. -/
theorem Unheard.feed {line : Line} (h : Unheard width block s t) (settings : Settings)
    (blank : isBlank line = true) :
    ∃ s' t' more, s.feed settings line = .ok s' ∧ t.feed settings line = .ok t' ∧
      Unheard width more s' t' := by
  have within := block.isBlankLine_of_isBlank blank
  obtain ⟨more, added, parts⟩ : ∃ more, block.add settings.tabSize line = .ok more ∧
      more.parts = block.parts := ⟨_, TextBlock.add_blank within, rfl⟩
  refine ⟨{ s with number := s.number + 1 }.breakLine,
    { t with number := t.number + 1 }.takeText more, more, ?_, ?_, ?_⟩
  · simp [State.feed, h.ready, dispatch, blank, breakLine, State.place]
  · simp [State.feed, h.under, TextBlock.takes, within, added]
  · have broken := (over_congruence []).place h.builder .newline
    rw [← placeBreaks_succ, ← breaks_add added] at broken
    have silent : more.text = [] := by rw [TextBlock.text, parts, ← TextBlock.text, h.silent]
    exact ⟨congrArg (· + 1) h.number, (width_place _ _).trans h.inside, h.ready, h.gap, rfl,
      (TextBlock.kind_add added).trans h.plain, silent, broken⟩

theorem Unheard.foldlM {blanks : List Line} (h : Unheard width block s t) (settings : Settings)
    (blank : ∀ line ∈ blanks, isBlank line = true) :
    ∃ s' t' more, blanks.foldlM (State.feed settings) s = .ok s' ∧
      blanks.foldlM (State.feed settings) t = .ok t' ∧ Unheard width more s' t' := by
  induction blanks generalizing block s t with
  | nil => exact ⟨s, t, block, rfl, rfl, h⟩
  | cons line blanks ih =>
    obtain ⟨first, rest⟩ := List.forall_mem_cons.1 blank
    obtain ⟨s₁, t₁, more, fed, fed', onward⟩ := h.feed settings first
    obtain ⟨s₂, t₂, most, run, run', unheard⟩ := ih onward rest
    exact ⟨s₂, t₂, most, by rwa [List.foldlM_cons, fed], by rwa [List.foldlM_cons, fed'], unheard⟩

/-- The end of a template ends the text and all that it owes is placed. -/
theorem Unheard.finish (h : Unheard width block s t) : Agree (Over []) 0 s.finish t.finish := by
  simp only [State.finish, h.ready, h.under]
  exact .ok ((over_congruence []).closeAll h.settle)

/-- The text takes a filled line if it is deeper, and only then. -/
theorem Unheard.takes (h : Unheard width block s t) {tab : Nat} {line : Line}
    (filled : isBlankText line = false) :
    block.takes tab t.builder.width line = decide (width < indentWidth tab line) := by
  simp [TextBlock.takes, TextBlock.isBlankLine, h.plain, filled, h.width_eq]

end State

/-- A line is no markup inside a tag of some width above it, and is not set apart from it. -/
structure Apart (settings : Settings) (width : Nat) (line : Line) : Prop where
  filled : isBlankText line = false
  outside : indentWidth settings.tabSize line ≤ width
  unspaced : indentWidth settings.tabSize line = width →
    (Head.read (trimLeft line)).isSpaced = false

namespace State

variable {width : Nat} {s t u : State} {block : TextBlock} {line : Line}

/-- A line outside of the tag ends the text, and is taken alike. -/
theorem Unheard.agree_feed (h : Unheard width block s t) (apart : Apart settings width line) :
    Agree (Alike (Over []) 0) 0 (s.feed settings line) (t.feed settings line) := by
  obtain ⟨filled, outside, unspaced⟩ := apart
  have before : s.beforeDispatch? settings line = some s := by simp [beforeDispatch?, h.ready]
  have before' : t.beforeDispatch? settings line = some (t.settle block) := by
    simp [beforeDispatch?, h.under, h.takes filled, Nat.not_lt.2 outside]
  have notBlank := isBlank_of_isBlankText filled
  rw [feed_of_filled before notBlank fun start => by simp [h.ready] at start,
    feed_of_filled before' notBlank fun start => by simp [h.under] at start]
  refine agree_dispatch_of_gap (s := { s with number := s.number + 1 })
    (t := { t.settle block with number := (t.settle block).number + 1 }) (over_congruence []) ?_
    h.settle settings line (fun blank => ?_) fun spaced c moved fit => ?_
  · simp only [number_settle, h.number, Nat.add_zero]
  · rw [notBlank] at blank
    cases blank
  · -- A spaced line is less deep than the tag, and leaves its block.
    have less : indentWidth settings.tabSize line < width := by
      refine Nat.lt_of_le_of_ne outside fun same => ?_
      rw [unspaced same] at spaced
      cases spaced
    obtain rfl : moved = true := by
      obtain ⟨-, deeper, -⟩ | ⟨-, -, -, moved⟩ := align_cases fit
      · exact absurd (h.inside ▸ deeper) (Nat.not_lt.2 outside)
      · rw [moved]
        exact decide_eq_true (h.inside ▸ less)
    simp

/-- What is below the tag is read alike. -/
theorem Unheard.agree_rest {after : List Line} (h : Unheard width block s t)
    (apart : ∀ next ∈ after.head?, Apart settings width next) :
    Agree (Over []) 0 (after.foldlM (State.feed settings) s >>= State.finish)
      (after.foldlM (State.feed settings) t >>= State.finish) := by
  cases after with
  | nil => exact h.finish
  | cons next after =>
    rw [List.foldlM_cons, List.foldlM_cons, bind_assoc, bind_assoc]
    exact (h.agree_feed (apart next rfl)).bind fun _ _ alike =>
      State.agree_rest (over_congruence []) alike settings after

theorem Dispatches.width_eq (here : s.Dispatches settings line u) :
    u.builder.width = indentWidth settings.tabSize line := by
  obtain ⟨-, -, -, fit⟩ := here
  exact (width_record _ _).trans (width_align fit)

/-- A closed tag with a remark behind it opens the same block as the tag alone, and a text in it. -/
theorem unheard_of_closed {name : Option (List Char)} {shortcuts attrs : List Attr}
    (here : s.Dispatches settings line u) (head : Head.read (trimLeft line) = .tag name cs)
    (closed : TagEndsInAngle cs shortcuts attrs []) (c : List Char) :
    ∃ s' t' block, s.feed settings line = .ok s' ∧
      s.feed settings (line ++ ' ' :: '#' :: ' ' :: c) = .ok t' ∧
      Unheard (indentWidth settings.tabSize line) block s' t' := by
  obtain ⟨⟨front, text⟩, head'⟩ := read_closed_append head closed (' ' :: '#' :: ' ' :: c)
  obtain ⟨lead, rfl⟩ : ∃ lead, line = lead ++ '>' :: [] :=
    exists_keep_of_suffix (text ▸ trimLeft_suffix line)
  rw [trimLeft_sign .angle] at text head head'
  rw [List.append_assoc, List.singleton_append] at head' ⊢
  have filled : isBlankText (lead ++ '>' :: ' ' :: '#' :: ' ' :: c) = false := by
    rw [isBlankText, trimLeft_sign .angle, List.append_cancel_right text]
    rfl
  obtain ⟨v, here', alike, gap⟩ := here.of_sign .angle filled
  have width : u.builder.width = indentWidth settings.tabSize (lead ++ ['>']) := here.width_eq
  have told : Tail.read true ([] ++ ' ' :: '#' :: ' ' :: c) = .ok (.text ('#' :: ' ' :: c)) := rfl
  rw [here.feed_eq, here'.feed_eq, trimLeft_sign .angle, trimLeft_sign .angle, head, head']
  simp only [takeHead, takeTag_closed closed rfl, takeTag_closed (closed.append _) told]
  have begun := (over_congruence []).begin
    (related_spacedFor alike gap (.tag name cs)) (.tag ((name.map String.ofList).getD
      settings.defaultTag) (shortcuts ++ attrs))
  refine ⟨_, _, _, rfl, rfl, ⟨?_, ?_, rfl, rfl, rfl, rfl, rfl, ?_⟩⟩
  · change v.separate.number = u.separate.number
    rw [number_separate, number_separate, alike.number, Nat.add_zero]
  · change ((u.separate.builder.begin _).place .newline).width = _
    rw [width_place, width_begin, width_fills (fills_separate u), width]
  · exact (over_congruence []).place begun .newline

theorem foldlM_append_of_run {above : List Line} (run : above.foldlM (feed settings) {} = .ok s)
    (below : List Line) :
    (above ++ below).foldlM (feed settings) {} = below.foldlM (feed settings) s := by
  rw [List.foldlM_append, run]
  rfl

/-- Both readings run over the tag's line and the blank lines below it. -/
theorem unheard_foldlM {before blanks : List Line} (run : before.foldlM (feed settings) {} = .ok s)
    (here : s.Dispatches settings line u) (closed : IsClosedTag (trimLeft line) []) (c : List Char)
    (blank : ∀ l ∈ blanks, isBlank l = true) :
    ∃ s' t' block, (before ++ line :: blanks).foldlM (feed settings) {} = .ok s' ∧
      (before ++ (line ++ ' ' :: '#' :: ' ' :: c) :: blanks).foldlM (feed settings) {} = .ok t' ∧
      Unheard (indentWidth settings.tabSize line) block s' t' := by
  obtain ⟨name, cs, shortcuts, attrs, head, list⟩ := closed
  obtain ⟨s₁, t₁, block, fed, fed', start⟩ := unheard_of_closed here head list c
  obtain ⟨s₂, t₂, more, below, below', unheard⟩ := start.foldlM settings blank
  refine ⟨s₂, t₂, more, ?_, ?_, unheard⟩
  · rwa [foldlM_append_of_run run, List.foldlM_cons, fed]
  · rwa [foldlM_append_of_run run, List.foldlM_cons, fed']

end State

/-- A remark behind the angle bracket that ends a tag's line is as good as nothing where the next
filled line is outside of the tag: the tree, or the fault, is the same. A line that is deeper
instead is no longer read as markup of the tag: it is taken for text. -/
theorem closed_tag_remark_silent_outside {source other : String} {before blanks after : List Line}
    {line : Line} {width : Nat} {text c : List Char}
    (split : linesOf source.toList = before ++ line :: (blanks ++ after))
    (told : .dispatched (before.length + 1) width text ∈ (readTemplate settings source).log)
    (closed : IsClosedTag text [])
    (split' : linesOf other.toList = before ++ (line ++ " # ".toList ++ c) :: (blanks ++ after))
    (blank : ∀ l ∈ blanks, isBlank l = true) :
    ((∀ next ∈ after.head?, Apart settings width next) →
      parse settings other = parse settings source) ∧
    ∀ next ∈ after.head?, isBlankText next = false → width < indentWidth settings.tabSize next →
      ∀ w shown, .dispatched (before.length + blanks.length + 2) w shown ∉
        (readTemplate settings other).log := by
  obtain ⟨_, _, s, u, lines, rfl, rfl, run, here⟩ := dispatches_of_told split told
  obtain ⟨rfl, -⟩ := List.cons.inj lines
  obtain ⟨s', t', block, above, above', unheard⟩ := State.unheard_foldlM run here closed c blank
  have added : line ++ " # ".toList ++ c = line ++ ' ' :: '#' :: ' ' :: c := by simp
  rw [added, ← List.cons_append, ← List.append_assoc] at split'
  rw [← List.cons_append, ← List.append_assoc] at split
  constructor
  · intro apart
    apply parse_eq_of_agree
    rw [split, split', readLines_append above, readLines_append above']
    exact unheard.agree_rest apart
  · intro next first filled deeper w shown told'
    have count : before.length + blanks.length + 2 =
        (before ++ (line ++ ' ' :: '#' :: ' ' :: c) :: blanks).length + 1 := by
      simp only [List.length_append, List.length_cons]
      omega
    rw [count] at told'
    obtain ⟨_, rest, t, _, lines, -, -, run', here'⟩ := dispatches_of_told split' told'
    obtain rfl : t = t' := Except.ok.inj (run'.symm.trans above')
    subst lines
    obtain rfl := Option.some.inj first
    obtain ⟨before, -, -, -⟩ := here'
    simp [State.beforeDispatch?, unheard.under, unheard.takes filled, deeper] at before

/-- Behind an attribute list in brackets, with a blank line and an output below the tag. -/
theorem closed_tag_remark_silent_output :
    parse {} "- f\n  <p(a)> # c\n\n  = y" = parse {} "- f\n  <p(a)>\n\n  = y" := by
  have log : (readTemplate {} "- f\n  <p(a)>\n\n  = y").log =
      [.dispatched 1 0 "- f".toList, .opened (.control "f") 2, .placed .newline] ++
      .dispatched 2 2 "<p(a)>".toList ::
      [.opened (.tag "p" [.flag "a"]) 3, .placed .newline, .placed .newline, .closed 2,
        .dispatched 4 2 "= y".toList, .opened (.output true "y") 3, .placed .newline, .closed 2,
        .closed 1] := by with_unfolding_all rfl
  have told : .dispatched (["- f".toList].length + 1) 2 "<p(a)>".toList ∈
      (readTemplate {} "- f\n  <p(a)>\n\n  = y").log := by
    rw [log]
    simp
  have list : TagEndsInAngle "(a)>".toList [] [.flag "a"] [] :=
    ⟨by with_unfolding_all rfl, ")>".toList, by with_unfolding_all rfl,
      by with_unfolding_all rfl⟩
  have closed : IsClosedTag "<p(a)>".toList [] := ⟨_, _, _, _, rfl, list⟩
  have split : linesOf "- f\n  <p(a)>\n\n  = y".toList = ["- f".toList] ++
      "  <p(a)>".toList :: ([[]] ++ ["  = y".toList]) := by decide
  have split' : linesOf "- f\n  <p(a)> # c\n\n  = y".toList = ["- f".toList] ++
      ("  <p(a)>".toList ++ " # ".toList ++ "c".toList) :: ([[]] ++ ["  = y".toList]) := by decide
  refine (closed_tag_remark_silent_outside split told closed split' (by decide)).1 ?_
  rintro next ⟨⟩
  exact ⟨by decide, by decide, fun _ => by decide⟩

/-- With a tag below, the remark is heard: the lower tag is taken for text that stands too far
left. -/
theorem closed_tag_remark_heard :
    linesOf "<p>\n  <b>".toList = ["<p>".toList, "  <b>".toList] ∧
    linesOf "<p> # c\n  <b>".toList = ["<p>".toList ++ " # ".toList ++ "c".toList, "  <b>".toList] ∧
    .dispatched 1 0 "<p>".toList ∈ (readTemplate {} "<p>\n  <b>").log ∧
    IsClosedTag "<p>".toList [] ∧
    parse {} "<p>\n  <b>" =
      .ok (.multi [.tag "p" [] (.multi [.newline, .tag "b" [] (.multi [.newline])])]) ∧
    parse {} "<p> # c\n  <b>" =
      .error ⟨⟨.unexpectedTextIndentation, 2, "  <b>".toList, 2⟩, "(__TEMPLATE__)"⟩ := by
  have log : (readTemplate {} "<p>\n  <b>").log = .dispatched 1 0 "<p>".toList ::
      [.opened (.tag "p" []) 2, .placed .newline, .dispatched 2 2 "<b>".toList,
        .opened (.tag "b" []) 3, .placed .newline, .closed 2, .closed 1] := by
    with_unfolding_all rfl
  have list : TagEndsInAngle ">".toList [] [] [] :=
    ⟨by with_unfolding_all rfl, ">".toList, by with_unfolding_all rfl,
      by with_unfolding_all rfl⟩
  have closed : IsClosedTag "<p>".toList [] := ⟨_, _, _, _, rfl, list⟩
  have told : .dispatched 1 0 "<p>".toList ∈ (readTemplate {} "<p>\n  <b>").log := by
    rw [log]
    exact List.mem_cons_self
  have tree : parse {} "<p>\n  <b>" =
      .ok (.multi [.tag "p" [] (.multi [.newline, .tag "b" [] (.multi [.newline])])]) := by
    with_unfolding_all rfl
  have fault : parse {} "<p> # c\n  <b>" =
      .error ⟨⟨.unexpectedTextIndentation, 2, "  <b>".toList, 2⟩, "(__TEMPLATE__)"⟩ := by
    with_unfolding_all rfl
  exact ⟨by decide, by decide, told, closed, tree, fault⟩

end TemplateMarkup
