import TemplateMarkup.Proofs.Line.Remarked
import TemplateMarkup.Proofs.RemarkBlocks
import TemplateMarkup.Proofs.Text.Lines
import TemplateMarkup.Proofs.Text.Remarks

/-! Remarks in text leak nothing. Whatever is written behind a hash sign that ends the text of a
line, the line stays what it is, and the tree is the same. -/
namespace TemplateMarkup
open Builder

variable {settings : Settings} {lead part x y : List Char}

/-! Text that goes on below. -/

theorem afterIndent_hash (front x : List Char) :
    afterIndent (front ++ '#' :: x) = afterIndent front ++ '#' :: x :=
  (stops_sign rfl x).dropWhile_append front

theorem dropColumns_hash (tab n : Nat) (front x : List Char) :
    dropColumns tab n (front ++ '#' :: x) = dropColumns tab n front ++ '#' :: x := by
  induction front generalizing n with
  | nil => cases n <;> rfl
  | cons c front ih =>
    cases n with
    | zero => rfl
    | succ n =>
      rw [List.cons_append, dropColumns, dropColumns]
      cases columnsOf tab c with
      | none => rfl
      | some w => exact ih _

namespace TextBlock

variable {block : TextBlock}

/-- What stands on a line behind the columns of a text, and behind a marker there. -/
def partOf (block : TextBlock) (tab : Nat) (line : Line) : List Char :=
  dropFront '>' (dropColumns tab (block.baseline.getD (block.startOf tab line)) line)

theorem bodyOf_eq (plain : block.verbatim = false) (tab : Nat) (line : Line) :
    block.bodyOf tab (block.baseline.getD (block.startOf tab line)) line =
      cutRemark (block.partOf tab line) := by
  simp only [bodyOf, plain, Bool.false_eq_true, if_false, partOf]
  generalize dropColumns tab _ line = cs
  cases cs with
  | nil => rfl
  | cons c cs =>
    by_cases marker : c = '>'
    · subst marker
      rfl
    · simp [dropFront, marker]

theorem isBlankLine_hash (plain : block.verbatim = false) (front x : List Char) :
    block.isBlankLine (front ++ '#' :: x) = false := by
  rw [isBlankLine, plain, if_neg Bool.false_ne_true, isBlankText_hash]

theorem startOf_hash (block : TextBlock) (tab : Nat) (front x y : List Char) :
    block.startOf tab (front ++ '#' :: x) = block.startOf tab (front ++ '#' :: y) ∧
      block.isMarked (front ++ '#' :: x) = block.isMarked (front ++ '#' :: y) := by
  have marked : block.isMarked (front ++ '#' :: x) = block.isMarked (front ++ '#' :: y) := by
    simp only [isMarked, afterIndent_hash]
    cases afterIndent front <;> rfl
  refine ⟨?_, marked⟩
  rw [startOf, startOf, indentWidth_sign .hash, indentWidth_sign .hash, marked]

theorem partOf_hash {tab : Nat} (h : block.partOf tab (lead ++ '#' :: x) = part ++ '#' :: x)
    (y : List Char) : block.partOf tab (lead ++ '#' :: y) = part ++ '#' :: y := by
  rw [partOf, dropColumns_hash, dropFront_hash (by decide)] at h ⊢
  rw [(startOf_hash block tab lead y x).1, List.append_cancel_right h]

theorem takes_hash (plain : block.verbatim = false) (tab outer : Nat) (front x y : List Char) :
    block.takes tab outer (front ++ '#' :: x) = block.takes tab outer (front ++ '#' :: y) := by
  simp only [takes, isBlankLine_hash plain, indentWidth_sign .hash]

theorem add_hash {tab : Nat} (plain : block.verbatim = false)
    (found : block.partOf tab (lead ++ '#' :: x) = part ++ '#' :: x)
    (cut : cutRemark (part ++ '#' :: x) = cutRemark (part ++ '#' :: y)) :
    block.add tab (lead ++ '#' :: x) = block.add tab (lead ++ '#' :: y) := by
  obtain ⟨start, marked⟩ := startOf_hash block tab lead x y
  have body : block.bodyOf tab (block.baseline.getD (block.startOf tab (lead ++ '#' :: y)))
        (lead ++ '#' :: x) =
      block.bodyOf tab (block.baseline.getD (block.startOf tab (lead ++ '#' :: y)))
        (lead ++ '#' :: y) := by
    rw [bodyOf_eq plain, ← start, bodyOf_eq plain, found, partOf_hash found y, cut]
  have admitted : block.admits tab (block.baseline.getD (block.startOf tab (lead ++ '#' :: y)))
        (lead ++ '#' :: x) =
      block.admits tab (block.baseline.getD (block.startOf tab (lead ++ '#' :: y)))
        (lead ++ '#' :: y) := by
    rw [admits, admits, start, marked]
  unfold add
  rw [isBlankLine_hash plain, isBlankLine_hash plain, start]
  simp only [admitted, body]

end TextBlock

namespace State

variable {s t u : State}

theorem takeAttributes_text {close : Option Char} {cs inline : List Char} {attrs : List Attr}
    (found : EndsInText close cs attrs inline) (s : State) (tab : Nat) (tag : TagHead)
    (line : Line) :
    s.takeAttributes tab tag close line cs =
      .ok (s.takeTail tab { tag with attrs := tag.attrs ++ attrs } line (.text inline)) := by
  obtain ⟨rest, angle, behind, read, ended, text⟩ := found
  simp only [takeAttributes, read, ended, text]

theorem takeTag_openList (s : State) (tab : Nat) (name : String) (line : Line) (cs : List Char) :
    s.takeTag tab name line cs =
      s.takeAttributes tab ⟨name, (readShortcuts cs).1, s.number, line⟩
        (openList (readShortcuts cs).2).1 line (openList (readShortcuts cs).2).2 := by
  unfold takeTag
  obtain ⟨shortcuts, rest⟩ := readShortcuts cs
  cases rest with
  | nil => rfl
  | cons c inner =>
    simp only [openList]
    cases closingBracket c with
    | some bracket => rfl
    | none => rfl

theorem takeTag_text {cs inline : List Char} {shortcuts attrs : List Attr}
    (found : TagText cs shortcuts attrs inline) (s : State) (tab : Nat) (name : String)
    (line : Line) :
    s.takeTag tab name line cs =
      .ok (s.takeTail tab ⟨name, shortcuts ++ attrs, s.number, line⟩ line (.text inline)) := by
  rw [takeTag_openList, takeAttributes_text found.list, found.shortcuts]

/-- Where a text starts on its line is told in front of the sign. -/
theorem takeTail_hash (cut : cutRemark (part ++ '#' :: x) = cutRemark (part ++ '#' :: y))
    (s : State) (tab : Nat) (name : String) (attrs : List Attr) (n : Nat) (line line' : Line) :
    s.takeTail tab ⟨name, attrs, n, line⟩ (lead ++ '#' :: x) (.text (part ++ '#' :: x)) =
      s.takeTail tab ⟨name, attrs, n, line'⟩ (lead ++ '#' :: y) (.text (part ++ '#' :: y)) := by
  have front (z : List Char) : (lead ++ '#' :: z).take
      ((lead ++ '#' :: z).length - (part ++ '#' :: z).length) =
        lead.take (lead.length - part.length) := by
    rw [List.length_append, List.length_append, Nat.add_sub_add_right,
      List.take_append_of_le_length (Nat.sub_le _ _)]
  simp only [takeTail, front, cut]

/-- Heads of one kind are taken alike if their texts are the same without a remark. -/
theorem takeHead_hash {head head' : Head} {kind : TextKind}
    (shown : head.Shows kind (part ++ '#' :: x)) (shown' : head'.Shows kind (part ++ '#' :: y))
    (cut : cutRemark (part ++ '#' :: x) = cutRemark (part ++ '#' :: y)) (settings : Settings)
    (s : State) (lead : List Char) :
    takeHead settings s (lead ++ '#' :: x) head = takeHead settings s (lead ++ '#' :: y) head' := by
  cases shown with
  | text glued =>
    cases shown'
    simp only [takeHead, cut]
  | comment spaced =>
    cases shown'
    simp [takeHead, cut]
  | tag name found =>
    cases shown' with
    | tag _ found' =>
      simp only [takeHead, takeTag_text found, takeTag_text found']
      rw [takeTail_hash cut]

/-- `part` is the text of a line: of one with a head of its own, of one that an attribute list ends
on, or of one that a text above goes on with, unless that text is verbatim. -/
inductive TextOf (settings : Settings) (s : State) (line : Line) : TextKind → List Char → Prop
  | head {u : State} {kind : TextKind} {part : List Char} (here : s.Dispatches settings line u)
      (shown : (Head.read (trimLeft line)).Shows kind part) : TextOf settings s line kind part
  | list {tag : TagHead} {close : Char} {attrs : List Attr} {part : List Char}
      (under : s.phase = .attributes tag close) (found : EndsInText (some close) line attrs part) :
      TextOf settings s line (.list attrs) part
  | below {block : TextBlock} (under : s.phase = .text block) (plain : block.verbatim = false)
      (joined : block.takes settings.tabSize s.builder.width line = true) :
      TextOf settings s line .below (block.partOf settings.tabSize line)

/-- Where a line is dispatched, so is one that differs from it behind a sign only. -/
theorem Dispatches.of_sign {m : Char} (sign : IsSign m)
    (here : s.Dispatches settings (lead ++ m :: x) u) (filled : isBlankText (lead ++ m :: y) = false) :
    ∃ v, s.Dispatches settings (lead ++ m :: y) v ∧ Alike (Over []) 0 u v ∧ v.gap = u.gap := by
  obtain @⟨t, builder, moved, before, -, plain, fit⟩ := here
  have same : indentWidth settings.tabSize (lead ++ m :: y) =
      indentWidth settings.tabSize (lead ++ m :: x) := by
    rw [indentWidth_sign sign, indentWidth_sign sign]
  have before' := beforeDispatch_of_filled before same filled
  refine ⟨_, .intro before' (isBlank_sign sign lead y)
    (fun start => doctypeHeader?_sign sign (plain start) y) (same ▸ fit), ?_⟩
  have start : Over [] builder builder := ⟨(List.append_nil _).symm, rfl, rfl⟩
  exact ⟨⟨rfl, start.record _ _, (Phase.later_zero _).symm, fun _ => rfl⟩, rfl⟩

/-- A line stays what it is and keeps its text up to the sign. -/
theorem TextOf.of_hash {kind : TextKind}
    (text : s.TextOf settings (lead ++ '#' :: x) kind (part ++ '#' :: x))
    (noSplice : x.head? ≠ some '{') (y : List Char) :
    s.TextOf settings (lead ++ '#' :: y) kind (part ++ '#' :: y) := by
  generalize line : lead ++ '#' :: x = cs at text
  generalize whole : part ++ '#' :: x = inline at text
  cases text with
  | head here shown =>
    subst line whole
    obtain ⟨v, here', -, -⟩ := here.of_sign .hash (isBlankText_hash lead y)
    rw [trimLeft_sign .hash] at shown
    refine .head here' ?_
    rw [trimLeft_sign .hash]
    exact Head.shows_read_hash shown noSplice y
  | list under found =>
    subst line whole
    exact .list under (found.of_hash y)
  | @below block under plain joined =>
    subst line
    rw [← TextBlock.partOf_hash whole.symm y]
    rw [TextBlock.takes_hash plain _ _ lead x y] at joined
    exact .below under plain joined

theorem alike_self (s : State) : Alike (Over []) 0 s s :=
  ⟨rfl, ⟨(List.append_nil _).symm, rfl, rfl⟩, (Phase.later_zero _).symm, fun _ => rfl⟩

theorem related_spacedFor (alike : Alike (Over []) 0 s t) (gap : t.gap = s.gap) (head : Head) :
    Over [] (s.spacedFor head).builder (t.spacedFor head).builder := by
  unfold spacedFor separate
  rw [gap]
  split
  · split
    · exact (over_congruence []).place alike.builder _
    · exact alike.builder
  · exact alike.builder

/-- A line that is taken is taken alike whatever stands behind the sign. -/
theorem TextOf.feed_hash {kind : TextKind}
    (text : s.TextOf settings (lead ++ '#' :: x) kind (part ++ '#' :: x))
    (unescaped : part.getLast? ≠ some '\\') (noSplice : x.head? ≠ some '{')
    (noSplice' : y.head? ≠ some '{') (fed : s.feed settings (lead ++ '#' :: x) = .ok t) :
    ∃ t', s.feed settings (lead ++ '#' :: y) = .ok t' ∧ Alike (Over []) 0 t t' := by
  have cut : cutRemark (part ++ '#' :: x) = cutRemark (part ++ '#' :: y) :=
    cutRemark_remark unescaped noSplice noSplice'
  generalize line : lead ++ '#' :: x = cs at text
  generalize whole : part ++ '#' :: x = inline at text
  cases text with
  | @head u _ _ here shown =>
    subst line whole
    obtain ⟨v, here', alike, gap⟩ := here.of_sign .hash (isBlankText_hash lead y)
    rw [here.feed_eq] at fed
    rw [here'.feed_eq]
    rw [trimLeft_sign .hash] at shown fed ⊢
    -- The heads differ, but the first state takes both alike; the second state differs in its log.
    have shown' := Head.shows_read_hash shown noSplice y
    rw [takeHead_hash shown shown' cut] at fed
    have agree := agree_takeHead (over_congruence []) alike.number settings (lead ++ '#' :: y) _
      (related_spacedFor alike gap (Head.read (trimLeft lead ++ '#' :: y)))
    rw [fed] at agree
    exact agree.exists_ok
  | @list tag close attrs _ under found =>
    subst line whole
    have taken (line : Line) :
        s.feed settings line = takeAttributes { s with number := s.number + 1 } settings.tabSize tag
          (some close) line line := by
      simp [feed, under]
    rw [taken, takeAttributes_text found] at fed
    rw [taken, takeAttributes_text (found.of_hash y), ← takeTail_hash cut _ _ _ _ _ tag.line]
    obtain rfl := Except.ok.inj fed
    exact ⟨_, rfl, alike_self _⟩
  | @below block under plain joined =>
    subst line
    have joined' := TextBlock.takes_hash plain settings.tabSize s.builder.width lead x y ▸ joined
    have same := TextBlock.add_hash plain whole.symm cut
    simp only [feed, under, joined, joined', if_true] at fed ⊢
    rw [← same]
    split at fed
    · cases fed
      exact ⟨_, rfl, alike_self _⟩
    · cases fed

/-- A whole reading goes on alike behind such a line. -/
theorem TextOf.agree_readLines {kind : TextKind} {above below : List Line}
    (text : s.TextOf settings (lead ++ '#' :: x) kind (part ++ '#' :: x))
    (run : above.foldlM (feed settings) {} = .ok s) (unescaped : part.getLast? ≠ some '\\')
    (noSplice : x.head? ≠ some '{') (noSplice' : y.head? ≠ some '{') {b : Builder}
    (read : readLines settings (above ++ (lead ++ '#' :: x) :: below) = .ok b) :
    Agree (Over []) 0 (readLines settings (above ++ (lead ++ '#' :: x) :: below))
      (readLines settings (above ++ (lead ++ '#' :: y) :: below)) := by
  have split (line : Line) : readLines settings (above ++ line :: below) =
      s.feed settings line >>= fun t => below.foldlM (feed settings) t >>= finish := by
    rw [readLines_append run, List.foldlM_cons, bind_assoc]
  rw [split] at read
  rw [split, split]
  cases fed : s.feed settings (lead ++ '#' :: x) with
  | error halt =>
    rw [fed] at read
    cases read
  | ok t =>
    obtain ⟨t', fed', alike⟩ := text.feed_hash unescaped noSplice noSplice' fed
    rw [fed']
    exact agree_rest (over_congruence []) alike settings below

end State

/-- A line as it is read in front of some text: a return at its end goes with the line break. -/
def asRead (below : List Char) (line : Line) : Line :=
  if below.isEmpty then line else closeLine line.reverse

theorem linesOf_asRead {below : List Char} {line : Line} (unbroken : '\n' ∉ line)
    (filled : line ≠ []) (ends : ∀ c ∈ below.head?, c = '\n') :
    linesOf (line ++ below) = asRead below line :: linesOf below.tail := by
  cases below with
  | nil =>
    have read := linesFrom_line [] unbroken []
    rw [linesOf, read, linesFrom]
    simp [filled, asRead]
  | cons c below =>
    obtain rfl := ends c rfl
    exact linesOf_line unbroken below

theorem asRead_hash (below : List Char) (unbroken : '\n' ∉ lead) (tail : List Char) :
    asRead below (lead ++ '#' :: tail) = lead ++ '#' :: asRead below tail := by
  have plain : Line.IsPlain (lead ++ ['#']) := ⟨by simpa using unbroken, by simp⟩
  have closed := closeLine_append plain tail
  simp only [List.append_assoc, List.singleton_append] at closed
  unfold asRead
  split
  · rfl
  · exact closed

theorem head_asRead {below tail : List Char} {c : Char} (other : tail.head? ≠ some c) :
    (asRead below tail).head? ≠ some c := by
  intro same
  obtain ⟨rest, shown⟩ := List.head?_eq_some_iff.1 same
  have front : asRead below tail <+: tail := by
    unfold asRead
    split
    · exact List.prefix_rfl
    · exact prefix_closeLine tail
  obtain ⟨more, whole⟩ := shown ▸ front
  exact other (by rw [← whole]; rfl)

/-- Behind the lines `above`, `line` is of some kind and has the text `part`. -/
def TextAt (settings : Settings) (above : List Char) (line : Line) (kind : TextKind)
    (part : List Char) : Prop :=
  ∃ s, (linesOf above).foldlM (State.feed settings) {} = .ok s ∧ s.TextOf settings line kind part

/-- What a remark in text says does not matter. Where a hash sign in the text of a line is neither
escaped nor opens a splice, the rest of the line can be written in any way that does not open one
either: the tree is the same, and the line stays what it is, with its text up to the sign. -/
theorem inline_remark_silent {tree : Node} {above tail tail' below : List Char} {kind : TextKind}
    (parsed : parse settings (String.ofList (above ++ (lead ++ '#' :: tail) ++ below)) = .ok tree)
    (starts : ∀ c ∈ above.getLast?, c = '\n') (ends : ∀ c ∈ below.head?, c = '\n')
    (unbroken : '\n' ∉ lead ++ tail) (unbroken' : '\n' ∉ tail')
    (text : TextAt settings above (asRead below (lead ++ '#' :: tail)) kind
      (part ++ '#' :: asRead below tail))
    (unescaped : part.getLast? ≠ some '\\') (noSplice : tail.head? ≠ some '{')
    (noSplice' : tail'.head? ≠ some '{') :
    parse settings (String.ofList (above ++ (lead ++ '#' :: tail') ++ below)) = .ok tree ∧
      TextAt settings above (asRead below (lead ++ '#' :: tail')) kind
        (part ++ '#' :: asRead below tail') := by
  rw [List.mem_append, not_or] at unbroken
  obtain ⟨unbroken_lead, unbroken_tail⟩ := unbroken
  have lines {tail : List Char} (unbroken : '\n' ∉ tail) :
      linesOf (above ++ (lead ++ '#' :: tail) ++ below) =
        linesOf above ++ (lead ++ '#' :: asRead below tail) :: linesOf below.tail := by
    have whole : '\n' ∉ lead ++ '#' :: tail := by simp [unbroken_lead, unbroken]
    rw [List.append_assoc, linesOf_append_of_ended _ starts, linesOf_asRead whole (by simp) ends,
      asRead_hash below unbroken_lead]
  rw [asRead_hash below unbroken_lead] at text ⊢
  obtain ⟨s, run, here⟩ := text
  refine ⟨?_, s, run, here.of_hash (head_asRead noSplice) _⟩
  rw [← parsed]
  obtain ⟨b, read, -⟩ := readLines_of_parse parsed
  apply parse_eq_of_agree
  rw [String.toList_ofList, lines unbroken_tail] at read ⊢
  rw [String.toList_ofList, lines unbroken']
  exact here.agree_readLines run unescaped (head_asRead noSplice) (head_asRead noSplice') read

/-- Quotes, splices and a second hash sign may stand in a remark. -/
theorem inline_remark_silent_quote :
    parse {} "> one\n  two # \"x=#{y}> #\n" =
      .ok (.multi [.interpolate " one\n two ", .newline, .newline]) ∧
    TextAt {} "> one\n".toList "  two # \"x=#{y}> #".toList .below
      " two # \"x=#{y}> #".toList := by
  have parsed : parse {} (String.ofList ("> one\n".toList ++
        ("  two ".toList ++ '#' :: " x".toList) ++ "\n".toList)) =
      .ok (.multi [.interpolate " one\n two ", .newline, .newline]) := by
    rfl
  have text : TextAt {} "> one\n".toList
      (asRead "\n".toList ("  two ".toList ++ '#' :: " x".toList)) .below
      (" two ".toList ++ '#' :: asRead "\n".toList " x".toList) := by
    let s : State := {
      number := 1
      builder := { log := [.dispatched 1 0 "> one".toList] }
      gap := true
      phase := .text (.startAt 1 " one".toList) }
    have under : s.phase = .text (.startAt 1 " one".toList) := rfl
    exact ⟨s, rfl, .below under rfl (by decide)⟩
  have unbroken : '\n' ∉ " \"x=#{y}> #".toList := by decide
  have starts : ∀ c ∈ "> one\n".toList.getLast?, c = '\n' := by
    rintro c ⟨⟩
    rfl
  have ends : ∀ c ∈ "\n".toList.head?, c = '\n' := by
    rintro c ⟨⟩
    rfl
  have silent := inline_remark_silent parsed starts ends (by decide) unbroken text (by decide)
    (by decide) (by decide)
  have source : String.ofList ("> one\n".toList ++
      ("  two ".toList ++ '#' :: " \"x=#{y}> #".toList) ++ "\n".toList) =
        "> one\n  two # \"x=#{y}> #\n" := by decide
  rw [source] at silent
  exact silent

end TemplateMarkup
