import TemplateMarkup.Proofs.Diagnostics
import TemplateMarkup.Proofs.Locality
import TemplateMarkup.Proofs.Reading.Walk
import TemplateMarkup.Proofs.Tag.Consumed
import TemplateMarkup.Proofs.Text.Remarks

/-! Tags without content. What is left of a line behind the attributes of a tag tells whether the
tag closes itself: a slash with an angle bracket always does, and a slash alone unless an angle
bracket has closed the attribute list. -/
namespace TemplateMarkup
open Builder

/-- What is left behind an attribute list closes the tag; `angle` says whether an angle bracket
has closed the list. -/
def SelfCloses (angle : Bool) (behind : List Char) : Prop :=
  (∃ rest, trimLeft behind = '/' :: '>' :: rest ∧ IsTrailingRemark rest) ∨
    trim behind = ['/'] ∧ angle = false

/-- The block that a tag with content opens: its own, or one with the output that it holds. -/
inductive TagHead.Owns (tag : TagHead) : Owner → Prop
  | content : tag.Owns (.tag tag.name tag.attrs)
  | output (escape : Bool) (code : String) : tag.Owns (.outputTag tag.name tag.attrs escape code)

/-- A line of a template ends the attribute list of a tag. -/
def EndsTagAt (settings : Settings) (source : String) (number : Nat) (line : Line) (tag : TagHead)
    (angle : Bool) (behind : List Char) (u : State) : Prop :=
  ∃ before after s, linesOf source.toList = before ++ line :: after ∧ number = before.length + 1 ∧
    before.foldlM (State.feed settings) {} = .ok s ∧ s.EndsTag settings line tag angle behind u

variable {settings : Settings} {source : String} {angle : Bool} {behind rest : List Char}

/-! What is left of the line. -/

theorem trimRight_closing_ne (rest : List Char) : trimRight ('/' :: '>' :: rest) ≠ ['/'] := by
  intro lone
  have filled : trimRight ('>' :: rest) ≠ [] := by
    rw [Ne, trimRight_eq_nil_iff]
    exact Bool.false_ne_true
  have whole := trimRight_append filled ['/']
  rw [List.singleton_append, lone] at whole
  exact filled (List.cons.inj whole).2.symm

theorem selfCloses_closing (text : trimLeft behind = '/' :: '>' :: rest) :
    SelfCloses angle behind ↔ IsTrailingRemark rest := by
  unfold SelfCloses
  rw [trim, text]
  constructor
  · rintro (⟨rest, same, remark⟩ | ⟨lone, -⟩)
    · cases same
      exact remark
    · exact absurd lone (trimRight_closing_ne rest)
  · exact fun remark => .inl ⟨rest, rfl, remark⟩

theorem selfCloses_lone (other : ∀ rest, trimLeft behind ≠ '/' :: '>' :: rest) :
    SelfCloses angle behind ↔ trim behind = ['/'] ∧ angle = false := by
  constructor
  · rintro (⟨rest, same, -⟩ | lone)
    · exact absurd same (other rest)
    · exact lone
  · exact .inr

/-- What is left is read as the end of the tag just if it closes the tag. -/
theorem Tail.read_eq_void_iff : Tail.read angle behind = .ok .void ↔ SelfCloses angle behind := by
  unfold Tail.read
  split
  · next text =>
    rw [selfCloses_lone (by simp [text]), trim, text]
    simp
  · next code text =>
    rw [selfCloses_lone (by simp [text]), trim, text]
    constructor
    · rintro ⟨⟩
    · rintro ⟨lone, -⟩
      have first := trimRight_prefix ('=' :: code)
      rw [lone] at first
      simp at first
  · next rest text =>
    rw [selfCloses_closing text, ← isRemarkOnly_iff]
    split <;> simp_all
  · next rest filled code closing =>
    rw [selfCloses_lone closing, trim]
    split
    · next lone =>
      simpa [and_comm] using lone
    · next more =>
      constructor
      · intro same
        split at same <;> cases same
      · rintro ⟨lone, bare⟩
        exact absurd (by simp [lone, bare]) more

theorem Tail.read_refused (text : trimLeft behind = '/' :: '>' :: rest) (more : ¬ IsTrailingRemark rest) :
    Tail.read angle behind = .error ⟨.contentAfterVoidTag, []⟩ := by
  rw [← isRemarkOnly_iff] at more
  simp [Tail.read, text, more]

/-! What the line puts into the tree. -/

namespace State

variable {s u : State} {line : Line} {tag : TagHead} {lines : List Line} {b : Builder}

theorem EndsTag.idle (ended : s.EndsTag settings line tag angle behind u) (steady : s.Steady) :
    u.builder.awaiting = none := by
  cases ended with
  | here dispatched head ended => exact awaiting_separate dispatched.idle
  | below under ended => exact steady (by rw [under]; rfl)

/-- On the walk through the tree, a tag that closes itself comes next. -/
theorem script_prefix_void {tab : Nat}
    (read : lines.foldlM (feed settings) (u.takeTail tab tag line .void) >>= finish = .ok b) :
    u.builder.script ++ [.leaf (.voidTag tag.name tag.attrs)] <+: b.tree.walk := by
  have placed : (u.builder.place (.voidTag tag.name tag.attrs)).script =
      u.builder.script ++ [.leaf (.voidTag tag.name tag.attrs)] := script_add u.builder _
  rw [← placed]
  exact (script_prefix_breakLine _).trans (script_prefix_finish (steady_of_complete rfl) read)

/-- The block of any other tag is entered next. -/
theorem script_prefix_owner {tab : Nat} {tail : Tail} (idle : u.builder.awaiting = none)
    (content : tail ≠ .void)
    (read : lines.foldlM (feed settings) (u.takeTail tab tag line tail) >>= finish = .ok b) :
    ∃ owner, tag.Owns owner ∧ u.builder.script ++ [.enter owner] <+: b.tree.walk := by
  cases tail with
  | void => exact absurd rfl content
  | output mark cs =>
    obtain ⟨code, entered⟩ := script_prefix_takeCode idle read
    exact ⟨_, .output mark.escape code, entered⟩
  | block =>
    refine ⟨_, .content, ?_⟩
    exact script_prefix_begin idle (script_prefix_breakLine _) (steady_of_complete rfl) read
  | text inline =>
    exact ⟨_, .content, script_prefix_begin idle List.prefix_rfl (steady_of_complete rfl) read⟩

end State

open State

variable {number : Nat} {line : Line} {tag : TagHead} {u : State} {tree : Node}

/-- A template that is parsed goes on behind such a line, with what is left of it. -/
theorem EndsTagAt.read (here : EndsTagAt settings source number line tag angle behind u)
    (parsed : parse settings source = .ok tree) :
    ∃ (tail : Tail) (lines : List Line) (b : Builder), Tail.read angle behind = .ok tail ∧
      u.builder.awaiting = none ∧ tree = b.tree ∧
      lines.foldlM (feed settings) (u.takeTail settings.tabSize tag line tail) >>= finish =
        .ok b := by
  obtain ⟨before, after, s, split, -, run, ended⟩ := here
  obtain ⟨b, read, rfl, -⟩ := readLines_of_parse parsed
  rw [split, readLines_append run, List.foldlM_cons, ended.feed_eq, takeBehind] at read
  cases found : Tail.read angle behind with
  | error snag =>
    rw [found] at read
    cases read
  | ok tail =>
    rw [found] at read
    exact ⟨tail, after, b, rfl, ended.idle (steady_foldlM run), rfl, read⟩

theorem eq_of_prefix_concat {α : Type} {front whole : List α} {x y : α}
    (h : front ++ [x] <+: whole) (h' : front ++ [y] <+: whole) : x = y := by
  obtain ⟨more, rfl⟩ := h
  obtain ⟨other, same⟩ := h'
  simp only [List.append_assoc, List.singleton_append] at same
  exact (List.cons.inj (List.append_cancel_left same)).1.symm

/-- In a template that is parsed, the attribute list of every tag ends on some line. -/
theorem exists_endsTagAt (parsed : parse settings source = .ok tree) {width : Nat}
    {text cs : List Char} {name : Option (List Char)}
    (told : .dispatched number width text ∈ (readTemplate settings source).log)
    (head : Head.read text = .tag name cs) :
    ∃ last line tag angle behind u, tag.number = number ∧ trimLeft tag.line = text ∧
      EndsTagAt settings source last line tag angle behind u := by
  have mem : ⟨number, width, text⟩ ∈
      (readTemplate settings source).log.filterMap Event.dispatched? :=
    List.mem_filterMap.2 ⟨_, told, rfl⟩
  obtain ⟨before, line, after, s, v, split, same, run, here⟩ := dispatches_readTemplate mem
  obtain ⟨rfl, rfl, rfl⟩ := Dispatched.mk.inj same
  have count : s.number = before.length := by simpa using number_foldlM steady_start run
  obtain ⟨b, read, -, -⟩ := readLines_of_parse parsed
  rw [split, readLines_append run, List.foldlM_cons] at read
  cases fed : s.feed settings line with
  | error halt =>
    rw [fed] at read
    cases read
  | ok t =>
    rw [fed] at read
    obtain ⟨tag, angle, behind, u, ended, first, rfl⟩ | ⟨tag, close, under, first, rfl⟩ :=
      endsTag_or_continued here head fed
    · exact ⟨_, _, tag, angle, behind, u, by rw [first, count], rfl, before, after, s, split, rfl,
        run, ended⟩
    · obtain ⟨front, last, more, w, attrs, angle, behind, u, rfl, below, ended⟩ :=
        exists_endsTag_below under read
      refine ⟨_, last, { tag with attrs := attrs }, angle, behind, u, by rw [← count, ← first], rfl,
        before ++ tag.line :: front, more, w, by simp [split], rfl, ?_, ended⟩
      rw [List.foldlM_append, run]
      change (tag.line :: front).foldlM (feed settings) s = _
      rw [List.foldlM_cons, fed]
      exact below

/-- Whether a tag has content is told by what is left of the line that ends its attribute list, and
by whether an angle bracket has closed the list; and that shows in the last character read. Text
behind the slash and the angle bracket that close a tag is refused. -/
theorem self_closing_decided (settings : Settings) (source : String) :
    (∀ tree, parse settings source = .ok tree → ∀ number width text name cs,
      .dispatched number width text ∈ (readTemplate settings source).log →
      Head.read text = .tag name cs → ∃ last line tag angle behind u, tag.number = number ∧
        trimLeft tag.line = text ∧ EndsTagAt settings source last line tag angle behind u) ∧
    ∀ number line tag angle behind u,
      EndsTagAt settings source number line tag angle behind u →
      (∃ consumed, line = consumed ++ behind ∧ (consumed.getLast? = some '>' ↔ angle = true)) ∧
      (∀ tree, parse settings source = .ok tree →
        (u.builder.script ++ [.leaf (.voidTag tag.name tag.attrs)] <+: tree.walk ↔
          SelfCloses angle behind) ∧
        ((∃ owner, tag.Owns owner ∧ u.builder.script ++ [.enter owner] <+: tree.walk) ↔
          ¬ SelfCloses angle behind)) ∧
      ∀ rest, trimLeft behind = '/' :: '>' :: rest → ¬ IsTrailingRemark rest →
        parse settings source =
          .error ⟨⟨.contentAfterVoidTag, number, line, line.length⟩, settings.shownFile⟩ := by
  refine ⟨?_, ?_⟩
  · intro tree parsed number width text name cs told head
    exact exists_endsTagAt parsed told head
  · intro number line tag angle behind u here
    refine ⟨?_, ?_, ?_⟩
    · obtain ⟨before, after, s, -, -, run, ended⟩ := here
      exact ended.consumed (bracketed_foldlM run)
    · intro tree parsed
      obtain ⟨tail, lines, b, found, idle, rfl, read⟩ := here.read parsed
      rw [← Tail.read_eq_void_iff, found, Except.ok.injEq]
      by_cases void : tail = .void
      · subst void
        have placed := script_prefix_void read
        refine ⟨iff_of_true placed rfl, iff_of_false ?_ (not_not_intro rfl)⟩
        rintro ⟨owner, -, entered⟩
        cases eq_of_prefix_concat placed entered
      · obtain ⟨owner, owns, entered⟩ := script_prefix_owner idle void read
        refine ⟨iff_of_false ?_ void, iff_of_true ⟨owner, owns, entered⟩ void⟩
        intro placed
        cases eq_of_prefix_concat placed entered
    · intro rest text more
      obtain ⟨before, after, s, split, rfl, run, ended⟩ := here
      have count : s.number = before.length := by simpa using number_foldlM steady_start run
      have refused : s.feed settings line =
          .error ⟨⟨.contentAfterVoidTag, before.length + 1, line, line.length⟩, u.builder.log⟩ := by
        rw [ended.feed_eq, takeBehind, Tail.read_refused text more, ← count, ← ended.number]
        rfl
      have failed := readLines_refused run refused after
      rw [← split] at failed
      exact parse_of_error failed

/-- A list in brackets that goes over two lines, in front of a slash and an angle bracket; a bare one
that an angle bracket closes, in front of a slash alone; and text behind a tag that closes itself. -/
theorem self_closing_decided_three :
    (∃ tree, parse {} "<p(a\n  b)/> # c" = .ok tree ∧
      [.leaf .newline] ++ [.leaf (.voidTag "p" [.flag "a", .flag "b"])] <+: tree.walk) ∧
    (∃ tree, parse {} "<i x=y>/" = .ok tree ∧
      ∃ owner, TagHead.Owns ⟨"i", [.valued "x" (.interpolate "y")], 1, "<i x=y>/".toList⟩ owner ∧
        [] ++ [.enter owner] <+: tree.walk) ∧
    parse {} "<p/> x" = .error ⟨⟨.contentAfterVoidTag, 1, "<p/> x".toList, 6⟩, "(__TEMPLATE__)"⟩ := by
  have flush (line : Line) (plain : indentWidth 4 line = 0) :
      ({} : Builder).align (indentWidth 4 line) = .ok ({}, false) := by
    rw [plain]
    rfl
  have enclosed : parse {} "<p(a\n  b)/> # c" =
      .ok (.multi [.newline, .voidTag "p" [.flag "a", .flag "b"], .newline]) := by
    with_unfolding_all rfl
  have angled : parse {} "<i x=y>/" = .ok (.multi [.tag "i" [.valued "x" (.interpolate "y")]
      (.multi [.interpolate "/", .newline])]) := by
    with_unfolding_all rfl
  refine ⟨⟨_, enclosed, ?_⟩, ⟨_, angled, ?_⟩, ?_⟩
  · set tag : TagHead := ⟨"p", [.flag "a"], 1, "<p(a".toList⟩
    set s : State := ⟨1, (({} : Builder).record (.dispatched 1 0 "<p(a".toList)).place .newline,
      false, .attributes tag ')'⟩
    have run : ["<p(a".toList].foldlM (feed {}) {} = .ok s := by with_unfolding_all rfl
    have under : s.phase = .attributes tag ')' := rfl
    have pair : EndsList (some ')') "  b)/> # c".toList [.flag "b"] false "/> # c".toList :=
      ⟨")/> # c".toList, by with_unfolding_all rfl, rfl⟩
    have ended : EndsTagAt {} "<p(a\n  b)/> # c" 2 _ _ _ _ _ :=
      ⟨_, [], s, rfl, rfl, run, .below under pair⟩
    refine (((self_closing_decided {} _).2 _ _ _ _ _ _ ended).2.1 _ enclosed).1.2 (.inl ?_)
    exact ⟨" # c".toList, rfl, " ".toList, "# c".toList, rfl, rfl, by rintro c ⟨⟩; rfl⟩
  · have here : Dispatches {} {} "<i x=y>/".toList _ :=
      .intro rfl rfl (fun _ => rfl) (flush _ rfl)
    have head : Head.read "<i x=y>/".toList = .tag (some "i".toList) " x=y>/".toList := by decide
    have bare : readShortcuts " x=y>/".toList = ([], " x=y>/".toList) := by with_unfolding_all rfl
    have list : EndsList (openList (readShortcuts " x=y>/".toList).2).1
        (openList (readShortcuts " x=y>/".toList).2).2 [.valued "x" (.interpolate "y")] true
        "/".toList := ⟨">/".toList, by with_unfolding_all rfl, by with_unfolding_all rfl⟩
    have ended : EndsTagAt {} "<i x=y>/" 1 _ _ _ _ _ :=
      ⟨[], [], {}, by decide, rfl, rfl, .here here head list⟩
    rw [bare] at ended
    refine (((self_closing_decided {} _).2 _ _ _ _ _ _ ended).2.1 _ angled).2.2 ?_
    rw [← Tail.read_eq_void_iff]
    rintro ⟨⟩
  · have here : Dispatches {} {} "<p/> x".toList _ := .intro rfl rfl (fun _ => rfl) (flush _ rfl)
    have head : Head.read "<p/> x".toList = .tag (some "p".toList) "/> x".toList := by decide
    have list : EndsList (openList (readShortcuts "/> x".toList).2).1
        (openList (readShortcuts "/> x".toList).2).2 [] false "/> x".toList :=
      ⟨"/> x".toList, by with_unfolding_all rfl, by with_unfolding_all rfl⟩
    have ended : EndsTagAt {} "<p/> x" 1 _ _ _ _ _ :=
      ⟨[], [], {}, by decide, rfl, rfl, .here here head list⟩
    refine ((self_closing_decided {} _).2 _ _ _ _ _ _ ended).2.2 " x".toList (by decide) ?_
    rw [← isRemarkOnly_iff]
    decide

end TemplateMarkup
