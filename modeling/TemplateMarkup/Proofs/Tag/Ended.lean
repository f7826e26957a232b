import TemplateMarkup.Proofs.InlineRemarks

/-! Where the attribute list of a tag ends: on the line that the tag starts on, or on one further
down if a bracket opens the list. The tag has all its attributes then, and what is left of the line
tells what it holds. -/
namespace TemplateMarkup

/-- The attributes of one line are `attrs`, and their list ends there, with an angle bracket or
without one; `behind` is left of the line. -/
def EndsList (close : Option Char) (cs : List Char) (attrs : List Attr) (angle : Bool)
    (behind : List Char) : Prop :=
  ∃ rest, readAttributes close cs = .ok (attrs, rest) ∧
    readListEnd close rest = .ok (.closed angle behind)

namespace State

/-- Takes what is left of a tag's line behind its attribute list. -/
def takeBehind (s : State) (tab : Nat) (tag : TagHead) (line : Line) (angle : Bool)
    (behind : List Char) : Except Halt State :=
  match Tail.read angle behind with
  | .error snag => s.halt snag.cause line snag.rest
  | .ok tail => .ok (s.takeTail tab tag line tail)

/-- A line ends the attribute list of a tag. The last state is the one that takes what is left of
the line. -/
inductive EndsTag (settings : Settings) (s : State) (line : Line) :
    TagHead → Bool → List Char → State → Prop
  | here {u : State} {name : Option (List Char)} {cs behind : List Char} {attrs : List Attr}
      {angle : Bool} (dispatched : s.Dispatches settings line u)
      (head : Head.read (trimLeft line) = .tag name cs)
      (ended : EndsList (openList (readShortcuts cs).2).1 (openList (readShortcuts cs).2).2 attrs
        angle behind) :
      EndsTag settings s line
        ⟨(name.map String.ofList).getD settings.defaultTag, (readShortcuts cs).1 ++ attrs,
          s.number + 1, line⟩
        angle behind u.separate
  | below {tag : TagHead} {close : Char} {behind : List Char} {attrs : List Attr} {angle : Bool}
      (under : s.phase = .attributes tag close)
      (ended : EndsList (some close) line attrs angle behind) :
      EndsTag settings s line { tag with attrs := tag.attrs ++ attrs } angle behind
        { s with number := s.number + 1 }

variable {settings : Settings} {s t u : State} {line : Line} {tag : TagHead} {angle : Bool}
  {behind : List Char}

theorem takeAttributes_ended {close : Option Char} {cs : List Char} {attrs : List Attr}
    (ended : EndsList close cs attrs angle behind) (s : State) (tab : Nat) (tag : TagHead)
    (line : Line) :
    s.takeAttributes tab tag close line cs =
      s.takeBehind tab { tag with attrs := tag.attrs ++ attrs } line angle behind := by
  obtain ⟨rest, read, closed⟩ := ended
  simp only [takeAttributes, read, closed]
  rfl

/-- Such a line is taken by what is left of it. -/
theorem EndsTag.feed_eq (h : s.EndsTag settings line tag angle behind u) :
    s.feed settings line = u.takeBehind settings.tabSize tag line angle behind := by
  cases h with
  | here dispatched head ended =>
    rw [dispatched.feed_eq, head, takeHead, takeTag_openList, takeAttributes_ended ended,
      number_separate, dispatched.number]
  | below under ended =>
    rw [← takeAttributes_ended ended { s with number := s.number + 1 }]
    simp [feed, under]

theorem EndsTag.number (h : s.EndsTag settings line tag angle behind u) :
    u.number = s.number + 1 := by
  cases h with
  | here dispatched head ended => rw [number_separate, dispatched.number]
  | below under ended => rfl

/-! Every list ends, as a reading that gets to its end shows. -/

/-- The list of a tag that a line starts ends there, or it goes on. -/
theorem endsTag_or_continued {name : Option (List Char)} {cs : List Char}
    (here : s.Dispatches settings line u) (head : Head.read (trimLeft line) = .tag name cs)
    (taken : s.feed settings line = .ok t) :
    (∃ tag angle behind v, s.EndsTag settings line tag angle behind v ∧
      tag.number = s.number + 1 ∧ tag.line = line) ∨
    ∃ tag close, t.phase = .attributes tag close ∧ tag.number = s.number + 1 ∧ tag.line = line := by
  rw [here.feed_eq, head, takeHead, takeTag_openList] at taken
  obtain ⟨attrs, rest, read, ⟨bracket, -, rfl⟩ | ⟨angle, behind, tail, closed, -, -⟩⟩ :=
    takeAttributes_cases taken
  · refine .inr ⟨_, bracket, rfl, ?_, rfl⟩
    rw [number_separate, here.number]
  · exact .inl ⟨_, angle, behind, _, .here here head ⟨rest, read, closed⟩, rfl, rfl⟩

/-- A list that goes on ends on a line below. -/
theorem exists_endsTag_below {lines : List Line} {close : Char} {b : Builder}
    (under : s.phase = .attributes tag close)
    (read : lines.foldlM (feed settings) s >>= finish = .ok b) :
    ∃ front last after v attrs angle behind w, lines = front ++ last :: after ∧
      front.foldlM (feed settings) s = .ok v ∧
      v.EndsTag settings last { tag with attrs := attrs } angle behind w := by
  induction lines generalizing s tag close with
  | nil =>
    change s.finish = .ok b at read
    simp [finish, under] at read
  | cons line lines ih =>
    rw [List.foldlM_cons, bind_assoc] at read
    cases fed : s.feed settings line with
    | error halt =>
      rw [fed] at read
      cases read
    | ok t =>
      rw [fed] at read
      have taken := fed
      simp only [feed, under] at taken
      obtain ⟨attrs, rest, list, ⟨bracket, -, rfl⟩ | ⟨angle, behind, tail, closed, -, -⟩⟩ :=
        takeAttributes_cases taken
      · obtain ⟨front, last, after, v, more, angle, behind, w, rfl, run, ended⟩ := ih rfl read
        refine ⟨line :: front, last, after, v, more, angle, behind, w, rfl, ?_, ended⟩
        rw [List.foldlM_cons, fed]
        exact run
      · exact ⟨[], line, lines, s, _, angle, behind, _, rfl, rfl, .below under ⟨rest, list, closed⟩⟩

end State

end TemplateMarkup
