import TemplateMarkup.Proofs.Cursor.Feed
import TemplateMarkup.Proofs.Reading.Moves

/-! One line, taken by cursor. Whatever machine words make of columns, texts are cut between
characters and the cursor moves over what it has ahead; and as long as a word holds the columns of
the line, the state that takes the line is the one that takes it as a list of characters. -/
namespace TemplateMarkup

/-- Where the cursor is left between two lines: at the end of a line of code, if the code goes on.
What an attribute list waits for is a bracket. -/
structure State.Rests (s : State) (c : Cursor) : Prop where
  code : ∀ owner segments last, s.phase = .code owner segments last → c = .before last []
  bracket : ∀ tag close, s.phase = .attributes tag close →
    ∃ opening, closingBracket opening = some close

theorem State.rests_of_complete {s : State} (complete : s.phase.isMidway = false) (c : Cursor) :
    s.Rests c := by
  constructor
  · intro owner segments last under
    rw [under] at complete
    cases complete
  · intro tag close under
    rw [under] at complete
    cases complete

/-- What is no block, no output and no end of a tag that closes itself is text, unless it is a slash
alone that no angle bracket stands in front of. -/
theorem Tail.read_other {angle : Bool} {cs : List Char} (filled : trimLeft cs ≠ [])
    (noOutput : ∀ code, trimLeft cs ≠ '=' :: code)
    (noVoid : ∀ rest, trimLeft cs ≠ '/' :: '>' :: rest) :
    Tail.read angle cs = .ok (if angle = false ∧ trimRight (trimLeft cs) = ['/'] then .void
      else .text (dropFront ' ' cs)) := by
  by_cases lone : angle = false ∧ trimRight (trimLeft cs) = ['/']
  · obtain ⟨rfl, slash⟩ := lone
    rw [if_pos ⟨rfl, slash⟩]
    unfold Tail.read
    split
    · next empty => exact absurd empty filled
    · next code same => exact absurd same (noOutput code)
    · next rest same => exact absurd same (noVoid rest)
    · rw [slash]
      rfl
  · rw [if_neg lone, Tail.read_eq_text_iff]
    refine ⟨filled, ?_, ?_, ?_, rfl⟩
    · intro output
      obtain ⟨code, same⟩ := List.head?_eq_some_iff.1 output
      exact noOutput code same
    · rintro ⟨rest, same⟩
      exact noVoid rest same.symm
    · rw [Decidable.or_iff_not_imp_left, Bool.not_eq_true]
      exact fun closed slash => lone ⟨closed, slash⟩

namespace Scan

/-- A scan goes well, and it comes to what is expected if a machine word holds every number up to
some bound. -/
def Meets (word : Nat → Nat) (bound : Nat) (m : Scan State) (c : Cursor)
    (expected : Except Halt State) : Prop :=
  ∃ r, Gives (Within word bound) m c r ∧ (Holds word bound → r.map Prod.fst = expected) ∧
    ∀ s d, r = .ok (s, d) → s.Rests d

variable {word : Nat → Nat} {bound : Nat} {settings : Settings} {line : Line} {cs rest : List Char}

theorem Meets.after {α : Type} {m : Scan α} {f : α → Scan State} {c d : Cursor} {a : α}
    {expected : Except Halt State} (first : Gives (Within word bound) m c (.ok (a, d)))
    (second : Meets word bound (f a) d expected) : Meets word bound (m >>= f) c expected := by
  obtain ⟨r, given, same, rests⟩ := second
  exact ⟨r, first.bind given, same, rests⟩

theorem Meets.congr {m : Scan State} {c : Cursor} {expected other : Except Halt State}
    (h : Meets word bound m c expected) (same : Holds word bound → expected = other) :
    Meets word bound m c other := by
  obtain ⟨r, given, met, rests⟩ := h
  exact ⟨r, given, fun holds => (met holds).trans (same holds), rests⟩

theorem meets_pure {s : State} {c : Cursor} (rests : s.Rests c) :
    Meets word bound (pure s) c (.ok s) := by
  refine ⟨_, gives_pure _ _ _, fun _ => rfl, ?_⟩
  rintro _ _ ⟨⟩
  exact rests

theorem meets_refused {m : Scan State} {c : Cursor} {halt : Halt}
    (h : Gives (Within word bound) m c (.error halt)) : Meets word bound m c (.error halt) :=
  ⟨_, h, fun _ => rfl, fun _ _ same => nomatch same⟩

theorem rests_takeCode (s : State) (owner : CodeOwner) (segments : List (List Char)) (line : Line)
    (cs : List Char) : (s.takeCode owner segments line cs).Rests (.before line []) := by
  unfold State.takeCode
  simp only
  split
  · constructor
    · rintro _ _ _ ⟨⟩
      rfl
    · rintro _ _ ⟨⟩
  · exact State.rests_of_complete rfl _

theorem meets_takeCode (s : State) (owner : CodeOwner) (segments : List (List Char))
    (left : rest <:+ line) (cs : List Char) :
    Meets word bound (takeCode s owner segments line cs) (.before line rest)
      (.ok (s.takeCode owner segments line cs)) :=
  .after (gives_skipLine _ left) (meets_pure (rests_takeCode s owner segments line cs))

theorem meets_takeVoid (s : State) (tag : TagHead) (left : rest <:+ line) :
    Meets word bound (takeVoid settings s tag line) (.before line rest)
      (.ok (s.takeTail settings.tabSize tag line .void)) :=
  .after (gives_skipLine _ left) (meets_pure (State.rests_of_complete rfl _))

/-- What a line comes to is expected as far as a word holds its columns. -/
abbrev MeetsLine (word : Nat → Nat) (settings : Settings) (line : Line) (m : Scan State)
    (c : Cursor) (expected : Except Halt State) : Prop :=
  Meets word (extent settings.tabSize line) m c expected

theorem meets_takeInline (s : State) (tag : TagHead) (left : cs <:+ line) :
    MeetsLine word settings line (takeInline word settings s tag) (.before line cs)
      (.ok (s.takeTail settings.tabSize tag line (.text (dropFront ' ' cs)))) := by
  have inside := (dropFront_suffix ' ' cs).trans left
  obtain ⟨column, given, same⟩ := exists_column word settings.tabSize inside
  refine Meets.congr (.after (gives_skipChar _ rfl left) (.after given
    (.after (gives_ahead _ inside) (.after (gives_skipLine _ inside)
      (meets_pure (State.rests_of_complete rfl _)))))) fun holds => ?_
  rw [same holds]
  rfl

theorem meets_takeTail (s : State) (tag : TagHead) {angle : Bool} (left : cs <:+ line)
    (closed : (frontOf line cs).getLast? = some '>' ↔ angle = true) :
    MeetsLine word settings line (takeTail word settings s tag line) (.before line cs)
      (s.takeBehind settings.tabSize tag line angle cs) := by
  have skipped := trimLeft_suffix cs
  refine .after (gives_consumed _ left) (.after (gives_ahead _ left) ?_)
  split
  · next text =>
    simp only [State.takeBehind, Tail.read, text]
    exact meets_pure (State.rests_of_complete rfl _)
  · next code text =>
    rw [text] at skipped
    have moved := gives_advance_to (Within word (extent settings.tabSize line)) left skipped
    rw [byteSize_frontOf skipped] at moved
    have inside := skipped.trans left
    have behind := (OutputMark.read_suffix code).trans ((List.suffix_cons '=' code).trans inside)
    simp only [State.takeBehind, Tail.read, text]
    exact .after moved (.after (gives_outputMark _ inside) (.after (gives_ahead _ behind)
      (meets_takeCode s _ _ behind _)))
  · next rest text =>
    simp only [State.takeBehind, Tail.read, text]
    by_cases clean : isRemarkOnly rest = true
    · rw [if_pos clean, if_pos clean]
      exact meets_takeVoid s tag left
    · rw [if_neg clean, if_neg clean]
      exact meets_refused (gives_answer _ _ _)
  · next filled noOutput noVoid =>
    have lone : (frontOf line cs).getLast? ≠ some '>' ↔ angle = false := by
      rw [Ne, closed, Bool.not_eq_true]
    simp only [State.takeBehind, Tail.read_other filled noOutput noVoid, lone]
    split
    · exact meets_takeVoid s tag left
    · exact meets_takeInline s tag left

/-- A list may wait for a bracket, and for nothing else. -/
def IsClosing (close : Option Char) : Prop :=
  ∀ c ∈ close, ∃ opening, closingBracket opening = some c

theorem isClosing_openList (cs : List Char) : IsClosing (openList cs).1 := by
  intro bracket mem
  cases cs with
  | nil => cases mem
  | cons c inner =>
    rw [openList] at mem
    cases opens : closingBracket c with
    | none =>
      rw [opens] at mem
      cases mem
    | some close =>
      rw [opens] at mem
      exact ⟨c, opens.trans mem⟩

theorem meets_takeAttributes (s : State) (tag : TagHead) {close : Option Char}
    (front : ReadsOpen line cs) (closing : IsClosing close) :
    MeetsLine word settings line (takeAttributes word settings s tag close line) (.before line cs)
      (s.takeAttributes settings.tabSize tag close line cs) := by
  have left := front.suffix
  have one : ∀ bracket ∈ close, bracket.utf8Size = 1 := by
    intro bracket mem
    obtain ⟨opening, closes⟩ := closing bracket mem
    exact (size_of_closingBracket closes).2
  have other : close ≠ some '>' := by
    rintro rfl
    obtain ⟨opening, closes⟩ := closing '>' rfl
    exact closingBracket_ne_angle closes rfl
  have given := gives_attributes (Within word (extent settings.tabSize line)) s close left
    (Nat.lt_succ_of_le left.length_le)
  cases read : readAttributes close cs with
  | error snag =>
    rw [read] at given
    simp only [State.takeAttributes, read]
    exact meets_refused given.bind_error
  | ok result =>
    obtain ⟨attrs, rest⟩ := result
    rw [read] at given
    refine .after given ?_
    have inside : rest <:+ cs := by
      have suffix := readAttributes_suffix close cs
      rwa [read] at suffix
    have ending := gives_listEnd (Within word (extent settings.tabSize line)) s
      (inside.trans left) one
    cases ended : readListEnd close rest with
    | error snag =>
      rw [ended] at ending
      simp only [State.takeAttributes, read, ended]
      exact meets_refused ending.bind_error
    | ok stop =>
      rw [ended] at ending
      refine .after ending ?_
      cases stop with
      | continued bracket =>
        simp only [State.takeAttributes, read, ended]
        refine meets_pure ⟨?_, ?_⟩
        · rintro _ _ _ ⟨⟩
        · rintro _ _ ⟨⟩
          exact closing bracket (State.bracket_of_continued ended)
      | closed angle behind =>
        have list : EndsList close cs attrs angle behind := ⟨rest, read, ended⟩
        obtain ⟨lead, rfl, closed⟩ := list.consumed front other
        rw [State.takeAttributes_ended list]
        exact meets_takeTail s _ (List.suffix_append lead behind) (by simpa using closed)

theorem meets_takeTag (s : State) (name : String) (front : ReadsOpen line cs) :
    MeetsLine word settings line (takeTag word settings s name line) (.before line cs)
      (s.takeTag settings.tabSize name line cs) := by
  have left := front.suffix
  have inside := (readShortcuts_suffix cs).trans left
  have list := (front.trans (readsOpen_shortcuts cs)).trans (readsOpen_openList _)
  rw [State.takeTag_openList]
  exact .after (gives_shortcuts _ left (Nat.lt_succ_of_le left.length_le))
    (.after (gives_bracket _ inside) (meets_takeAttributes s _ list (isClosing_openList _)))

end Scan

theorem dropFront_of_ne {c : Char} (other : cs.head? ≠ some c) : dropFront c cs = cs := by
  cases cs with
  | nil => rfl
  | cons d cs => exact if_neg fun same => other (congrArg some same)

/-- What a head whose text the cursor moves to, or that sets a column, is spelled with. -/
def Head.Opens (cs : List Char) : Head → Prop
  | control code => cs = '-' :: code
  | output mark code => ∃ rest, cs = '=' :: rest ∧ OutputMark.read rest = (mark, code)
  | comment spaced more => cs = ['<', '!', '-', '-'] ++ (if spaced then [' '] else []) ++ more
  | tag name rest => cs = '<' :: (name.getD [] ++ rest)
  | text glued more => (cs.head? = some '>' ↔ glued = true) ∧ more = dropFront '>' cs
  | unknown rest => cs = '<' :: rest
  | embedded _ | conditional _ | remark | doctype _ => True

theorem Head.opens_ofAngle (cs : List Char) : (Head.ofAngle cs).Opens ('<' :: cs) := by
  unfold Head.ofAngle
  split
  · trivial
  · split
    · rfl
    · rfl
    · next c rest _ _ =>
      split
      · rfl
      · split
        · simp [Opens]
        · rfl
    · rfl

theorem Head.opens_ofHash (cs : List Char) : (Head.ofHash cs).Opens ('#' :: cs) := by
  unfold Head.ofHash
  split
  · exact ⟨by simp, rfl⟩
  · split <;> trivial

theorem Head.opens_read (cs : List Char) : (Head.read cs).Opens cs := by
  unfold Head.read
  split
  · rfl
  · next rest => exact ⟨rest, rfl, rfl⟩
  · exact opens_ofAngle _
  · exact opens_ofHash _
  · exact ⟨by simp, rfl⟩
  · next unmarked =>
    split
    · trivial
    · have other : cs.head? ≠ some '>' := by
        intro marked
        obtain ⟨rest, same⟩ := List.head?_eq_some_iff.1 marked
        exact unmarked rest same
      exact ⟨by simp [other], (dropFront_of_ne other).symm⟩

/-- A marker that a text starts with is one of its characters. -/
theorem Head.Opens.length_text {glued : Bool} {more : List Char}
    (opens : (Head.text glued more).Opens cs) : (if glued then 1 else 0) ≤ cs.length := by
  cases glued with
  | false => exact Nat.zero_le _
  | true =>
    obtain ⟨rest, rfl⟩ := List.head?_eq_some_iff.1 (opens.1.2 rfl)
    exact Nat.succ_le_succ (Nat.zero_le _)

theorem Head.Opens.length_comment {spaced : Bool} {text : List Char}
    (opens : (Head.comment spaced text).Opens cs) : (if spaced then 1 else 0) + 2 ≤ cs.length := by
  obtain rfl : cs = ['<', '!', '-', '-'] ++ (if spaced then [' '] else []) ++ text := opens
  cases spaced <;> simp

namespace Scan

variable {word : Nat → Nat} {bound : Nat} {settings : Settings} {line : Line} {cs rest : List Char}

/-- Where a head is read, the level around the line is as wide as its indentation, and the line goes
on at least as far as what the head is spelled with. -/
theorem within_extent {width n : Nat} (left : cs <:+ line)
    (fits : Holds word (extent settings.tabSize line) → width ≤ indentWidth settings.tabSize line)
    (short : n ≤ cs.length) : Within word (extent settings.tabSize line) (width + n) :=
  fun holds => add_le_extent left (fits holds) short

theorem width_separate (s : State) : s.separate.builder.width = s.builder.width :=
  Builder.width_fills (State.fills_separate s)

theorem meets_takeText (s : State) {glued : Bool} {more : List Char} (left : cs <:+ line)
    (opens : (Head.text glued more).Opens cs)
    (fits : Holds word (extent settings.tabSize line) →
      s.builder.width ≤ indentWidth settings.tabSize line) :
    MeetsLine word settings line (takeText word s) (.before line cs)
      (s.takeHead settings line (.text glued more)) := by
  have inside := (dropFront_suffix '>' cs).trans left
  have bound := within_extent left fits opens.length_text
  obtain ⟨marked, rfl⟩ := opens
  have added := gives_sum _ word bound (.before line (dropFront '>' cs))
  refine .after (gives_ahead _ left) (.after (gives_skipChar _ rfl left) ?_)
  simp only [marked]
  refine Meets.congr (.after added (.after (gives_ahead _ inside) (.after (gives_skipLine _ inside)
    (meets_pure (State.rests_of_complete rfl _))))) fun holds => ?_
  rw [holds _ (bound holds)]
  cases glued with
  | false => simp [State.takeHead, width_separate]
  | true => rfl

/-- The column of a comment's text is summed up in two steps. -/
theorem meets_takeComment (s : State) {spaced : Bool} {text : List Char} (left : cs <:+ line)
    (opens : (Head.comment spaced text).Opens cs)
    (fits : Holds word (extent settings.tabSize line) →
      s.builder.width ≤ indentWidth settings.tabSize line) :
    MeetsLine word settings line (takeComment word s spaced text) (.before line cs)
      (s.takeHead settings line (.comment spaced text)) := by
  have long := opens.length_comment
  have near := within_extent left fits (Nat.le_of_add_right_le long)
  have far : Within word (extent settings.tabSize line)
      (word (s.builder.width + if spaced then 1 else 0) + 2) := by
    intro holds
    rw [holds _ (near holds), Nat.add_assoc]
    exact within_extent left fits long holds
  unfold takeComment State.takeHead
  by_cases empty : text.isEmpty = true
  · simp only [if_pos empty]
    exact meets_pure (State.rests_of_complete rfl _)
  · simp only [if_neg empty]
    refine Meets.congr (.after (gives_sum _ word near _) (.after (gives_sum _ word far _)
      (meets_pure (State.rests_of_complete rfl _)))) fun holds => ?_
    rw [holds _ (far holds), holds _ (near holds), Nat.add_right_comm]
    rfl

theorem meets_answer {m : Except Halt State} {c : Cursor} (rests : ∀ s, m = .ok s → s.Rests c) :
    Meets word bound (answer m) c m := by
  refine ⟨_, gives_answer _ m c, fun _ => ?_, ?_⟩
  · cases m <;> rfl
  · intro s d same
    cases m with
    | error halt => cases same
    | ok other =>
      cases same
      exact rests _ rfl

theorem meets_takeHead (s : State) (front : ReadsOpen line cs)
    (fits : Holds word (extent settings.tabSize line) →
      s.builder.width ≤ indentWidth settings.tabSize line) :
    MeetsLine word settings line (takeHead word settings s line (Head.read cs)) (.before line cs)
      (s.takeHead settings line (Head.read cs)) := by
  have left := front.suffix
  have opens := Head.opens_read cs
  cases read : Head.read cs with
  | control code =>
    rw [read] at opens
    subst opens
    have inside := (List.suffix_cons '-' code).trans left
    exact .after (gives_advance_char _ rfl left) (.after (gives_ahead _ inside)
      (meets_takeCode s _ _ inside _))
  | output mark code =>
    rw [read] at opens
    obtain ⟨rest, rfl, marked⟩ := opens
    have given := gives_outputMark (Within word (extent settings.tabSize line)) left
    have inside := ((OutputMark.read_suffix rest).trans (List.suffix_cons '=' rest)).trans left
    rw [marked] at given inside
    exact .after given (.after (gives_ahead _ inside) (meets_takeCode s _ _ inside _))
  | comment spaced text =>
    rw [read] at opens
    exact meets_takeComment s left opens fits
  | tag name rest =>
    rw [read] at opens
    have list := front.trans (readsOpen_head read)
    subst opens
    have moved := gives_advance (Within word (extent settings.tabSize line)) ('<' :: name.getD [])
      rest left
    rw [byteSize_cons] at moved
    exact .after moved (meets_takeTag s.separate _ list)
  | text glued text =>
    rw [read] at opens
    exact meets_takeText s left opens fits
  | unknown rest =>
    rw [read] at opens
    subst opens
    have inside := (List.suffix_cons '<' rest).trans left
    exact .after (gives_advance_char _ rfl left) (meets_refused (gives_refuse _ inside _ _ _))
  | embedded | conditional | remark | doctype =>
    refine meets_answer ?_
    rintro t ⟨⟩
    exact State.rests_of_complete rfl _

end Scan

end TemplateMarkup
