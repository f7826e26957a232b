import TemplateMarkup.Proofs.Line.Rest
import TemplateMarkup.Proofs.Reading.Moves

/-! Where a reading fails. A line that is refused is at fault itself, behind the white space it
starts with. A construct that never ends is found out only at the end, and the fault is that of a
line which it remembered. -/
namespace TemplateMarkup

/-- Whether a cause shows only when no line is left. -/
def Cause.isFinal : Cause → Bool
  | expectedDelimiter _ | unexpectedEnd => true
  | _ => false

/-- Whether a line may be refused for a cause. One that names a character names a quote then. -/
def Cause.isEarly : Cause → Bool
  | expectedDelimiter _ | unexpectedEnd => false
  | expectedQuote quote => quote = '"' || quote = '\''
  | _ => true

/-- The character that a cause names. -/
def Cause.mark? : Cause → Option Char
  | expectedDelimiter mark | expectedQuote mark => some mark
  | _ => none

theorem Cause.isFinal_of_early {cause : Cause} (h : cause.isEarly = true) :
    cause.isFinal = false := by
  cases cause <;> first | rfl | cases h

theorem Cause.mark_of_early {cause : Cause} (h : cause.isEarly = true) :
    cause.mark? ≠ some '\n' := by
  cases cause with
  | expectedQuote quote =>
    have quoted : (decide (quote = '"') || decide (quote = '\'')) = true := h
    obtain rfl | rfl := by simpa using quoted
    · simp [mark?]
    · simp [mark?]
  | expectedDelimiter close => cases h
  | _ => simp [mark?]

/-- Line number `n`, counted from one. -/
def IsLine (lines : List Line) (n : Nat) (line : Line) : Prop := 1 ≤ n ∧ lines[n - 1]? = some line

/-- A fault that stands on a line of the template, not within the white space that the line starts
with nor behind its end. -/
structure Fault.Placed (lines : List Line) (fault : Fault) : Prop where
  isLine : IsLine lines fault.number fault.line
  behind : fault.line.length - (trimLeft fault.line).length ≤ fault.column
  within : fault.column ≤ fault.line.length
  mark : fault.cause.mark? ≠ some '\n'

/-- What is left of a line tells the column of a fault. -/
theorem placed_before {lines : List Line} {n : Nat} {line : Line} {cause : Cause} {rest : List Char}
    (isLine : IsLine lines n line) (inside : rest <:+ trimLeft line)
    (mark : cause.mark? ≠ some '\n') : Fault.Placed lines (.before cause n line rest) := by
  have behind : line.length - (trimLeft line).length ≤ line.length - rest.length :=
    Nat.sub_le_sub_left inside.length_le _
  exact ⟨isLine, behind, Nat.sub_le _ _, mark⟩

/-- The faults of a line that is refused: the cause shows at once, and what is left of the line
starts behind its white space. -/
inductive LineFault (number : Nat) (line : Line) : Fault → Prop
  | intro {cause : Cause} {rest : List Char} (early : cause.isEarly = true)
      (inside : rest <:+ trimLeft line) : LineFault number line (.before cause number line rest)

theorem LineFault.number {n : Nat} {line : Line} {fault : Fault} (h : LineFault n line fault) :
    fault.number = n := by
  cases h
  rfl

theorem LineFault.early {n : Nat} {line : Line} {fault : Fault} (h : LineFault n line fault) :
    fault.cause.isFinal = false := by
  cases h with
  | intro early inside => exact Cause.isFinal_of_early early

theorem LineFault.placed {lines : List Line} {n : Nat} {line : Line} {fault : Fault}
    (refusal : LineFault n line fault) (isLine : IsLine lines n line) : fault.Placed lines := by
  cases refusal with
  | intro early inside => exact placed_before isLine inside (Cause.mark_of_early early)

/-! The readers of a line fail within it. -/

/-- A fault within some part of a line. -/
structure Snag.Within (snag : Snag) (cs : List Char) : Prop where
  early : snag.cause.isEarly = true
  inside : snag.rest <:+ cs

theorem Snag.Within.trans {snag : Snag} {cs ds : List Char} (h : snag.Within cs)
    (part : cs <:+ ds) : snag.Within ds :=
  ⟨h.early, h.inside.trans part⟩

theorem readValue_within {close : Option Char} {cs : List Char} {snag : Snag}
    (h : readValue close cs = .error snag) : snag.Within cs := by
  obtain ⟨quote, quoted, rfl⟩ | rfl := readValue_error h
  · rcases quoted with rfl | rfl
    · exact ⟨rfl, List.nil_suffix⟩
    · exact ⟨rfl, List.nil_suffix⟩
  · exact ⟨rfl, List.suffix_rfl⟩

theorem readAttributes_within {close : Option Char} {cs : List Char} {snag : Snag}
    (h : readAttributes close cs = .error snag) : snag.Within (trimLeft cs) := by
  have left := readAttributes_left close cs
  rw [h] at left
  obtain ⟨text, refused⟩ := exists_refused_value h
  exact ⟨(readValue_within refused).early, left⟩

theorem readListEnd_within {close : Option Char} {cs : List Char} {snag : Snag}
    (h : readListEnd close cs = .error snag) : snag.Within cs := by
  obtain rfl := readListEnd_error h
  exact ⟨rfl, List.suffix_rfl⟩

theorem Tail.read_within {angle : Bool} {cs : List Char} {snag : Snag}
    (h : Tail.read angle cs = .error snag) : snag.Within cs := by
  obtain rfl := Tail.read_error h
  exact ⟨rfl, List.nil_suffix⟩

theorem TextBlock.add_error {block : TextBlock} {tab : Nat} {line : Line} {cause : Cause}
    (h : block.add tab line = .error cause) : cause = .unexpectedTextIndentation := by
  unfold TextBlock.add at h
  split at h
  · cases h
  · simp only at h
    split at h
    · cases h
    · cases h
      rfl

namespace State

variable {settings : Settings} {s : State} {line : Line} {halt : Halt}

theorem lineFault_halt {cause : Cause} {rest : List Char} (early : cause.isEarly = true)
    (inside : rest <:+ trimLeft line) (h : s.halt cause line rest = .error halt) :
    LineFault s.number line halt.fault := by
  cases h
  exact .intro early inside

theorem lineFault_takeAttributes {tab : Nat} {tag : TagHead} {close : Option Char} {cs : List Char}
    (inside : trimLeft cs <:+ trimLeft line)
    (h : s.takeAttributes tab tag close line cs = .error halt) :
    LineFault s.number line halt.fault := by
  unfold takeAttributes at h
  split at h
  · next snag hattrs =>
    have within := (readAttributes_within hattrs).trans inside
    exact lineFault_halt within.early within.inside h
  · next attrs rest hattrs =>
    have left := readAttributes_left close cs
    rw [hattrs] at left
    simp only at h
    split at h
    · next snag hend =>
      have within := (readListEnd_within hend).trans (left.trans inside)
      exact lineFault_halt within.early within.inside h
    · cases h
    · next angle behind hend =>
      split at h
      · next snag htail =>
        have within := (Tail.read_within htail).trans
          ((readListEnd_suffix hend).trans (left.trans inside))
        exact lineFault_halt within.early within.inside h
      · cases h

theorem lineFault_takeTag {tab : Nat} {name : String} {cs : List Char}
    (inside : cs <:+ trimLeft line) (h : s.takeTag tab name line cs = .error halt) :
    LineFault s.number line halt.fault := by
  obtain ⟨close, inner, suffix, taken⟩ := takeTag_eq tab name line cs
  rw [taken] at h
  have part := suffix.trans ((readShortcuts_suffix cs).trans inside)
  exact lineFault_takeAttributes ((trimLeft_suffix inner).trans part) h

theorem lineFault_takeHead {head : Head} (inside : head.unread <:+ trimLeft line)
    (h : takeHead settings s line head = .error halt) : LineFault s.number line halt.fault := by
  cases head with
  | tag name cs =>
    have refused := lineFault_takeTag (s := s.separate) inside h
    rwa [number_separate] at refused
  | unknown rest => exact lineFault_halt rfl inside h
  | control | output | embedded | comment | conditional | remark | doctype | text => cases h

theorem lineFault_dispatch (h : s.dispatch settings line = .error halt) :
    LineFault s.number line halt.fault := by
  cases blank : isBlank line with
  | true =>
    rw [dispatch_blank blank] at h
    cases h
  | false =>
    cases fit : s.builder.align (indentWidth settings.tabSize line) with
    | error misfit =>
      rw [dispatch_misfit blank fit] at h
      cases h
      obtain rfl | rfl := Builder.align_error fit
      · exact .intro rfl List.suffix_rfl
      · exact .intro rfl List.suffix_rfl
    | ok result =>
      rw [dispatch_fit blank fit] at h
      exact lineFault_takeHead (s := s.fitted settings line result.1 result.2)
        (Head.read_unread (trimLeft line)) h

theorem lineFault_takeFirst (h : s.takeFirst settings line = .error halt) :
    LineFault s.number line halt.fault := by
  unfold takeFirst at h
  split at h
  · cases h
  · split at h
    · exact lineFault_dispatch h
    · next value rest found =>
      split at h
      · cases h
      · have inside := (trimLeft_suffix rest).trans (doctypeHeader?_suffix found)
        exact lineFault_halt rfl inside h

/-- A line that is refused is at fault itself. -/
theorem lineFault_feed (h : s.feed settings line = .error halt) :
    LineFault (s.number + 1) line halt.fault := by
  unfold feed at h
  simp only at h
  split at h
  · exact lineFault_takeFirst h
  · exact lineFault_dispatch h
  · cases h
  · exact lineFault_takeAttributes List.suffix_rfl h
  · next block _ =>
    split at h
    · split at h
      · cases h
      · next cause refused =>
        obtain rfl := TextBlock.add_error refused
        exact lineFault_halt rfl List.suffix_rfl h
    · have refused := lineFault_dispatch h
      rwa [number_settle] at refused
  · split at h
    · cases h
    · exact lineFault_dispatch h

/-- A reading that fails before its end is refused some line. -/
theorem refused_line {lines : List Line} (h : lines.foldlM (feed settings) s = .error halt) :
    ∃ before line after t, lines = before ++ line :: after ∧
      before.foldlM (feed settings) s = .ok t ∧ t.feed settings line = .error halt := by
  induction lines generalizing s with
  | nil => cases h
  | cons line lines ih =>
    rw [List.foldlM_cons] at h
    cases step : s.feed settings line with
    | error failed =>
      rw [step] at h
      cases h
      exact ⟨[], line, lines, s, rfl, rfl, step⟩
    | ok u =>
      rw [step] at h
      obtain ⟨before, refused, after, t, rfl, ht, failed⟩ := ih h
      refine ⟨line :: before, refused, after, t, rfl, ?_, failed⟩
      rw [List.foldlM_cons, step]
      exact ht

/-! The lines that a construct under way remembers. -/

/-- What a construct under way remembers is a line of the template, and the bracket it is to end
with. -/
def Recalls (lines : List Line) (s : State) : Prop :=
  match s.phase with
  | .code _ _ last => IsLine lines s.number last
  | .attributes tag close => IsLine lines tag.number tag.line ∧ close ≠ '\n'
  | _ => True

variable {lines more : List Line} {t : State}

theorem recalls_takeCode (here : IsLine lines s.number line) (owner : CodeOwner)
    (segments : List (List Char)) (cs : List Char) :
    Recalls lines (s.takeCode owner segments line cs) := by
  unfold takeCode
  simp only
  split
  · exact here
  · trivial

theorem recalls_takeTail (here : IsLine lines s.number line) (tab : Nat) (tag : TagHead)
    (tail : Tail) : Recalls lines (s.takeTail tab tag line tail) := by
  cases tail with
  | output mark cs => exact recalls_takeCode here _ _ cs
  | void => trivial
  | block => trivial
  | text inline => trivial

theorem bracket_of_continued {close : Option Char} {cs : List Char} {bracket : Char}
    (h : readListEnd close cs = .ok (.continued bracket)) : close = some bracket := by
  unfold readListEnd at h
  split at h
  · cases h
    rfl
  · split at h
    · split at h <;> cases h
    · cases h
  all_goals first | cases h | (split at h <;> cases h)

theorem recalls_takeAttributes {tab : Nat} {tag : TagHead} {close : Option Char} {cs : List Char}
    (here : IsLine lines s.number line) (start : IsLine lines tag.number tag.line)
    (visible : close ≠ some '\n') (h : s.takeAttributes tab tag close line cs = .ok t) :
    Recalls lines t := by
  obtain ⟨attrs, rest, -, ⟨bracket, hend, rfl⟩ | ⟨angle, behind, tail, -, -, rfl⟩⟩ :=
    takeAttributes_cases h
  · refine ⟨start, ?_⟩
    rintro rfl
    exact visible (bracket_of_continued hend)
  · exact recalls_takeTail here _ _ tail

theorem closingBracket_visible {c bracket : Char} (h : closingBracket c = some bracket) :
    bracket ≠ '\n' := by
  unfold closingBracket at h
  split at h <;> cases h <;> decide

theorem recalls_takeTag {tab : Nat} {name : String} {cs : List Char}
    (here : IsLine lines s.number line) (h : s.takeTag tab name line cs = .ok t) :
    Recalls lines t := by
  unfold takeTag at h
  simp only at h
  split at h
  · exact recalls_takeAttributes here here (by simp) h
  · split at h
    · next bracket hbracket =>
      refine recalls_takeAttributes here here ?_ h
      rintro ⟨rfl⟩
      exact closingBracket_visible hbracket rfl
    · exact recalls_takeAttributes here here (by simp) h

theorem recalls_takeHead {head : Head} (here : IsLine lines s.number line)
    (h : takeHead settings s line head = .ok t) : Recalls lines t := by
  cases head with
  | control cs =>
    cases h
    exact recalls_takeCode here _ _ cs
  | output mark cs =>
    cases h
    exact recalls_takeCode here _ _ cs
  | tag name cs =>
    have separated : IsLine lines s.separate.number line := by rwa [number_separate]
    exact recalls_takeTag separated h
  | unknown rest => cases h
  | embedded | comment | conditional | remark | doctype | text =>
    cases h
    trivial

theorem recalls_dispatch (here : IsLine lines s.number line)
    (h : s.dispatch settings line = .ok t) : Recalls lines t := by
  obtain ⟨-, rfl⟩ | ⟨builder, moved, -, -, taken⟩ := dispatch_cases h
  · trivial
  · exact recalls_takeHead (s := s.fitted settings line builder moved) here taken

theorem number_step (steady : s.Steady) (step : Step settings line s t) :
    t.number = s.number + 1 := by
  cases step with
  | blank => rfl
  | header => rfl
  | code owner segments last under =>
    have idle := steady (by rw [under]; rfl)
    have outcome := outcome_takeCode (s := { s with number := s.number + 1 }) idle
    cases outcome owner segments line line with
    | ok _ number _ => exact number
  | attributes t tag close under taken =>
    have idle := steady (by rw [under]; rfl)
    have outcome := outcome_takeAttributes (s := { s with number := s.number + 1 }) idle
      settings.tabSize tag (some close) line line
    rw [taken] at outcome
    cases outcome with
    | ok _ number _ => exact number
  | text => rfl
  | remark => rfl
  | dispatch u t before taken =>
    have outcome := outcome_dispatch settings { u with number := u.number + 1 } line
    rw [taken] at outcome
    cases outcome with
    | ok _ number _ => rw [number, (fills_beforeDispatch before).2.1]

/-- The lines before a moment of a reading, and what it remembers of them. -/
structure Progress (lines more : List Line) (s : State) : Prop where
  rest : lines.drop s.number = more
  recalls : Recalls lines s

theorem isLine_next (rest : lines.drop s.number = line :: more) :
    IsLine lines (s.number + 1) line := by
  refine ⟨Nat.succ_pos _, ?_⟩
  have head := congrArg List.head? rest
  rwa [List.head?_drop] at head

theorem progress_step (steady : s.Steady) (progress : Progress lines (line :: more) s)
    (step : Step settings line s t) : Progress lines more t := by
  have here := isLine_next progress.rest
  have recalls := progress.recalls
  refine ⟨?_, ?_⟩
  · rw [number_step steady step, ← List.drop_drop, progress.rest, List.drop_one, List.tail_cons]
  · cases step with
    | blank start blank => simp [Recalls, breakLine, place, start]
    | header value rest start found clean => trivial
    | code owner segments last under =>
      exact recalls_takeCode (s := { s with number := s.number + 1 }) here _ _ _
    | attributes t tag close under taken =>
      simp only [Recalls, under] at recalls
      refine recalls_takeAttributes (s := { s with number := s.number + 1 }) here recalls.1 ?_ taken
      rintro ⟨rfl⟩
      exact recalls.2 rfl
    | text block more under joined taken => trivial
    | remark under inside => simp [Recalls, breakLine, place, under]
    | dispatch u t before taken =>
      obtain ⟨-, number, -, -⟩ := fills_beforeDispatch before
      rw [← number] at here
      exact recalls_dispatch (s := { u with number := u.number + 1 }) here taken

theorem progress_start (lines : List Line) : Progress lines lines {} := ⟨rfl, trivial⟩

/-- At every moment of a reading a construct under way remembers lines of the template. -/
theorem progress_foldlM {before : List Line} (more : List Line)
    (h : before.foldlM (feed settings) {} = .ok t) : Progress (before ++ more) more t :=
  run_induction progress_step steady_start (progress_start _) h

/-- A construct that never ends is at fault behind the end of a line that it remembered. -/
theorem fault_finish (recalls : Recalls lines s) (h : s.finish = .error halt) :
    halt.fault.cause.isFinal = true ∧ halt.fault.Placed lines := by
  unfold finish at h
  split at h
  · cases h
  · cases h
  · cases h
  · cases h
  · next owner segments last under =>
    cases h
    simp only [Recalls, under] at recalls
    exact ⟨rfl, placed_before recalls List.nil_suffix (by simp [Cause.mark?])⟩
  · next tag close under =>
    cases h
    simp only [Recalls, under] at recalls
    exact ⟨rfl, placed_before recalls.1 List.nil_suffix (by simpa [Cause.mark?] using recalls.2)⟩

end State

/-- The two ways that a reading fails: it is refused a line, or it ends within a construct. -/
inductive FailedRead (settings : Settings) (lines : List Line) (halt : Halt) : Prop
  | refused (before : List Line) (line : Line) (after : List Line) (s : State)
      (split : lines = before ++ line :: after)
      (read : before.foldlM (State.feed settings) {} = .ok s)
      (failed : s.feed settings line = .error halt)
      (refusal : LineFault (before.length + 1) line halt.fault)
  | unfinished (s : State) (read : lines.foldlM (State.feed settings) {} = .ok s)
      (failed : s.finish = .error halt)

theorem failedRead_of_readLines {settings : Settings} {lines : List Line} {halt : Halt}
    (h : readLines settings lines = .error halt) : FailedRead settings lines halt := by
  unfold readLines at h
  cases read : lines.foldlM (State.feed settings) {} with
  | error failed =>
    simp only [read, bind, Except.bind] at h
    cases h
    obtain ⟨before, line, after, s, split, hs, failed⟩ := State.refused_line read
    have number : s.number = before.length := by
      simpa using State.number_foldlM State.steady_start hs
    exact .refused before line after s split hs failed (number ▸ State.lineFault_feed failed)
  | ok s =>
    simp only [read, bind, Except.bind] at h
    exact .unfinished s read h

/-- Every fault stands on a line of the template. -/
theorem placed_of_readLines {settings : Settings} {lines : List Line} {halt : Halt}
    (h : readLines settings lines = .error halt) : halt.fault.Placed lines := by
  cases failedRead_of_readLines h with
  | refused before line after s split read failed refusal =>
    subst split
    refine refusal.placed ⟨Nat.succ_pos _, ?_⟩
    simp
  | unfinished s read failed =>
    have recalls := (State.progress_foldlM [] read).recalls
    rw [List.append_nil] at recalls
    exact (State.fault_finish recalls failed).2

end TemplateMarkup
