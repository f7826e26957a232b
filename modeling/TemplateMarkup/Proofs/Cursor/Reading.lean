import TemplateMarkup.Proofs.Cursor.Steps
import TemplateMarkup.Proofs.InlineRemarks
import TemplateMarkup.Proofs.Passage.Joined

/-! A whole reading by cursor: each line on its own, and from that any number of lines. Nothing goes
wrong whatever machine words make of columns, and words that hold the columns of every line come to
the reading of the lines as lists of characters. -/
namespace TemplateMarkup

/-- A marker is one of the characters of its line, so the column behind it is within what can come
of the line. -/
theorem TextBlock.startOf_le_extent (block : TextBlock) (tab : Nat) (line : Line) :
    block.startOf tab line ≤ extent tab line := by
  refine add_le_extent List.suffix_rfl (Nat.le_refl _) ?_
  cases marked : block.isMarked line with
  | false => exact Nat.zero_le _
  | true =>
    refine List.length_pos_of_ne_nil ?_
    rintro rfl
    simp [isMarked, afterIndent] at marked

variable {settings : Settings}

namespace Scan

variable {word : Nat → Nat} {s : State} {c : Cursor}

theorem meets_dispatch (s : State) (line : Line) (c : Cursor) :
    MeetsLine word settings line (dispatch word settings s line) c (s.dispatch settings line) := by
  refine .after (gives_enter _ line c) ?_
  cases blank : isBlank line with
  | true =>
    rw [State.dispatch_blank blank]
    exact meets_pure (State.rests_of_complete rfl _)
  | false =>
    obtain ⟨width, measured, same⟩ :=
      exists_measure word (indentWidth_le_extent settings.tabSize line) (.before line line)
    refine .after measured (.after (gives_skipWhite _ List.suffix_rfl) ?_)
    simp only
    cases fit : s.builder.align width with
    | error misfit =>
      refine (meets_refused (gives_refuse _ (trimLeft_suffix line) _ _ _)).congr fun holds => ?_
      rw [same holds] at fit
      rw [State.dispatch_misfit blank fit]
    | ok result =>
      obtain ⟨builder, moved⟩ := result
      have around := Builder.width_align fit
      refine .after (gives_ahead _ (trimLeft_suffix line))
        ((meets_takeHead _ (.trimLeft line) fun holds => ?_).congr fun holds => ?_)
      · rw [Builder.width_record, around, same holds]
      · rw [same holds] at fit ⊢
        rw [State.dispatch_fit blank fit]
        rfl

theorem meets_takeFirst (line : Line) (c : Cursor) (start : s.phase = .start) :
    MeetsLine word settings line (takeFirst word settings s line) c
      (s.takeFirst settings line) := by
  unfold takeFirst State.takeFirst
  split
  · refine .after (gives_enter _ line c) (meets_pure (State.rests_of_complete ?_ _))
    rw [State.breakLine, State.place, start]
    rfl
  · cases found : doctypeHeader? line with
    | none => exact meets_dispatch s line c
    | some result =>
      obtain ⟨value, rest⟩ := result
      have left := (doctypeHeader?_suffix found).trans (trimLeft_suffix line)
      refine .after (gives_enter _ line c) (.after (gives_cut _ (frontOf_append left).symm _) ?_)
      simp only
      split
      · exact meets_pure (State.rests_of_complete rfl _)
      · have inside := (trimLeft_suffix rest).trans left
        have size : byteSize (frontOf line rest) + (byteSize rest - byteSize (trimLeft rest)) =
            byteSize (frontOf line (trimLeft rest)) := by
          have short := byteSize_le_of_suffix left
          have shorter := byteSize_le_of_suffix (trimLeft_suffix rest)
          rw [byteSize_frontOf left, byteSize_frontOf inside]
          omega
        rw [size]
        exact .after (gives_advance_to _ List.suffix_rfl inside)
          (meets_refused (gives_refuse _ inside _ _ _))

section Below

variable {block : TextBlock}

theorem gives_isMarked (limit : Nat → Prop) (block : TextBlock) (line : Line) (c : Cursor) :
    Gives limit (isMarked block line (byteSize (line.takeWhile isIndent))) c
      (.ok (block.isMarked line, c)) := by
  unfold isMarked TextBlock.isMarked
  cases block.verbatim with
  | true => exact gives_pure _ _ _
  | false =>
    have whole : line = line.takeWhile isIndent ++ afterIndent line :=
      List.takeWhile_append_dropWhile.symm
    simp only [Bool.not_false, Bool.true_and]
    exact (gives_cut limit whole c).bind (gives_pure limit _ c)

theorem exists_textStart (block : TextBlock) (line : Line) {width : Nat} (c : Cursor)
    (same : Holds word (extent settings.tabSize line) → width = indentWidth settings.tabSize line) :
    ∃ start, Gives (Within word (extent settings.tabSize line))
        (textStart word width (block.isMarked line)) c (.ok (start, c)) ∧
      (Holds word (extent settings.tabSize line) →
        start = block.startOf settings.tabSize line) := by
  have inside := block.startOf_le_extent settings.tabSize line
  unfold TextBlock.startOf at inside ⊢
  unfold textStart
  cases marked : block.isMarked line with
  | false =>
    refine ⟨width, gives_pure _ width c, fun holds => ?_⟩
    rw [same holds]
    rfl
  | true =>
    rw [marked, if_pos rfl] at inside
    have fits : Within word (extent settings.tabSize line) (width + 1) := by
      intro holds
      rwa [same holds]
    refine ⟨_, gives_sum _ word fits c, fun holds => ?_⟩
    rw [holds _ (fits holds), same holds]
    rfl

/-- A line is a column short if that is all that is missing of the text's column. -/
theorem admits_iff_sub (block : TextBlock) (tab base : Nat) (line : Line) :
    block.admits tab base line = true ↔ base ≤ block.startOf tab line ∨
      (!block.started && block.isMarked line) = true ∧ base - block.startOf tab line = 1 := by
  have short : block.startOf tab line + 1 = base ↔ base - block.startOf tab line = 1 := by omega
  rw [TextBlock.admits, Bool.or_eq_true, Bool.and_eq_true, decide_eq_true_iff, decide_eq_true_iff,
    short]

/-- A line that is not blank joins the text or is refused, by the column where its text starts. -/
theorem meets_addLine (line : Line) {start : Nat} (c : Cursor)
    (filled : block.isBlankLine line = false)
    (same : Holds word (extent settings.tabSize line) →
      start = block.startOf settings.tabSize line) :
    MeetsLine word settings line (addLine word settings s block line start (block.isMarked line)) c
      (match block.add settings.tabSize line with
      | .ok block => .ok (s.takeText block)
      | .error cause => s.halt cause line (trimLeft line)) := by
  refine .after (gives_enter _ line c) ?_
  simp only
  split
  · next near =>
    obtain ⟨text, given, drop⟩ := exists_dropColumns word
      (indentWidth_le_extent settings.tabSize line) (block.baseline.getD start) (.before line line)
    refine (Meets.after given (.after (gives_skipLine _ List.suffix_rfl)
      (meets_pure (State.rests_of_complete rfl _)))).congr fun holds => ?_
    rw [same holds] at near drop ⊢
    have body : (if block.verbatim then text else cutRemark (dropFront '>' text)) =
        block.bodyOf settings.tabSize (block.baseline.getD (block.startOf settings.tabSize line))
          line := by
      rw [drop holds]
      cases plain : block.verbatim with
      | true => simp [TextBlock.bodyOf, plain]
      | false => exact (TextBlock.bodyOf_eq plain settings.tabSize line).symm
    rw [TextBlock.add_filled filled ((admits_iff_sub _ _ _ _).2 near), body]
    rfl
  · next far =>
    refine (Meets.after (gives_skipWhite _ List.suffix_rfl) (meets_refused
      (gives_refuse _ (trimLeft_suffix line) _ _ _))).congr fun holds => ?_
    rw [same holds, ← admits_iff_sub, Bool.not_eq_true] at far
    rw [TextBlock.add_refused filled far]
    rfl

/-- A line below a text joins it or ends it. -/
theorem meets_takeBelow (line : Line) (c : Cursor) (under : s.phase = .text block) :
    MeetsLine word settings line
      (takeBelow word settings { s with number := s.number + 1 } block line) c
      (s.feed settings line) := by
  simp only [State.feed, under]
  unfold takeBelow TextBlock.takes
  cases blank : block.isBlankLine line with
  | true =>
    rw [TextBlock.add_blank blank]
    exact .after (gives_enter _ line c) (meets_pure (State.rests_of_complete rfl _))
  | false =>
    obtain ⟨width, measured, same⟩ :=
      exists_measure word (indentWidth_le_extent settings.tabSize line) c
    refine .after measured ?_
    simp only
    split
    · next shallow =>
      refine (meets_dispatch _ line c).congr fun holds => ?_
      rw [same holds] at shallow
      simp [Nat.not_lt.2 shallow]
    · next deeper =>
      obtain ⟨start, added, column⟩ := exists_textStart block line c same
      refine .after (gives_isMarked _ block line c) (.after added
        ((meets_addLine line c blank column).congr fun holds => ?_))
      rw [same holds, Nat.not_le] at deeper
      have inside : (false || s.builder.width < indentWidth settings.tabSize line) = true := by
        simpa using deeper
      exact (if_pos inside).symm

end Below

/-- A line below a remark goes unread or ends it. -/
theorem meets_takeRemark (line : Line) (c : Cursor) (under : s.phase = .remark) :
    MeetsLine word settings line (takeRemark word settings { s with number := s.number + 1 } line) c
      (s.feed settings line) := by
  obtain ⟨number, builder, gap, phase⟩ := s
  obtain rfl : phase = .remark := under
  unfold takeRemark State.feed
  simp only
  cases blank : isBlank line with
  | true => exact .after (gives_enter _ line c) (meets_pure (State.rests_of_complete rfl _))
  | false =>
    obtain ⟨width, measured, same⟩ :=
      exists_measure word (indentWidth_le_extent settings.tabSize line) c
    refine .after measured ?_
    simp only
    split
    · next shallow =>
      refine (meets_dispatch _ line c).congr fun holds => ?_
      rw [same holds] at shallow
      simp [Nat.not_lt.2 shallow]
    · next deeper =>
      refine (Meets.after (gives_enter _ line c)
        (meets_pure (State.rests_of_complete rfl _))).congr fun holds => ?_
      rw [same holds] at deeper
      simp [Nat.lt_of_not_le deeper]

/-- One line. -/
theorem meets_feed (line : Line) (rests : s.Rests c) :
    MeetsLine word settings line (feed word settings s line) c (s.feed settings line) := by
  unfold feed
  simp only
  split
  · next start =>
    rw [State.feed_of_start line start]
    exact meets_takeFirst line c start
  · next ready =>
    simp only [State.feed, ready]
    exact meets_dispatch _ line c
  · next owner segments last under =>
    simp only [State.feed, under]
    exact .after (gives_enter _ line c) (meets_takeCode _ owner segments List.suffix_rfl line)
  · next tag close under =>
    have closing : IsClosing (some close) := by
      rintro _ ⟨⟩
      exact rests.bracket tag close under
    simp only [State.feed, under]
    exact .after (gives_enter _ line c) (meets_takeAttributes _ tag (.refl line) closing)
  · next block under => exact meets_takeBelow line c under
  · next under => exact meets_takeRemark line c under

theorem Meets.widen {m : Scan State} {expected : Except Halt State} {narrow wide : Nat}
    (h : Meets word narrow m c expected) (le : narrow ≤ wide) : Meets word wide m c expected := by
  obtain ⟨r, given, same, rests⟩ := h
  have further (holds : Holds word wide) : Holds word narrow := fun n inside =>
    holds n (inside.trans le)
  exact ⟨r, given.mono fun n within holds => (within (further holds)).trans le,
    fun holds => same (further holds), rests⟩

/-- Any number of lines. -/
theorem meets_foldlM (word : Nat → Nat) {lines : List Line} {bound : Nat}
    (inside : ∀ line ∈ lines, extent settings.tabSize line ≤ bound) (rests : s.Rests c) :
    Meets word bound (lines.foldlM (feed word settings) s) c
      (lines.foldlM (State.feed settings) s) := by
  induction lines generalizing s c with
  | nil => exact meets_pure rests
  | cons line lines ih =>
    obtain ⟨here, below⟩ := List.forall_mem_cons.1 inside
    rw [List.foldlM_cons, List.foldlM_cons]
    have first : MeetsLine word settings line (feed word settings s line) c
        (s.feed settings line) := meets_feed line rests
    obtain ⟨r, given, same, onward⟩ := first.widen here
    cases r with
    | error halt =>
      refine ⟨_, given.bind_error, fun holds => ?_, fun _ _ h => nomatch h⟩
      rw [← same holds]
      rfl
    | ok result =>
      obtain ⟨t, d⟩ := result
      refine (Meets.after given (ih below (onward t d rfl))).congr fun holds => ?_
      rw [← same holds]
      rfl

theorem gives_finish (limit : Nat → Prop) (rests : s.Rests c) :
    Gives limit (finish s) c (s.finish.map fun b => (b, c)) := by
  cases under : s.phase with
  | code owner segments last =>
    obtain rfl := rests.code owner segments last under
    simp only [finish, State.finish, under]
    exact gives_refuse _ List.nil_suffix _ _ _
  | start | ready | attributes | text | remark =>
    simp only [finish, under]
    exact gives_answer _ _ _

/-- What is done to a template goes well, and it comes to the reading of its lines if a machine word
holds every number up to some bound that no line goes beyond. -/
theorem exists_readLines {lines : List Line} {bound : Nat} (word : Nat → Nat)
    (inside : ∀ line ∈ lines, extent settings.tabSize line ≤ bound) (c : Cursor) :
    ∃ r, Gives (Within word bound) (readLines word settings lines) c r ∧
      (Holds word bound → r.map Prod.fst = TemplateMarkup.readLines settings lines) := by
  obtain ⟨r, given, same, onward⟩ :=
    meets_foldlM word inside (State.rests_of_complete (s := {}) rfl c)
  unfold TemplateMarkup.readLines
  cases r with
  | error halt =>
    refine ⟨_, given.bind_error, fun holds => ?_⟩
    rw [← same holds]
    rfl
  | ok result =>
    obtain ⟨s, d⟩ := result
    refine ⟨_, given.bind (gives_finish _ (onward s d rfl)), fun holds => ?_⟩
    rw [← same holds]
    change _ = s.finish
    cases s.finish <;> rfl

end Scan

theorem scanTemplate_sound {source : String} {bound : Nat} (word : Nat → Nat)
    (inside : ∀ line ∈ linesOf source.toList, extent settings.tabSize line ≤ bound) :
    (∀ touch ∈ (scanTemplate word settings source).touches, touch.Sound (Within word bound)) ∧
      (scanTemplate word settings source).result.isSome = true ∧
      (Holds word bound → (scanTemplate word settings source).reading =
        some (readLines settings (linesOf source.toList))) := by
  obtain ⟨r, given, same⟩ := Scan.exists_readLines word inside {}
  have result : (scanTemplate word settings source).result = some r := given.result
  refine ⟨given.sound, by rw [result]; rfl, fun holds => ?_⟩
  rw [Trace.reading, result, ← same holds]
  rfl

end TemplateMarkup
