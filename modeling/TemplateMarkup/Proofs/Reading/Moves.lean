import TemplateMarkup.Proofs.Builder.Acts
import TemplateMarkup.Proofs.Reading.Dispatch

/-! A reading changes its tree by moves alone: whatever a line is taken for, nothing else happens
to the open blocks, and the log of a failed reading is that of the tree it had reached. -/
namespace TemplateMarkup
open Builder

/-- Whether a construct is under way that has not yet opened its block. -/
def Phase.isMidway : Phase → Bool
  | .code .. | .attributes .. => true
  | _ => false

theorem Phase.complete_of_free {phase : Phase} (free : phase.isFree = true) :
    phase.isMidway = false := by
  cases phase <;> first | rfl | cases free

namespace State

/-- Code and attribute lists go on only where no block awaits its width. -/
def Steady (s : State) : Prop := s.phase.isMidway = true → s.builder.awaiting = none

theorem steady_of_complete {s : State} (complete : s.phase.isMidway = false) : s.Steady := by
  intro midway
  rw [complete] at midway
  cases midway

/-- What taking a line can come to: a state whose tree has been changed in some way, or a fault
and a log that such a tree may leave. -/
inductive Outcome (R : Builder → Builder → Prop) (s : State) : Except Halt State → Prop
  | ok {t : State} (moves : R s.builder t.builder) (number : t.number = s.number)
      (steady : t.Steady) : Outcome R s (.ok t)
  | error {halt : Halt} {c : Builder} (moves : R s.builder c) (log : c.Tells halt.log) :
      Outcome R s (.error halt)

/-- What a line comes to after something else was done to the tree. -/
theorem Outcome.after {R Q : Builder → Builder → Prop} {s t : State} {r : Except Halt State}
    (h : Outcome R t r) (number : t.number = s.number)
    (join : ∀ c, R t.builder c → Q s.builder c) : Outcome Q s r := by
  cases h with
  | ok moves same steady => exact .ok (join _ moves) (same.trans number) steady
  | error moves log => exact .error (join _ moves) log

section Fills

variable {s : State}

theorem outcome_halt (s : State) (cause : Cause) (line : Line) (rest : List Char) :
    Outcome Fills s (s.halt cause line rest) :=
  .error .refl .whole

theorem outcome_takeCode (idle : s.builder.awaiting = none) (owner : CodeOwner)
    (segments : List (List Char)) (line : Line) (cs : List Char) :
    Outcome Fills s (.ok (s.takeCode owner segments line cs)) := by
  unfold takeCode
  simp only
  split
  · exact .ok .refl rfl fun _ => idle
  · exact .ok (fills_begin_breakLine idle _) rfl (steady_of_complete rfl)

theorem outcome_takeTail (idle : s.builder.awaiting = none) (tab : Nat) (tag : TagHead)
    (line : Line) (tail : Tail) : Outcome Fills s (.ok (s.takeTail tab tag line tail)) := by
  cases tail with
  | output mark cs => exact outcome_takeCode idle _ _ _ _
  | void => exact .ok (fills_place_breakLine _ (.voidTag _ _)) rfl (steady_of_complete rfl)
  | block => exact .ok (fills_begin_breakLine idle _) rfl (steady_of_complete rfl)
  | text inline => exact .ok (.single (.begin _ _ idle)) rfl (steady_of_complete rfl)

theorem outcome_takeAttributes (idle : s.builder.awaiting = none) (tab : Nat) (tag : TagHead)
    (close : Option Char) (line : Line) (cs : List Char) :
    Outcome Fills s (s.takeAttributes tab tag close line cs) := by
  unfold takeAttributes
  split
  · exact outcome_halt s _ _ _
  · simp only
    split
    · exact outcome_halt s _ _ _
    · exact .ok (.single (.place _ _ .newline)) rfl fun _ => awaiting_place_eq_none idle _
    · split
      · exact outcome_halt s _ _ _
      · exact outcome_takeTail idle _ _ _ _

theorem outcome_takeTag (idle : s.builder.awaiting = none) (tab : Nat) (name : String)
    (line : Line) (cs : List Char) : Outcome Fills s (s.takeTag tab name line cs) := by
  obtain ⟨close, inner, -, taken⟩ := takeTag_eq tab name line cs
  rw [taken]
  exact outcome_takeAttributes idle tab _ close line inner

theorem fills_separate (s : State) : Fills s.builder s.separate.builder := by
  unfold separate
  split
  · exact .single (.place _ _ (.static _))
  · exact .refl

@[simp] theorem number_separate (s : State) : s.separate.number = s.number := by
  unfold separate
  split <;> rfl

theorem awaiting_separate (idle : s.builder.awaiting = none) :
    s.separate.builder.awaiting = none := by
  unfold separate
  split
  · exact awaiting_place_eq_none idle _
  · exact idle

theorem outcome_takeHead (idle : s.builder.awaiting = none) (settings : Settings) (line : Line)
    (head : Head) : Outcome Fills s (takeHead settings s line head) := by
  cases head with
  | control cs => exact outcome_takeCode idle _ _ _ _
  | output mark cs => exact outcome_takeCode idle _ _ _ _
  | embedded engine =>
    refine .ok ?_ rfl (steady_of_complete rfl)
    exact (Relation.ReflTransGen.single (.place _ _ .newline)).tail
      (.begin _ _ (awaiting_place_eq_none idle _))
  | comment spaced cs => exact .ok (.single (.begin _ _ idle)) rfl (steady_of_complete rfl)
  | tag name cs =>
    have taken := outcome_takeTag (awaiting_separate idle) settings.tabSize
      ((name.map String.ofList).getD settings.defaultTag) line cs
    exact taken.after (number_separate s) fun _ => (fills_separate s).trans
  | conditional condition => exact .ok (fills_begin_breakLine idle _) rfl (steady_of_complete rfl)
  | remark => exact .ok (.single (.place _ _ .newline)) rfl (steady_of_complete rfl)
  | doctype value => exact .ok (fills_place_breakLine _ (.doctype _)) rfl (steady_of_complete rfl)
  | text glued cs =>
    cases glued
    · exact .ok (fills_separate s) (number_separate s) (steady_of_complete rfl)
    · exact .ok .refl rfl (steady_of_complete rfl)
  | unknown rest => exact outcome_halt s _ _ _

theorem fills_settle (s : State) (block : TextBlock) : Fills s.builder (s.settle block).builder := by
  unfold settle
  simp only
  split
  · exact fills_placeBreaks _ _
  · exact .head (.place _ _ (.interpolate _)) (fills_placeBreaks _ _)

theorem gap_settle (s : State) (block : TextBlock) : (s.settle block).gap = s.gap := by
  unfold settle
  simp only
  split <;> rfl

end Fills

theorem outcome_dispatch (settings : Settings) (s : State) (line : Line) :
    Outcome Acts s (s.dispatch settings line) := by
  cases blank : isBlank line with
  | true =>
    rw [dispatch_blank blank]
    exact .ok (.single (.fill (.place _ _ .newline))) rfl (steady_of_complete rfl)
  | false =>
    cases fit : s.builder.align (indentWidth settings.tabSize line) with
    | error misfit =>
      rw [dispatch_misfit blank fit]
      exact .error .refl (tells_align_error fit)
    | ok result =>
      obtain ⟨builder, moved⟩ := result
      rw [dispatch_fit blank fit]
      have idle : builder.awaiting = none := awaiting_align fit
      have act := Act.dispatch _ fit s.number (trimLeft line)
      have taken := outcome_takeHead (s := s.fitted settings line builder moved) idle settings line
        (Head.read (trimLeft line))
      exact taken.after rfl fun _ fills => .head act fills.acts

theorem outcome_takeFirst (settings : Settings) (s : State) (line : Line) (steady : s.Steady) :
    Outcome Acts s (s.takeFirst settings line) := by
  unfold takeFirst
  split
  · exact .ok (.single (.fill (.place _ _ .newline))) rfl
      fun h => awaiting_place_eq_none (steady h) _
  · split
    · exact outcome_dispatch _ _ _
    · split
      · exact .ok (fills_place_breakLine _ (.doctype _)).acts rfl (steady_of_complete rfl)
      · exact .error .refl .whole

/-- One line acts on the tree, and if it is refused the log is one that the tree it had reached may
leave. -/
theorem outcome_feed (settings : Settings) {s : State} (steady : s.Steady) (line : Line) :
    Outcome Acts { s with number := s.number + 1 } (s.feed settings line) := by
  unfold feed
  simp only
  split
  · exact outcome_takeFirst settings { s with number := s.number + 1 } line steady
  · exact outcome_dispatch settings { s with number := s.number + 1 } line
  · next h =>
    have idle := steady (by rw [h]; rfl)
    have taken := outcome_takeCode (s := { s with number := s.number + 1 }) idle
    exact (taken _ _ _ _).after rfl fun _ => Fills.acts
  · next h =>
    have idle := steady (by rw [h]; rfl)
    have taken := outcome_takeAttributes (s := { s with number := s.number + 1 }) idle
    exact (taken _ _ _ _ _).after rfl fun _ => Fills.acts
  · next block h =>
    split
    · split
      · exact .ok .refl rfl (steady_of_complete rfl)
      · exact .error .refl .whole
    · have settled := (fills_settle { s with number := s.number + 1 } block).acts
      have dispatched := outcome_dispatch settings
        ({ s with number := s.number + 1 }.settle block) line
      exact dispatched.after (number_settle _ _) fun _ => settled.trans
  · split
    · next h _ =>
      refine .ok (.single (.fill (.place _ _ .newline))) rfl ?_
      intro hm
      simp [breakLine, place, h, Phase.isMidway] at hm
    · have dispatched := outcome_dispatch settings
        { s with number := s.number + 1, phase := .ready } line
      exact dispatched.after rfl fun _ => id

/-- So do any number of lines. -/
theorem acts_foldlM (settings : Settings) (lines : List Line) {s : State} (steady : s.Steady) :
    Outcome Acts { s with number := s.number + lines.length } (lines.foldlM (feed settings) s) := by
  induction lines generalizing s with
  | nil => exact .ok .refl rfl steady
  | cons line lines ih =>
    rw [List.foldlM_cons]
    have step := outcome_feed settings steady line
    cases h : feed settings s line with
    | error halt =>
      rw [h] at step
      cases step with
      | error moves log => exact .error moves log
    | ok t =>
      rw [h] at step
      cases step with
      | ok moves number steady =>
        have total : t.number + lines.length = s.number + (line :: lines).length := by
          simp only [number, List.length_cons]
          omega
        exact (ih steady).after total fun _ => moves.trans

theorem outcome_foldlM (settings : Settings) (lines : List Line) {s : State} (steady : s.Steady) :
    Outcome Moves { s with number := s.number + lines.length } (lines.foldlM (feed settings) s) :=
  (acts_foldlM settings lines steady).after rfl fun _ => Acts.moves

/-- What a line that belongs to nothing before it finds has been filled by what ended there. -/
theorem fills_beforeDispatch {settings : Settings} {s t : State} {line : Line}
    (h : s.beforeDispatch? settings line = some t) :
    Fills s.builder t.builder ∧ t.number = s.number ∧ t.gap = s.gap ∧ s.phase.isMidway = false := by
  obtain ⟨free, phase, rfl⟩ | ⟨block, under, -, rfl⟩ := beforeDispatch_cases h
  · exact ⟨.refl, rfl, rfl, Phase.complete_of_free free⟩
  · exact ⟨fills_settle s block, number_settle s block, gap_settle s block, by rw [under]; rfl⟩

/-- What every line keeps that is taken, the lines up to any moment of a reading keep. `P` tells of
the lines still to come and of the state. -/
theorem run_induction {settings : Settings} {P : List Line → State → Prop}
    (keep : ∀ {line more s t}, s.Steady → P (line :: more) s → Step settings line s t → P more t)
    {before more : List Line} {s t : State} (steady : s.Steady) (start : P (before ++ more) s)
    (ht : before.foldlM (feed settings) s = .ok t) : P more t := by
  induction before generalizing s with
  | nil =>
    cases ht
    exact start
  | cons line before ih =>
    rw [List.foldlM_cons] at ht
    have step := outcome_feed settings steady line
    cases hu : s.feed settings line with
    | error halt =>
      rw [hu] at ht
      cases ht
    | ok u =>
      rw [hu] at ht step
      cases step with
      | ok _ _ onward => exact ih onward (keep steady start (step_of_feed hu)) ht

/-- The same for what is told of the state alone, where no line holds a line break. -/
theorem run_induction_unbroken {settings : Settings} {P : State → Prop}
    (keep : ∀ {line s t}, '\n' ∉ line → P s → Step settings line s t → P t) {lines : List Line}
    (unbroken : ∀ line ∈ lines, '\n' ∉ line) {s t : State} (steady : s.Steady) (start : P s)
    (ht : lines.foldlM (feed settings) s = .ok t) : P t := by
  rw [← List.append_nil lines] at unbroken
  have run : (∀ line ∈ ([] : List Line), '\n' ∉ line) ∧ P t := by
    refine run_induction (P := fun more s => (∀ line ∈ more, '\n' ∉ line) ∧ P s) ?_ steady
      ⟨unbroken, start⟩ ht
    intro line more s t _ ⟨clean, kept⟩ step
    obtain ⟨here, onward⟩ := List.forall_mem_cons.1 clean
    exact ⟨onward, keep here kept step⟩
  exact run.2

theorem number_foldlM {settings : Settings} {lines : List Line} {s t : State} (steady : s.Steady)
    (ht : lines.foldlM (feed settings) s = .ok t) : t.number = s.number + lines.length := by
  have run := outcome_foldlM settings lines steady
  rw [ht] at run
  cases run with
  | ok _ number _ => exact number

theorem steady_start : ({} : State).Steady := steady_of_complete rfl

theorem steady_foldlM {settings : Settings} {lines : List Line} {t : State}
    (ht : lines.foldlM (feed settings) {} = .ok t) : t.Steady := by
  have run := acts_foldlM settings lines steady_start
  rw [ht] at run
  cases run with
  | ok _ _ steady => exact steady

/-- The end of a template fills the innermost block with what is due and ends every block. -/
theorem fills_finish {s : State} {b : Builder} (h : s.finish = .ok b) :
    ∃ c, Fills s.builder c ∧ b = c.closeAll := by
  obtain ⟨-, rfl⟩ | ⟨block, -, rfl⟩ := finish_cases h
  · exact ⟨_, .refl, rfl⟩
  · exact ⟨_, fills_settle s block, rfl⟩

theorem log_finish_error {s : State} {halt : Halt} (h : s.finish = .error halt) :
    halt.log = s.builder.log := by
  unfold finish at h
  split at h
  all_goals first | cases h; rfl | cases h

end State

/-- A reading that succeeds ends all blocks of a tree that acts have built. -/
theorem readLines_acts {settings : Settings} {lines : List Line} {b : Builder}
    (h : readLines settings lines = .ok b) : ∃ c, Acts {} c ∧ b = c.closeAll := by
  obtain ⟨s, hs, hb⟩ := run_of_readLines h
  have run := State.acts_foldlM settings lines State.steady_start
  rw [hs] at run
  cases run with
  | ok acts number steady =>
    obtain ⟨c, fills, rfl⟩ := State.fills_finish hb
    exact ⟨c, acts.trans fills.acts, rfl⟩

theorem readLines_ok {settings : Settings} {lines : List Line} {b : Builder}
    (h : readLines settings lines = .ok b) : ∃ c, Moves {} c ∧ b = c.closeAll := by
  obtain ⟨c, acts, rfl⟩ := readLines_acts h
  exact ⟨c, acts.moves, rfl⟩

/-- One that fails leaves a log that such a tree may leave. -/
theorem readLines_error {settings : Settings} {lines : List Line} {halt : Halt}
    (h : readLines settings lines = .error halt) : ∃ c, Acts {} c ∧ c.Tells halt.log := by
  have run := State.acts_foldlM settings lines State.steady_start
  unfold readLines at h
  cases hs : lines.foldlM (State.feed settings) {} with
  | error failed =>
    simp only [hs, bind, Except.bind] at h
    cases h
    rw [hs] at run
    cases run with
    | error acts log => exact ⟨_, acts, log⟩
  | ok s =>
    simp only [hs, bind, Except.bind] at h
    rw [hs] at run
    cases run with
    | ok acts number steady =>
      rw [State.log_finish_error h]
      exact ⟨_, acts, .whole⟩

/-- However a reading ends, its log is one that a tree may leave that acts have built. -/
theorem readTemplate_tells (settings : Settings) (source : String) :
    ∃ c log, Acts {} c ∧ c.Tells log ∧ (readTemplate settings source).log = log.reverse := by
  unfold readTemplate
  cases h : readLines settings (linesOf source.toList) with
  | ok b =>
    obtain ⟨c, acts, rfl⟩ := readLines_acts h
    exact ⟨c, _, acts, tells_closeAll c, rfl⟩
  | error halt =>
    obtain ⟨c, acts, tells⟩ := readLines_error h
    exact ⟨c, _, acts, tells, rfl⟩

end TemplateMarkup
