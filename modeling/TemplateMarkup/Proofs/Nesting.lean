import TemplateMarkup.Proofs.Builder.Stack
import TemplateMarkup.Proofs.Chronicle
import TemplateMarkup.Proofs.Reading.Gap

/-! The nesting of blocks while a template is read. Whatever the template, the stacks of widths and
of blocks stay sound, no assertion about them fails, and a line that is dispatched opens one block
at most. -/
namespace TemplateMarkup
open Builder

/-- How many blocks were opened since a line was dispatched last. The log is held newest first. -/
def recentOpenings (log : List Event) : Nat := openings (log.takeWhile (·.dispatched?.isNone))

theorem recentOpenings_placed (node : Node) (log : List Event) :
    recentOpenings (.placed node :: log) = recentOpenings log := by
  simp [recentOpenings, Event.dispatched?, openings, Event.isOpened]

theorem recentOpenings_opened (owner : Owner) (depth : Nat) (log : List Event) :
    recentOpenings (.opened owner depth :: log) = recentOpenings log + 1 := by
  simp [recentOpenings, Event.dispatched?, openings_opened]

theorem recentOpenings_closed (depth : Nat) (log : List Event) :
    recentOpenings (.closed depth :: log) = recentOpenings log := by
  simp [recentOpenings, Event.dispatched?, openings_closed]

theorem recentOpenings_dispatched (number width : Nat) (text : List Char) (log : List Event) :
    recentOpenings (.dispatched number width text :: log) = 0 := by
  simp [recentOpenings, Event.dispatched?, openings]

namespace Builder

variable {b c : Builder}

/-- At no time was more than one block opened since a line was dispatched last. -/
def Paced (b : Builder) : Prop := ∀ log, log <:+ b.log → recentOpenings log ≤ 1

/-- A block awaits its width just if one was opened since a line was dispatched last. -/
structure Poised (b : Builder) : Prop where
  paced : b.Paced
  now : recentOpenings b.log = if b.awaiting.isSome then 1 else 0

theorem paced_cons {event : Event} (paced : b.Paced) (hlog : c.log = event :: b.log)
    (now : recentOpenings c.log ≤ 1) : c.Paced := by
  intro log suffix
  rw [hlog, List.suffix_cons_iff] at suffix
  obtain rfl | suffix := suffix
  · rw [← hlog]
    exact now
  · exact paced log suffix

theorem paced_closed {depth : Nat} (paced : b.Paced) (hlog : c.log = .closed depth :: b.log) :
    c.Paced := by
  refine paced_cons paced hlog ?_
  rw [hlog, recentOpenings_closed]
  exact paced _ List.suffix_rfl

theorem paced_shut (paced : b.Paced) (n : Nat) : (b.shut n).Paced :=
  shut_invariant (fun pending paced => paced_closed paced (log_closeAwaiting pending))
    (fun _ top paced => paced_closed paced (log_closeLevel top)) paced n

theorem paced_align {width : Nat} {moved : Bool} (fit : b.align width = .ok (c, moved))
    (paced : b.Paced) : c.Paced := by
  obtain ⟨block, -, -, -, rfl⟩ | ⟨-, rfl, -, -⟩ := align_cases fit
  · exact paced
  · exact paced_shut paced _

theorem isSome_awaiting_place (b : Builder) (node : Node) :
    (b.place node).awaiting.isSome = b.awaiting.isSome := by
  unfold place add
  split <;> simp_all

theorem poised_of_act (act : Act b c) (poised : b.Poised) : c.Poised := by
  have now := poised.now
  cases act with
  | fill fill =>
    cases fill with
    | place node leaf =>
      have same : recentOpenings (b.place node).log = recentOpenings b.log := by
        rw [log_place, recentOpenings_placed]
      refine ⟨paced_cons poised.paced (log_place b node) ?_, ?_⟩
      · rw [same]
        exact poised.paced _ List.suffix_rfl
      · rw [same, isSome_awaiting_place, now]
    | begin owner idle =>
      -- None awaits, so none was opened since the last line.
      have one : recentOpenings (b.begin owner).log = 1 := by
        rw [log_begin, recentOpenings_opened, now, idle]
        rfl
      exact ⟨paced_cons poised.paced (log_begin b owner) (Nat.le_of_eq one), one⟩
  | @dispatch d moved width fit number text =>
    have none_ : recentOpenings (d.record (.dispatched number width text)).log = 0 :=
      recentOpenings_dispatched number width text d.log
    refine ⟨paced_cons (paced_align fit poised.paced) rfl (by omega), ?_⟩
    rw [none_, awaiting_record, awaiting_align fit]
    rfl

theorem poised_start : Poised {} := by
  refine ⟨?_, rfl⟩
  intro log suffix
  rw [List.suffix_nil.1 suffix]
  exact Nat.zero_le 1

theorem Tells.paced {log : List Event} (acts : Acts {} b) (tells : b.Tells log) :
    ∀ recent, recent <:+ log → recentOpenings recent ≤ 1 := by
  have poised : b.Poised := acts.invariant poised_of_act poised_start
  cases tells with
  | whole => exact poised.paced
  | shut n => exact paced_shut poised.paced n

end Builder

theorem openings_le_recentOpenings {during : List Event} (before : List Event)
    (undispatched : ∀ event ∈ during, event.dispatched? = none) :
    openings during ≤ recentOpenings (during.reverse ++ before.reverse) := by
  have all : ∀ event ∈ during.reverse, event.dispatched?.isNone = true := by
    simpa using undispatched
  rw [recentOpenings, List.takeWhile_append_of_pos all, openings, openings, List.countP_append,
    List.countP_reverse]
  exact Nat.le_add_right _ _

/-- The nesting of blocks is sound throughout. Replayed on the stacks, the log of a reading, however
it ends, fails no assertion; after every event the stacks are sound, and where a line is dispatched
every block has a width and the innermost one that of the line. The tree under construction has just
these blocks open. And between two lines that are dispatched one block at most is opened. -/
theorem nesting_sound (settings : Settings) (source : String) :
    (∀ before after, (readTemplate settings source).log = before ++ after →
      ∃ stack, Stack.replay before = some stack ∧ stack.Sound ∧
        ∀ number width text, before.getLast? = some (.dispatched number width text) →
          stack.width = width ∧ stack.blocks.length = stack.indents.length) ∧
    (∀ before after s, linesOf source.toList = before ++ after →
      before.foldlM (State.feed settings) {} = .ok s →
      Stack.replay s.builder.log.reverse = some s.builder.stack ∧ s.builder.stack.Sound) ∧
    ∀ before during after, (readTemplate settings source).log = before ++ during ++ after →
      (∀ event ∈ during, event.dispatched? = none) → openings during ≤ 1 := by
  obtain ⟨c, log, acts, tells, same⟩ := readTemplate_tells settings source
  refine ⟨?_, ?_, ?_⟩
  · intro before after hlog
    obtain ⟨whole, hwhole⟩ := tells.replay acts
    rw [← same, hlog] at hwhole
    obtain ⟨stack, hstack⟩ := Stack.replay_prefix hwhole
    refine ⟨stack, hstack, Stack.sound_replay hstack, ?_⟩
    intro number width text last
    obtain ⟨front, rfl⟩ := List.getLast?_eq_some_iff.1 last
    rw [Stack.replay_concat] at hstack
    obtain ⟨r, hr, met⟩ := Option.bind_eq_some_iff.1 hstack
    exact ((Stack.sound_replay hr).meet met).2
  · intro before after s hlines hs
    have run := State.acts_foldlM settings before State.steady_start
    rw [hs] at run
    cases run with
    | ok acts number steady =>
      have replayed := replayed_of_acts acts
      exact ⟨replayed, Stack.sound_replay replayed⟩
  · intro before during after hlog undispatched
    have newest : log = after.reverse ++ (during.reverse ++ before.reverse) := by
      rw [← List.reverse_reverse log, ← same, hlog]
      simp
    have recent := tells.paced acts (during.reverse ++ before.reverse) ⟨after.reverse, newest.symm⟩
    exact Nat.le_trans (openings_le_recentOpenings before undispatched) recent

/-- The last line ends two blocks before it opens its own. -/
theorem nesting_sound_dedent :
    (∃ stack, Stack.replay ((readTemplate {} "- a\n  = y\n    x\n- b").log.take 12) = some stack ∧
      stack.Sound ∧ stack.width = 0 ∧ stack.blocks.length = stack.indents.length) ∧
    (∃ s, ["- a".toList, "  = y".toList, "    x".toList].foldlM (State.feed {}) {} = .ok s ∧
      Stack.replay s.builder.log.reverse = some s.builder.stack ∧ s.builder.stack.Sound) ∧
    openings [.opened (.control "b") 2, .placed .newline, .closed 1] ≤ 1 := by
  have log : (readTemplate {} "- a\n  = y\n    x\n- b").log =
      [.dispatched 1 0 "- a".toList, .opened (.control "a") 2, .placed .newline,
        .dispatched 2 2 "= y".toList, .opened (.output true "y") 3, .placed .newline,
        .dispatched 3 4 "x".toList, .placed (.interpolate "x"), .placed .newline, .closed 2,
        .closed 1, .dispatched 4 0 "- b".toList] ++
      [.opened (.control "b") 2, .placed .newline, .closed 1] := rfl
  have lines : linesOf "- a\n  = y\n    x\n- b".toList =
      ["- a".toList, "  = y".toList, "    x".toList] ++ ["- b".toList] := by decide
  have main := nesting_sound {} "- a\n  = y\n    x\n- b"
  refine ⟨?_, ⟨_, rfl, main.2.1 _ _ _ lines rfl⟩, ?_⟩
  · obtain ⟨stack, replayed, sound, met⟩ := main.1 _ _ log
    rw [log]
    exact ⟨stack, replayed, sound, met 4 0 "- b".toList rfl⟩
  · refine main.2.2 _ _ [] (log.trans (List.append_nil _).symm) ?_
    simp [Event.dispatched?]

end TemplateMarkup
