import TemplateMarkup.Proofs.Chronicle

/-! What a moment of a reading has put into the tree is the front of the walk through the tree that
the reading comes to. Code that is under way is what comes next on that walk. -/
namespace TemplateMarkup
open Builder

namespace State

variable {settings : Settings} {s : State} {line : Line} {lines : List Line} {b : Builder}
  {owner : CodeOwner} {segments : List (List Char)} {cs : List Char}

theorem script_prefix_finish (steady : s.Steady)
    (read : lines.foldlM (feed settings) s >>= finish = .ok b) :
    s.builder.script <+: b.tree.walk := by
  have run := outcome_foldlM settings lines steady
  cases hs : lines.foldlM (feed settings) s with
  | error halt =>
    rw [hs] at read
    cases read
  | ok t =>
    rw [hs] at read run
    obtain ⟨c, fills, rfl⟩ := fills_finish read
    cases run with
    | ok moves number onward =>
      rw [← script_closeAll]
      exact script_prefix_of_moves ((moves.trans fills.moves).trans (moves_closeAll c))

/-- A block that is open stays where it was opened. -/
theorem script_prefix_begin {t : State} {owner : Owner} (idle : s.builder.awaiting = none)
    (opened : (s.builder.begin owner).script <+: t.builder.script) (steady : t.Steady)
    (read : lines.foldlM (feed settings) t >>= finish = .ok b) :
    s.builder.script ++ [.enter owner] <+: b.tree.walk := by
  rw [← script_begin idle]
  exact opened.trans (script_prefix_finish steady read)

theorem script_prefix_breakLine (b : Builder) : b.script <+: (b.place .newline).script :=
  script_prefix_of_move (.place b .newline .newline)

theorem script_prefix_openCode (idle : s.builder.awaiting = none)
    (ended : continues (trim cs) = false)
    (read : lines.foldlM (feed settings) (s.takeCode owner segments line cs) >>= finish = .ok b) :
    ∃ code, s.builder.script ++ [.enter (owner.withCode code)] <+: b.tree.walk := by
  refine ⟨joinCode (trim cs :: segments), ?_⟩
  simp only [takeCode, ended, Bool.false_eq_true, if_false] at read
  exact script_prefix_begin idle (script_prefix_breakLine _) (steady_of_complete rfl) read

/-- Code enters its block when it is complete, and nothing comes before that. -/
theorem script_prefix_takeCode (idle : s.builder.awaiting = none)
    (read : lines.foldlM (feed settings) (s.takeCode owner segments line cs) >>= finish = .ok b) :
    ∃ code, s.builder.script ++ [.enter (owner.withCode code)] <+: b.tree.walk := by
  induction lines generalizing s segments line cs with
  | nil =>
    cases onward : continues (trim cs) with
    | false => exact script_prefix_openCode idle onward read
    | true =>
      simp only [takeCode, onward, if_true] at read
      cases read
  | cons next lines ih =>
    cases onward : continues (trim cs) with
    | false => exact script_prefix_openCode idle onward read
    | true =>
      simp only [takeCode, onward, if_true] at read
      exact ih (s := { s with number := s.number + 1, phase := _ }) idle read

end State

end TemplateMarkup
