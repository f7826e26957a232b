import TemplateMarkup.Proofs.Builder.Align

/-! What a reading asks of the tree under construction: to fill the innermost block, and to be
fitted to a line that is then dispatched. Blocks are ended by the fitting alone, and once more when
the reading is over. -/
namespace TemplateMarkup
namespace Builder

inductive Act : Builder → Builder → Prop
  | fill {b c} (fill : Fill b c) : Act b c
  | dispatch {b c : Builder} {moved : Bool} (width : Nat) (fit : b.align width = .ok (c, moved))
      (number : Nat) (text : List Char) : Act b (c.record (.dispatched number width text))

/-- Any number of acts. -/
abbrev Acts : Builder → Builder → Prop := Relation.ReflTransGen Act

/-- Ends the block that awaits its width and so many of the levels around it. -/
def shut (n : Nat) (b : Builder) : Builder := closeLevels n b.closeAwaiting

/-- The logs that a reading may leave at some tree: its own, or that of the tree after blocks of it
have been ended. -/
inductive Tells (b : Builder) : List Event → Prop
  | whole : Tells b b.log
  | shut (n : Nat) : Tells b (b.shut n).log

theorem Act.moves {b c : Builder} (act : Act b c) : Moves b c := by
  cases act with
  | fill fill => exact .single fill.move
  | dispatch width fit number text => exact (moves_align fit).tail (.dispatch _ number width text)

theorem Acts.moves {b c : Builder} (acts : Acts b c) : Moves b c := by
  induction acts with
  | refl => exact .refl
  | tail _ act ih => exact ih.trans act.moves

theorem Fills.acts {b c : Builder} (fills : Fills b c) : Acts b c := by
  induction fills with
  | refl => exact .refl
  | tail _ fill ih => exact ih.tail (.fill fill)

/-- What every act keeps, any number of acts keeps. -/
theorem Acts.invariant {P : Builder → Prop} (keep : ∀ {b c}, Act b c → P b → P c) {b c : Builder}
    (acts : Acts b c) (start : P b) : P c := by
  induction acts with
  | refl => exact start
  | tail _ act ih => exact keep act ih

theorem moves_shut (b : Builder) (n : Nat) : Moves b (b.shut n) :=
  (moves_closeAwaiting b).trans (moves_closeLevels (awaiting_closeAwaiting b) n)

/-- What ending one block keeps, ending several keeps. -/
theorem shut_invariant {P : Builder → Prop}
    (awaiting : ∀ {b block}, b.awaiting = some block → P b → P b.closeAwaiting)
    (level : ∀ {b level levels}, b.awaiting = none → b.levels = level :: levels → P b →
      P b.closeLevel) {b : Builder} (start : P b) (n : Nat) : P (b.shut n) := by
  have closed : P b.closeAwaiting := by
    cases pending : b.awaiting with
    | none => rwa [closeAwaiting_of_none pending]
    | some block => exact awaiting pending start
  have idle := awaiting_closeAwaiting b
  unfold shut
  generalize b.closeAwaiting = c at closed idle
  induction n generalizing c with
  | zero => exact closed
  | succ n ih =>
    refine ih _ ?_ (awaiting_closeLevel idle)
    cases top : c.levels with
    | nil => rwa [closeLevel, top]
    | cons inner levels => exact level idle top closed

theorem Tells.moves {b : Builder} {log : List Event} (tells : b.Tells log) :
    ∃ c, Moves b c ∧ log = c.log := by
  cases tells with
  | whole => exact ⟨b, .refl, rfl⟩
  | shut n => exact ⟨b.shut n, moves_shut b n, rfl⟩

theorem tells_align_error {b : Builder} {width : Nat} {misfit : Misfit}
    (h : b.align width = .error misfit) : b.Tells misfit.log := by
  obtain rfl | rfl := align_error h
  · exact .whole
  · exact .shut _

theorem tells_closeAll (b : Builder) : b.Tells b.closeAll.log := .shut b.levels.length

end Builder

end TemplateMarkup
