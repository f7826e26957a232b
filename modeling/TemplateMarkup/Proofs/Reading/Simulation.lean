import TemplateMarkup.Proofs.Builder.Congruence
import TemplateMarkup.Proofs.Reading.Moves

/-! Two readings that take the same lines, of which the second has read `k` lines more before. If a
congruence relates their trees, it goes on to relate them, and the faults are the same. -/
namespace TemplateMarkup
open Builder

/-- The same fault, `k` lines further down. -/
def Fault.later (k : Nat) (fault : Fault) : Fault := { fault with number := fault.number + k }

def TagHead.later (k : Nat) (tag : TagHead) : TagHead := { tag with number := tag.number + k }

/-- A tag whose attribute list is open remembers the number of its line. -/
def Phase.later (k : Nat) : Phase → Phase
  | .attributes tag close => .attributes (tag.later k) close
  | phase => phase

theorem Phase.later_zero (phase : Phase) : phase.later 0 = phase := by
  cases phase <;> rfl

/-- Whether a line of this kind is set apart from what stands before it. -/
def Head.isSpaced : Head → Bool
  | tag .. => true
  | text glued _ => !glued
  | _ => false

/-- Results that are related, or faults that are the same but for the number of their line. -/
inductive Agree {α : Type} (Q : α → α → Prop) (k : Nat) : Except Halt α → Except Halt α → Prop
  | ok {a b} (related : Q a b) : Agree Q k (.ok a) (.ok b)
  | error {h h' : Halt} (fault : h'.fault = h.fault.later k) : Agree Q k (.error h) (.error h')

theorem Agree.bind {α β : Type} {Q : α → α → Prop} {P : β → β → Prop} {k : Nat}
    {x y : Except Halt α} {f g : α → Except Halt β} (h : Agree Q k x y)
    (next : ∀ a b, Q a b → Agree P k (f a) (g b)) : Agree P k (x >>= f) (y >>= g) := by
  cases h with
  | ok related => exact next _ _ related
  | error fault => exact .error fault

theorem Agree.exists_ok {α : Type} {Q : α → α → Prop} {k : Nat} {a : α} {y : Except Halt α}
    (h : Agree Q k (.ok a) y) : ∃ b, y = .ok b ∧ Q a b := by
  cases h with
  | ok related => exact ⟨_, rfl, related⟩

namespace State

/-- The second reading stands where the first one does. What a construct that is still under way
leaves behind will replace the gap, so the gap does not matter until it is complete. -/
structure Alike (R : Builder → Builder → Prop) (k : Nat) (s t : State) : Prop where
  number : t.number = s.number + k
  builder : R s.builder t.builder
  phase : t.phase = s.phase.later k
  gap : s.phase.isMidway = false → t.gap = s.gap

/-- The state that holds the space a line is to be set apart by, if one is due. -/
def spacedFor (s : State) (head : Head) : State := if head.isSpaced then s.separate else s

section Congruence

variable {R : Builder → Builder → Prop} (kept : Congruence R) {k : Nat} {s t : State}
  (number : t.number = s.number + k)

theorem agree_halt {Q : State → State → Prop} (number : t.number = s.number + k) (cause : Cause)
    (line : Line) (rest : List Char) :
    Agree Q k (s.halt cause line rest) (t.halt cause line rest) := by
  refine .error ?_
  rw [number]
  rfl

include kept number

theorem alike_takeCode (builder : R s.builder t.builder) (owner : CodeOwner)
    (segments : List (List Char)) (line : Line) (cs : List Char) :
    Alike R k (s.takeCode owner segments line cs) (t.takeCode owner segments line cs) := by
  unfold takeCode
  simp only
  split
  · exact ⟨number, builder, rfl, fun complete => by cases complete⟩
  · exact ⟨number, kept.place (kept.begin builder _) _, rfl, fun _ => rfl⟩

theorem alike_takeTail (builder : R s.builder t.builder) (tab : Nat) (tag : TagHead) (line : Line)
    (tail : Tail) : Alike R k (s.takeTail tab tag line tail) (t.takeTail tab (tag.later k) line tail) := by
  cases tail with
  | output mark cs => exact alike_takeCode kept number builder _ _ _ _
  | void => exact ⟨number, kept.place (kept.place builder _) _, rfl, fun _ => rfl⟩
  | block => exact ⟨number, kept.place (kept.begin builder _) _, rfl, fun _ => rfl⟩
  | text inline => exact ⟨number, kept.begin builder _, rfl, fun _ => rfl⟩

theorem agree_takeAttributes (builder : R s.builder t.builder) (tab : Nat) (tag : TagHead)
    (close : Option Char) (line : Line) (cs : List Char) :
    Agree (Alike R k) k (s.takeAttributes tab tag close line cs)
      (t.takeAttributes tab (tag.later k) close line cs) := by
  unfold takeAttributes
  split
  · exact agree_halt number _ _ _
  · simp only
    split
    · exact agree_halt number _ _ _
    · exact .ok ⟨number, kept.place builder _, rfl, fun complete => by cases complete⟩
    · split
      · exact agree_halt number _ _ _
      · exact .ok (alike_takeTail kept number builder _ _ _ _)

theorem agree_takeTag (builder : R s.builder t.builder) (tab : Nat) (name : String) (line : Line)
    (cs : List Char) : Agree (Alike R k) k (s.takeTag tab name line cs) (t.takeTag tab name line cs) := by
  obtain ⟨close, inner, -, taken⟩ := takeTag_eq tab name line cs
  have tag : (⟨name, (readShortcuts cs).1, t.number, line⟩ : TagHead) =
      TagHead.later k ⟨name, (readShortcuts cs).1, s.number, line⟩ := by
    rw [number]
    rfl
  rw [taken s, taken t, tag]
  exact agree_takeAttributes kept number builder _ _ _ _ _

/-- A line is taken alike once the trees are related with the space that it is set apart by. -/
theorem agree_takeHead (settings : Settings) (line : Line) (head : Head)
    (builder : R (s.spacedFor head).builder (t.spacedFor head).builder) :
    Agree (Alike R k) k (takeHead settings s line head) (takeHead settings t line head) := by
  cases head with
  | control cs => exact .ok (alike_takeCode kept number builder _ _ _ _)
  | output mark cs => exact .ok (alike_takeCode kept number builder _ _ _ _)
  | embedded engine =>
    exact .ok ⟨number, kept.begin (kept.place builder _) _, rfl, fun _ => rfl⟩
  | comment spaced cs =>
    refine .ok ⟨number, kept.begin builder _, ?_, fun _ => rfl⟩
    have width : t.builder.width = s.builder.width := kept.width builder
    simp [takeText, begin, width, Phase.later]
  | tag name cs =>
    refine agree_takeTag (s := s.separate) (t := t.separate) kept ?_ builder _ _ _ _
    rw [number_separate, number_separate, number]
  | conditional condition =>
    exact .ok ⟨number, kept.place (kept.begin builder _) _, rfl, fun _ => rfl⟩
  | remark => exact .ok ⟨number, kept.place builder _, rfl, fun _ => rfl⟩
  | doctype value =>
    exact .ok ⟨number, kept.place (kept.place builder _) _, rfl, fun _ => rfl⟩
  | text glued cs =>
    cases glued with
    | true =>
      refine .ok ⟨number, builder, ?_, fun _ => rfl⟩
      have width : t.builder.width = s.builder.width := kept.width builder
      simp [takeText, width, Phase.later]
    | false =>
      refine .ok ⟨?_, builder, ?_, fun _ => rfl⟩
      · change t.separate.number = s.separate.number + k
        rw [number_separate, number_separate, number]
      · have width : t.separate.builder.width = s.separate.builder.width := kept.width builder
        simp [takeText, width, Phase.later]
  | unknown rest => exact agree_halt number _ _ _

/-- The gaps need only be the same where one of them is used: behind a line that is blank, and in
front of one that is spaced and leaves the innermost block as it is. -/
theorem agree_dispatch_of_gap (builder : R s.builder t.builder) (settings : Settings) (line : Line)
    (blank : isBlank line = true → t.gap = s.gap)
    (spaced : (Head.read (trimLeft line)).isSpaced = true → ∀ c moved,
      s.builder.align (indentWidth settings.tabSize line) = .ok (c, moved) →
        (t.gap && !moved) = (s.gap && !moved)) :
    Agree (Alike R k) k (s.dispatch settings line) (t.dispatch settings line) := by
  have fits := kept.align builder (indentWidth settings.tabSize line)
  unfold dispatch
  split
  · next empty => exact .ok ⟨number, kept.place builder _, rfl, fun _ => blank empty⟩
  · simp only
    generalize s.builder.align _ = fit at fits spaced ⊢
    generalize t.builder.align _ = fit' at fits ⊢
    cases fits with
    | error cause =>
      refine .error ?_
      rw [number, cause]
      rfl
    | ok moved related =>
      have recorded := kept.dispatch related s.number t.number (indentWidth settings.tabSize line)
        (trimLeft line)
      refine agree_takeHead kept (by exact number) settings line _ ?_
      unfold spacedFor separate
      split
      · next apart =>
        simp only [spaced apart _ moved rfl]
        split
        · exact kept.place recorded _
        · exact recorded
      · exact recorded

theorem agree_dispatch (builder : R s.builder t.builder) (gap : t.gap = s.gap) (settings : Settings)
    (line : Line) : Agree (Alike R k) k (s.dispatch settings line) (t.dispatch settings line) :=
  agree_dispatch_of_gap kept number builder settings line (fun _ => gap) fun _ _ _ _ => by rw [gap]

theorem alike_settle (builder : R s.builder t.builder) (gap : t.gap = s.gap) (block : TextBlock) :
    Alike R k (s.settle block) (t.settle block) := by
  unfold settle
  simp only
  split
  · exact ⟨number, kept.placeBreaks builder _, rfl, fun _ => gap⟩
  · exact ⟨number, kept.placeBreaks (kept.place builder _) _, rfl, fun _ => gap⟩

theorem agree_takeFirst (builder : R s.builder t.builder) (gap : t.gap = s.gap)
    (phase : t.phase = s.phase.later k) (settings : Settings) (line : Line) :
    Agree (Alike R k) k (s.takeFirst settings line) (t.takeFirst settings line) := by
  unfold takeFirst
  split
  · exact .ok ⟨number, kept.place builder _, phase, fun _ => gap⟩
  · split
    · exact agree_dispatch kept number builder gap settings line
    · split
      · exact .ok ⟨number, kept.place (kept.place builder _) _, rfl, fun _ => gap⟩
      · exact agree_halt number _ _ _

omit number in
/-- Both readings take one more line. -/
theorem agree_feed (alike : Alike R k s t) (settings : Settings) (line : Line) :
    Agree (Alike R k) k (s.feed settings line) (t.feed settings line) := by
  obtain ⟨n, b, g, phase⟩ := s
  obtain ⟨n', c, g', phase'⟩ := t
  obtain ⟨number, builder, hphase, gap⟩ := alike
  simp only at number builder hphase gap
  subst hphase
  have next : n' + 1 = n + 1 + k := by omega
  cases phase with
  | start =>
    exact agree_takeFirst (s := ⟨n + 1, b, g, .start⟩) (t := ⟨n' + 1, c, g', .start⟩)
      kept next builder (gap rfl) rfl settings line
  | ready =>
    exact agree_dispatch (s := ⟨n + 1, b, g, .ready⟩) (t := ⟨n' + 1, c, g', .ready⟩)
      kept next builder (gap rfl) settings line
  | code owner segments last =>
    exact .ok (alike_takeCode (s := ⟨n + 1, b, g, .code owner segments last⟩)
      (t := ⟨n' + 1, c, g', .code owner segments last⟩) kept next builder owner segments line line)
  | attributes tag close =>
    exact agree_takeAttributes (s := ⟨n + 1, b, g, .attributes tag close⟩)
      (t := ⟨n' + 1, c, g', .attributes (tag.later k) close⟩)
      kept next builder settings.tabSize tag (some close) line line
  | text block =>
    have settled := alike_settle (s := ⟨n + 1, b, g, .text block⟩)
      (t := ⟨n' + 1, c, g', .text block⟩) kept next builder (gap rfl) block
    simp only [feed, Phase.later, kept.width builder]
    split
    · split
      · exact .ok ⟨next, builder, rfl, fun _ => gap rfl⟩
      · exact agree_halt (s := ⟨n + 1, b, g, .text block⟩) (t := ⟨n' + 1, c, g', .text block⟩)
          next _ _ _
    · have midway : (settle ⟨n + 1, b, g, .text block⟩ block).phase.isMidway = false := rfl
      exact agree_dispatch kept settled.number settled.builder (settled.gap midway) settings line
  | remark =>
    simp only [feed, Phase.later, kept.width builder]
    split
    · exact .ok ⟨next, kept.place builder _, rfl, fun _ => gap rfl⟩
    · exact agree_dispatch (s := ⟨n + 1, b, g, .ready⟩) (t := ⟨n' + 1, c, g', .ready⟩)
        kept next builder (gap rfl) settings line

omit number in
theorem agree_foldlM (alike : Alike R k s t) (settings : Settings) (lines : List Line) :
    Agree (Alike R k) k (lines.foldlM (feed settings) s) (lines.foldlM (feed settings) t) := by
  induction lines generalizing s t with
  | nil => exact .ok alike
  | cons line lines ih =>
    rw [List.foldlM_cons, List.foldlM_cons]
    exact (agree_feed kept alike settings line).bind fun _ _ => ih

omit number in
theorem agree_finish (alike : Alike R k s t) : Agree R k s.finish t.finish := by
  obtain ⟨n, b, g, phase⟩ := s
  obtain ⟨n', c, g', phase'⟩ := t
  obtain ⟨number, builder, hphase, gap⟩ := alike
  simp only at number builder hphase gap
  subst hphase
  cases phase with
  | start => exact .ok (kept.closeAll builder)
  | ready => exact .ok (kept.closeAll builder)
  | remark => exact .ok (kept.closeAll builder)
  | text block =>
    have settled := alike_settle (s := ⟨n, b, g, .text block⟩) (t := ⟨n', c, g', .text block⟩)
      kept number builder (gap rfl) block
    exact .ok (kept.closeAll settled.builder)
  | code owner segments last =>
    refine .error ?_
    simp only [number]
    rfl
  | attributes tag close => exact .error rfl

omit number in
/-- What is left of a template is read alike to its end. -/
theorem agree_rest (alike : Alike R k s t) (settings : Settings) (lines : List Line) :
    Agree R k (lines.foldlM (feed settings) s >>= finish)
      (lines.foldlM (feed settings) t >>= finish) :=
  (agree_foldlM kept alike settings lines).bind fun _ _ => agree_finish kept

end Congruence

end State

end TemplateMarkup
