import TemplateMarkup.Proofs.LineEnds.Tree
import TemplateMarkup.Proofs.Reading.Moves

/-! Line bookkeeping. The tree under construction accounts for every line that was read, except for
those whose line ends the construct under way still owes. -/
namespace TemplateMarkup
open Builder

namespace CodeOwner

def lineEnds : CodeOwner → Nat
  | control | output _ => 0
  | tag _ attrs _ => Attr.lineEndsOfList attrs

theorem lineEnds_withCode (owner : CodeOwner) (code : String) :
    (owner.withCode code).lineEnds = owner.lineEnds + codeBreaks code := by
  cases owner <;> simp [withCode, lineEnds, Owner.lineEnds]

end CodeOwner

namespace Phase

/-- The line ends that the construct under way still owes. -/
def owed : Phase → Nat
  | code _ segments _ => segments.length
  | text block => block.breaks
  | start | ready | attributes .. | remark => 0

theorem owed_of_free {phase : Phase} (free : phase.isFree = true) : phase.owed = 0 := by
  cases phase <;> first | rfl | cases free

/-- What a construct under way has gathered accounts for no line by itself. -/
def Tidy : Phase → Prop
  | code owner segments _ => owner.lineEnds = 0 ∧ ∀ segment ∈ segments, '\n' ∉ segment
  | attributes tag _ => Attr.lineEndsOfList tag.attrs = 0
  | _ => True

end Phase

namespace State

/-- After `n` lines the tree and the construct under way account for all of them. -/
structure Balanced (n : Nat) (s : State) : Prop where
  number : s.number = n
  steady : s.Steady
  tidy : s.phase.Tidy
  balance : s.builder.lineEnds + s.phase.owed = n

/-- A line is in hand, and the tree accounts for the `n` lines before it. -/
structure InHand (n : Nat) (s : State) : Prop where
  number : s.number = n + 1
  idle : s.builder.awaiting = none
  balance : s.builder.lineEnds = n

variable {n : Nat} {s : State}

theorem InHand.breakLine (h : InHand n s) : s.breakLine.builder.lineEnds = n + 1 := by
  rw [builder_breakLine, lineEnds_place, h.balance]
  rfl

theorem InHand.begin_breakLine (h : InHand n s) {owner : Owner} (hollow : owner.lineEnds = 0) :
    ((s.builder.begin owner).place .newline).lineEnds = n + 1 := by
  rw [lineEnds_place, lineEnds_begin h.idle, h.balance, hollow]
  rfl

theorem InHand.separate (h : InHand n s) : InHand n s.separate := by
  unfold State.separate
  split
  · refine ⟨h.number, awaiting_place_eq_none h.idle _, ?_⟩
    rw [builder_place, lineEnds_place, h.balance]
    rfl
  · exact h

/-- A segment of code owes its line end until the code is complete; joined, the segments hold all
line ends but the last, which follows the block that the code opens. -/
theorem balanced_takeCode (number : s.number = n + 1) (idle : s.builder.awaiting = none)
    {owner : CodeOwner} (hollow : owner.lineEnds = 0) {segments : List (List Char)}
    (unbroken : ∀ segment ∈ segments, '\n' ∉ segment)
    (balance : s.builder.lineEnds + segments.length = n) (line : Line) {cs : List Char}
    (hcs : '\n' ∉ cs) : Balanced (n + 1) (s.takeCode owner segments line cs) := by
  have all : ∀ segment ∈ trim cs :: segments, '\n' ∉ segment := by
    intro segment hmem
    obtain rfl | hmem := List.mem_cons.1 hmem
    · intro h
      exact hcs (trim_subset cs h)
    · exact unbroken segment hmem
  unfold takeCode
  simp only
  split
  · refine ⟨number, fun _ => idle, ⟨hollow, all⟩, ?_⟩
    simp only [Phase.owed, List.length_cons]
    omega
  · refine ⟨number, steady_of_complete rfl, trivial, ?_⟩
    have joined := lineEnds_joinCode (List.cons_ne_nil _ _) all
    change ((s.builder.begin _).place .newline).lineEnds = n + 1
    rw [lineEnds_place, lineEnds_begin idle, CodeOwner.lineEnds_withCode, hollow, Node.lineEnds]
    rw [List.length_cons] at joined
    omega

/-- While a text goes on, its block tells how many line ends are due. -/
theorem balanced_of_text {block : TextBlock} (number : s.number = n) (text : s.phase = .text block)
    (balance : s.builder.lineEnds + block.breaks = n) : Balanced n s := by
  refine ⟨number, ?_, ?_, ?_⟩
  · intro midway
    rw [text] at midway
    cases midway
  · rw [text]
    trivial
  · rw [text]
    exact balance

/-- A line that starts a text owes its line end, whether there is text on it or not. -/
theorem breaks_started (empty : Bool) (column : Nat) (text : List Char) :
    (if empty then TextBlock.empty false 1 else .startAt column text).breaks = 1 := by
  split <;> rfl

theorem balanced_takeTail (h : InHand n s) (tab : Nat) {tag : TagHead}
    (hollow : Attr.lineEndsOfList tag.attrs = 0) (line : Line) {tail : Tail}
    (unbroken : '\n' ∉ tail.unread) : Balanced (n + 1) (s.takeTail tab tag line tail) := by
  cases tail with
  | output mark cs =>
    have hollow' : (CodeOwner.tag tag.name tag.attrs mark).lineEnds = 0 := hollow
    exact balanced_takeCode h.number h.idle hollow' (by simp) (by simpa using h.balance) line unbroken
  | void =>
    refine ⟨h.number, steady_of_complete rfl, trivial, ?_⟩
    change ((s.builder.place (.voidTag tag.name tag.attrs)).place .newline).lineEnds = n + 1
    simp [h.balance, Node.lineEnds, hollow]
  | block => exact ⟨h.number, steady_of_complete rfl, trivial, h.begin_breakLine hollow⟩
  | text inline =>
    refine balanced_of_text h.number rfl ?_
    change (s.builder.begin (.tag tag.name tag.attrs)).lineEnds + 1 = n + 1
    rw [lineEnds_begin h.idle, h.balance, Owner.lineEnds, hollow]

theorem balanced_takeAttributes (h : InHand n s) (tab : Nat) {tag : TagHead}
    (hollow : Attr.lineEndsOfList tag.attrs = 0) (close : Option Char) (line : Line) {cs : List Char}
    (unbroken : '\n' ∉ cs) {t : State} (ht : s.takeAttributes tab tag close line cs = .ok t) :
    Balanced (n + 1) t := by
  obtain ⟨attrs, rest, hattrs, taken⟩ := takeAttributes_cases ht
  have more : Attr.lineEndsOfList (tag.attrs ++ attrs) = 0 := by
    rw [Attr.lineEndsOfList_append, hollow, lineEnds_readAttributes hattrs]
  obtain ⟨bracket, -, rfl⟩ | ⟨angle, behind, tail, hend, htail, rfl⟩ := taken
  · exact ⟨h.number, fun _ => awaiting_place_eq_none h.idle _, more, h.breakLine⟩
  · have left := readAttributes_suffix close cs
    rw [hattrs] at left
    have unread := (Tail.read_unread htail).trans ((readListEnd_suffix hend).trans left)
    apply balanced_takeTail h tab more line
    intro hmem
    exact unbroken (unread.subset hmem)

theorem balanced_takeTag (h : InHand n s) (tab : Nat) (name : String) (line : Line) {cs : List Char}
    (unbroken : '\n' ∉ cs) {t : State} (ht : s.takeTag tab name line cs = .ok t) :
    Balanced (n + 1) t := by
  obtain ⟨close, inner, suffix, taken⟩ := takeTag_eq tab name line cs
  rw [taken] at ht
  have unread : '\n' ∉ inner := by
    intro hmem
    exact unbroken ((suffix.trans (readShortcuts_suffix cs)).subset hmem)
  exact balanced_takeAttributes h tab (lineEnds_readShortcuts cs) close line unread ht

theorem balanced_takeHead (h : InHand n s) (settings : Settings) (line : Line) {head : Head}
    (unbroken : '\n' ∉ head.unread) {t : State} (ht : takeHead settings s line head = .ok t) :
    Balanced (n + 1) t := by
  cases head with
  | control cs =>
    cases ht
    exact balanced_takeCode h.number h.idle rfl (by simp) (by simpa using h.balance) line unbroken
  | output mark cs =>
    cases ht
    exact balanced_takeCode h.number h.idle rfl (by simp) (by simpa using h.balance) line unbroken
  | embedded engine =>
    cases ht
    refine ⟨h.number, steady_of_complete rfl, trivial, ?_⟩
    change ((s.builder.place .newline).begin _).lineEnds = n + 1
    rw [lineEnds_begin (awaiting_place_eq_none h.idle _)]
    exact h.breakLine
  | comment spaced cs =>
    cases ht
    refine balanced_of_text h.number rfl ?_
    rw [breaks_started]
    change (s.builder.begin .comment).lineEnds + 1 = n + 1
    rw [lineEnds_begin h.idle, h.balance]
    rfl
  | tag name cs => exact balanced_takeTag h.separate _ _ line unbroken ht
  | conditional condition =>
    cases ht
    exact ⟨h.number, steady_of_complete rfl, trivial, h.begin_breakLine rfl⟩
  | remark =>
    cases ht
    exact ⟨h.number, steady_of_complete rfl, trivial, h.breakLine⟩
  | doctype value =>
    cases ht
    refine ⟨h.number, steady_of_complete rfl, trivial, ?_⟩
    change ((s.builder.place _).place .newline).lineEnds = n + 1
    rw [lineEnds_place, lineEnds_place, h.balance]
    rfl
  | text glued cs =>
    cases ht
    have kept : InHand n (if glued then s else s.separate) := by
      split
      · exact h
      · exact h.separate
    refine balanced_of_text kept.number rfl ?_
    rw [breaks_started]
    exact congrArg (· + 1) kept.balance
  | unknown rest => cases ht

theorem balanced_dispatch (number : s.number = n + 1) (balance : s.builder.lineEnds = n)
    (settings : Settings) {line : Line} (unbroken : '\n' ∉ line) {t : State}
    (ht : s.dispatch settings line = .ok t) : Balanced (n + 1) t := by
  obtain ⟨-, rfl⟩ | ⟨builder, moved, -, fit, taken⟩ := dispatch_cases ht
  · refine ⟨number, steady_of_complete rfl, trivial, ?_⟩
    change (s.builder.place .newline).lineEnds = n + 1
    rw [lineEnds_place, balance]
    rfl
  · have idle : builder.awaiting = none := awaiting_align fit
    have hand : InHand n (s.fitted settings line builder moved) :=
      ⟨number, idle, (lineEnds_align fit).trans balance⟩
    have unread : '\n' ∉ (Head.read (trimLeft line)).unread := by
      intro hmem
      apply unbroken
      exact ((Head.read_unread _).trans (trimLeft_suffix line)).subset hmem
    exact balanced_takeHead hand settings line unread taken

theorem lineEnds_settle (s : State) (block : TextBlock) :
    (s.settle block).builder.lineEnds = s.builder.lineEnds + block.breaks := by
  unfold settle
  simp only [lineEnds_placeBreaks]
  split
  · rfl
  · simp [Node.lineEnds]

/-- Where a line belongs to nothing before it, the tree accounts for all lines before it. -/
theorem lineEnds_beforeDispatch {settings : Settings} {line : Line} {t : State}
    (h : Balanced n s) (ht : s.beforeDispatch? settings line = some t) :
    t.number = n ∧ t.builder.lineEnds = n := by
  have balance := h.balance
  obtain ⟨free, phase, rfl⟩ | ⟨block, under, -, rfl⟩ := beforeDispatch_cases ht
  · rw [Phase.owed_of_free free] at balance
    exact ⟨h.number, balance⟩
  · rw [under] at balance
    rw [number_settle, lineEnds_settle]
    exact ⟨h.number, balance⟩

/-- One line more is accounted for after each step. -/
theorem balanced_step (h : Balanced n s) {settings : Settings} {line : Line} (unbroken : '\n' ∉ line)
    {t : State} (step : Step settings line s t) : Balanced (n + 1) t := by
  have next : s.number + 1 = n + 1 := congrArg (· + 1) h.number
  have balance := h.balance
  cases step with
  | blank start _ =>
    rw [start] at balance
    refine ⟨next, steady_of_complete (by simp [breakLine, place, start, Phase.isMidway]), ?_, ?_⟩
    · simp [breakLine, place, start, Phase.Tidy]
    · change (s.builder.place .newline).lineEnds + s.phase.owed = n + 1
      rw [start, lineEnds_place]
      exact congrArg (· + 1) balance
  | header value rest start _ _ =>
    rw [start] at balance
    refine ⟨next, steady_of_complete rfl, trivial, ?_⟩
    change ((s.builder.place (.doctype _)).place .newline).lineEnds = n + 1
    rw [lineEnds_place, lineEnds_place]
    exact congrArg (· + 1) balance
  | code owner segments last under =>
    have tidy := h.tidy
    rw [under] at balance tidy
    have idle := h.steady (by rw [under]; rfl)
    exact balanced_takeCode (s := { s with number := s.number + 1 }) next idle tidy.1 tidy.2 balance
      line unbroken
  | attributes t tag close under taken =>
    have tidy := h.tidy
    rw [under] at balance tidy
    have hand : InHand n { s with number := s.number + 1 } :=
      ⟨next, h.steady (by rw [under]; rfl), balance⟩
    exact balanced_takeAttributes hand _ tidy _ line unbroken taken
  | text block more under _ taken =>
    rw [under] at balance
    refine balanced_of_text next rfl ?_
    rw [breaks_add taken, ← Nat.add_assoc]
    exact congrArg (· + 1) balance
  | remark under _ =>
    rw [under] at balance
    refine ⟨next, steady_of_complete (by simp [breakLine, place, under, Phase.isMidway]), ?_, ?_⟩
    · simp [breakLine, place, under, Phase.Tidy]
    · change (s.builder.place .newline).lineEnds + s.phase.owed = n + 1
      rw [under, lineEnds_place]
      exact congrArg (· + 1) balance
  | dispatch u t before taken =>
    obtain ⟨number, accounted⟩ := lineEnds_beforeDispatch h before
    exact balanced_dispatch (s := { u with number := u.number + 1 }) (congrArg (· + 1) number)
      accounted settings unbroken taken

theorem balanced_start : Balanced 0 {} := ⟨rfl, steady_start, trivial, rfl⟩

/-- At every moment of a reading the lines before it are accounted for. -/
theorem balanced_foldlM {settings : Settings} {before more : List Line}
    (unbroken : ∀ line ∈ before ++ more, '\n' ∉ line) {t : State}
    (ht : before.foldlM (feed settings) {} = .ok t) : Balanced before.length t := by
  have count : t.number = before.length := by simpa using number_foldlM steady_start ht
  have own : ∀ line ∈ before, '\n' ∉ line := fun line mem => unbroken line (by simp [mem])
  have run : Balanced t.number t := by
    refine run_induction_unbroken (P := fun s => Balanced s.number s) ?_ own steady_start
      balanced_start ht
    intro line s t here balanced step
    have after := balanced_step balanced here step
    rw [after.number]
    exact after
  rw [← count]
  exact run

/-- The end of a template pays what is owed. -/
theorem lineEnds_finish {b : Builder} (h : Balanced n s) (hb : s.finish = .ok b) :
    b.tree.lineEnds = n := by
  have balance := h.balance
  obtain ⟨free, rfl⟩ | ⟨block, under, rfl⟩ := finish_cases hb
  · rw [Phase.owed_of_free free] at balance
    exact (lineEnds_tree s.builder).trans balance
  · rw [under] at balance
    rw [lineEnds_tree, lineEnds_settle]
    exact balance

end State

/-- The tree of a template accounts for all its lines. -/
theorem lineEnds_parse {settings : Settings} {source : String} {tree : Node}
    (h : parse settings source = .ok tree) : tree.lineEnds = (linesOf source.toList).length := by
  obtain ⟨b, read, rfl, -⟩ := readLines_of_parse h
  obtain ⟨s, hs, hb⟩ := run_of_readLines read
  have unbroken : ∀ line ∈ linesOf source.toList ++ [], '\n' ∉ line := by
    intro line hline
    rw [List.append_nil] at hline
    exact newline_not_mem_of_mem_linesOf hline
  exact State.lineEnds_finish (State.balanced_foldlM unbroken hs) hb

/-- Line bookkeeping is exact. Whenever a line belongs to nothing before it, the tree accounts for
just the lines before it, and the tree of a template accounts for all its lines. -/
theorem lineEnds_exact (settings : Settings) (source : String) :
    (∀ before line after s t, linesOf source.toList = before ++ line :: after →
      before.foldlM (State.feed settings) {} = .ok s → s.beforeDispatch? settings line = some t →
      t.number = before.length ∧ t.builder.lineEnds = before.length) ∧
    ∀ tree, parse settings source = .ok tree →
      tree.lineEnds = (linesOf source.toList).length := by
  have unbroken : ∀ line ∈ linesOf source.toList, '\n' ∉ line := by
    intro line hline
    exact newline_not_mem_of_mem_linesOf hline
  constructor
  · intro before line after s t hlines hs ht
    rw [hlines] at unbroken
    exact State.lineEnds_beforeDispatch (State.balanced_foldlM unbroken hs) ht
  · intro tree htree
    exact lineEnds_parse htree

/-- Two lines of code make one node, which accounts for both before the third line is taken. -/
theorem lineEnds_exact_code :
    (∃ s t, ["- f(\\".toList, "  x)".toList].foldlM (State.feed {}) {} = .ok s ∧
      s.beforeDispatch? {} "y".toList = some t ∧ t.number = 2 ∧ t.builder.lineEnds = 2) ∧
    ∃ tree, parse {} "- f(\\\n  x)\ny" = .ok tree ∧ tree.lineEnds = 3 := by
  have lines : linesOf "- f(\\\n  x)\ny".toList =
      ["- f(\\".toList, "  x)".toList] ++ "y".toList :: [] := by decide
  have main := lineEnds_exact {} "- f(\\\n  x)\ny"
  constructor
  · refine ⟨_, _, rfl, rfl, ?_⟩
    exact main.1 _ _ _ _ _ lines rfl rfl
  · have tree : parse {} "- f(\\\n  x)\ny" = .ok (.multi
        [.control "f(\\\nx)" (.multi [.newline]), .interpolate "y", .newline]) := rfl
    exact ⟨_, tree, main.2 _ tree⟩

end TemplateMarkup
