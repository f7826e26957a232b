import TemplateMarkup.Proofs.Reading.Moves

/-! The log of a reading against the tree that it makes. A tree is put together from the inside
out, but what was put into it, read in document order, is what the log tells in the order of time.
The depths in the log count the blocks that are open. -/
namespace TemplateMarkup
open Builder

/-- One step of a walk through a tree. -/
inductive Visit where
  | leaf (node : Node)
  | enter (owner : Owner)
  | leave

namespace Node

mutual

/-- The walk through a node in document order. A group leaves no trace of its own, and a tag
around the output of some code is one container together with it. -/
def walk : Node → List Visit
  | multi nodes => walkList nodes
  | tag name attrs (output escape code content) =>
    .enter (.outputTag name attrs escape code) :: (walk content ++ [.leave])
  | tag name attrs content => .enter (.tag name attrs) :: (walk content ++ [.leave])
  | comment content => .enter .comment :: (walk content ++ [.leave])
  | conditional condition content =>
    .enter (.conditional condition) :: (walk content ++ [.leave])
  | embedded engine content => .enter (.embedded engine) :: (walk content ++ [.leave])
  | control code content => .enter (.control code) :: (walk content ++ [.leave])
  | output escape code content => .enter (.output escape code) :: (walk content ++ [.leave])
  | node => [.leaf node]

def walkList : List Node → List Visit
  | [] => []
  | node :: nodes => walk node ++ walkList nodes

end

theorem walkList_append (nodes more : List Node) :
    walkList (nodes ++ more) = walkList nodes ++ walkList more := by
  induction nodes with
  | nil => rfl
  | cons node nodes ih => simp [walkList, ih]

theorem IsLeaf.walk {node : Node} (leaf : node.IsLeaf) : node.walk = [.leaf node] := by
  cases leaf <;> rfl

end Node

theorem Owner.walk_enclose (owner : Owner) (nodes : List Node) :
    (owner.enclose nodes).walk = .enter owner :: (Node.walkList nodes ++ [.leave]) := by
  cases owner <;> rfl

namespace Event

/-- What an event adds to the walk through the tree. -/
def visit? : Event → Option Visit
  | dispatched .. => none
  | placed node => some (.leaf node)
  | opened owner _ => some (.enter owner)
  | closed _ => some .leave

/-- The number of open blocks that an event states. -/
def depth? : Event → Option Nat
  | opened _ depth | closed depth => some depth
  | _ => none

def isOpened : Event → Bool
  | opened .. => true
  | _ => false

def isClosed : Event → Bool
  | closed _ => true
  | _ => false

end Event

/-! The walk through a tree under construction. -/

/-- The walk through a block that is not left yet. -/
def Block.script (block : Block) : List Visit :=
  .enter block.owner :: Node.walkList block.nodes.reverse

namespace Builder

def levelsScript : List Level → List Visit
  | [] => []
  | level :: levels => levelsScript levels ++ level.block.script

/-- The walk through the nodes so far, which leaves no block that is open. -/
def script (b : Builder) : List Visit :=
  Node.walkList b.root.reverse ++ (levelsScript b.levels ++ b.awaiting.elim [] Block.script)

theorem script_add (b : Builder) (node : Node) : (b.add node).script = b.script ++ node.walk := by
  unfold add
  split
  · next h => simp [script, h, Block.script, Node.walkList_append, Node.walkList]
  · next h hl => simp [script, h, hl, levelsScript, Node.walkList_append, Node.walkList]
  · next h hl => simp [script, h, hl, levelsScript, Block.script, Node.walkList_append, Node.walkList]

theorem script_finish (b : Builder) (block : Block) :
    (b.finish block).script = b.script ++ (block.script ++ [.leave]) := by
  change (b.add (block.owner.enclose block.nodes.reverse)).script = _
  rw [script_add, Owner.walk_enclose]
  rfl

theorem script_closeAwaiting {b : Builder} {block : Block} (pending : b.awaiting = some block) :
    b.closeAwaiting.script = b.script ++ [.leave] := by
  simp only [closeAwaiting, pending, script_finish]
  simp [script, pending]

theorem script_closeLevel {b : Builder} {level : Level} {levels : List Level}
    (idle : b.awaiting = none) (top : b.levels = level :: levels) :
    b.closeLevel.script = b.script ++ [.leave] := by
  simp only [closeLevel, top, script_finish]
  simp [script, idle, top, levelsScript]

theorem script_begin {b : Builder} (idle : b.awaiting = none) (owner : Owner) :
    (b.begin owner).script = b.script ++ [.enter owner] := by
  simp [begin, record, script, idle, Block.script, Node.walkList]

/-- What was put into the tree stays where it is. -/
theorem script_prefix_of_move {b c : Builder} (step : Move b c) : b.script <+: c.script := by
  cases step with
  | place node leaf => exact ⟨node.walk, (script_add b node).symm⟩
  | begin owner idle => exact ⟨_, (script_begin idle owner).symm⟩
  | confirm width block deeper pending => simp [script, pending, levelsScript]
  | closeAwaiting block pending => exact ⟨_, (script_closeAwaiting pending).symm⟩
  | closeLevel level levels idle top => exact ⟨_, (script_closeLevel idle top).symm⟩
  | dispatch number width text => exact List.prefix_rfl

theorem script_prefix_of_moves {b c : Builder} (run : Moves b c) : b.script <+: c.script := by
  induction run with
  | refl => exact List.prefix_rfl
  | tail _ step ih => exact ih.trans (script_prefix_of_move step)

/-- The log tells the walk through the nodes so far. -/
def Told (b : Builder) : Prop := b.log.reverse.filterMap Event.visit? = b.script

theorem told_cons {b c : Builder} {event : Event} {visit : Visit} (told : b.Told)
    (hlog : c.log = event :: b.log) (hvisit : event.visit? = some visit)
    (hscript : c.script = b.script ++ [visit]) : c.Told := by
  rw [Told, hlog, hscript, List.reverse_cons, List.filterMap_append, told]
  simp [hvisit]

theorem told_of_move {b c : Builder} (step : Move b c) (told : b.Told) : c.Told := by
  cases step with
  | place node leaf =>
    refine told_cons told (log_place b node) rfl ?_
    rw [← leaf.walk, ← script_add]
    rfl
  | begin owner idle => exact told_cons told (log_begin b owner) rfl (script_begin idle owner)
  | confirm width block deeper pending =>
    change b.log.reverse.filterMap Event.visit? = _
    rw [told]
    simp [script, pending, levelsScript]
  | closeAwaiting block pending =>
    exact told_cons told (log_closeAwaiting pending) rfl (script_closeAwaiting pending)
  | closeLevel level levels idle top =>
    exact told_cons told (log_closeLevel top) rfl (script_closeLevel idle top)
  | dispatch number width text =>
    change (Event.dispatched number width text :: b.log).reverse.filterMap Event.visit? = b.script
    rw [List.reverse_cons, List.filterMap_append, told]
    simp [Event.visit?]

theorem script_closeAll (b : Builder) : b.closeAll.script = b.closeAll.tree.walk := by
  simp [script, levelsScript, tree, Node.walk]

end Builder

/-! The depths in the log. -/

/-- How many blocks some events open. -/
def openings (log : List Event) : Nat := log.countP Event.isOpened

/-- How many blocks some events close. -/
def closings (log : List Event) : Nat := log.countP Event.isClosed

theorem openings_opened (owner : Owner) (depth : Nat) (log : List Event) :
    openings (.opened owner depth :: log) = openings log + 1 :=
  List.countP_cons_of_pos rfl

theorem openings_closed (depth : Nat) (log : List Event) :
    openings (.closed depth :: log) = openings log := by
  simp [openings, Event.isOpened]

theorem closings_opened (owner : Owner) (depth : Nat) (log : List Event) :
    closings (.opened owner depth :: log) = closings log := by
  simp [closings, Event.isClosed]

theorem closings_closed (depth : Nat) (log : List Event) :
    closings (.closed depth :: log) = closings log + 1 :=
  List.countP_cons_of_pos rfl

namespace Builder

/-- The depths in the log, which is held newest first, count the blocks that are open. -/
structure Counted (b : Builder) : Prop where
  now : b.depth + closings b.log = openings b.log + 1
  logged : ∀ event older, event :: older <:+ b.log → ∀ depth ∈ event.depth?,
    1 ≤ depth ∧ depth + closings (event :: older) = openings (event :: older) + 1
  last : ∀ depth ∈ (b.log.filterMap Event.depth?).head?, depth = b.depth

theorem one_le_depth (b : Builder) : 1 ≤ b.depth := by
  unfold depth
  split <;> omega

/-- An event that states no depth, or the depth that there is now, keeps the count. -/
theorem counted_cons {b c : Builder} {event : Event} (counted : b.Counted)
    (hlog : c.log = event :: b.log)
    (now : c.depth + closings c.log = openings c.log + 1)
    (hdepth : event.depth? = some c.depth ∨ event.depth? = none ∧ c.depth = b.depth) :
    c.Counted where
  now := now
  logged e older suffix d hd := by
    rw [hlog, List.suffix_cons_iff] at suffix
    obtain heq | suffix := suffix
    · obtain ⟨rfl, rfl⟩ := List.cons.inj heq
      obtain hdepth | ⟨hdepth, -⟩ := hdepth
      · obtain rfl : c.depth = d := by simpa [hdepth] using hd
        exact ⟨one_le_depth c, hlog ▸ now⟩
      · simp [hdepth] at hd
    · exact counted.logged e older suffix d hd
  last d hd := by
    rw [hlog] at hd
    obtain hdepth | ⟨hdepth, hsame⟩ := hdepth
    · simpa [hdepth, eq_comm] using hd
    · rw [List.filterMap_cons_none hdepth] at hd
      rw [hsame]
      exact counted.last d hd

theorem counted_of_move {b c : Builder} (step : Move b c) (counted : b.Counted) : c.Counted := by
  have now := counted.now
  cases step with
  | place node leaf =>
    refine counted_cons counted (log_place b node) ?_ (.inr ⟨rfl, depth_place b node⟩)
    rw [log_place, depth_place]
    exact now
  | begin owner idle =>
    refine counted_cons counted (log_begin b owner) ?_ (.inl rfl)
    rw [log_begin, depth_begin idle, openings_opened, closings_opened]
    omega
  | confirm width block deeper pending =>
    have same := depth_confirm pending width
    exact ⟨by rw [same]; exact now, counted.logged, by rw [same]; exact counted.last⟩
  | closeAwaiting block pending =>
    have hdepth := depth_closeAwaiting pending
    refine counted_cons counted (log_closeAwaiting pending) ?_ (.inl rfl)
    rw [log_closeAwaiting pending, openings_closed, closings_closed]
    omega
  | closeLevel level levels idle top =>
    have hdepth := depth_closeLevel idle top
    refine counted_cons counted (log_closeLevel top) ?_ (.inl rfl)
    rw [log_closeLevel top, openings_closed, closings_closed]
    omega
  | dispatch number width text =>
    refine counted_cons counted rfl ?_ (.inr ⟨rfl, rfl⟩)
    exact now

theorem counted_start : Counted {} where
  now := rfl
  logged := by simp
  last := by simp

theorem counted_of_moves {b : Builder} (run : Moves {} b) : b.Counted :=
  run.invariant counted_of_move counted_start

theorem told_of_moves {b : Builder} (run : Moves {} b) : b.Told :=
  run.invariant told_of_move rfl

end Builder

/-- However a reading ends, its log is that of a tree that moves have built. -/
theorem readTemplate_log (settings : Settings) (source : String) :
    ∃ b, Moves {} b ∧ (readTemplate settings source).log = b.log.reverse := by
  obtain ⟨c, log, acts, tells, same⟩ := readTemplate_tells settings source
  obtain ⟨b, moves, rfl⟩ := tells.moves
  exact ⟨b, acts.moves.trans moves, same⟩

theorem parse_ok {settings : Settings} {source : String} {tree : Node}
    (h : parse settings source = .ok tree) : ∃ c, Moves {} c ∧ tree = c.closeAll.tree ∧
      (readTemplate settings source).log = c.closeAll.log.reverse := by
  obtain ⟨b, hb, rfl, log⟩ := readLines_of_parse h
  obtain ⟨c, moves, rfl⟩ := readLines_ok hb
  exact ⟨c, moves, rfl, log⟩

/-- In the order of time, every depth that a log states is one more than the number of blocks
that are open. -/
theorem depth_of_log {b : Builder} (counted : b.Counted) {before after : List Event} {event : Event}
    {depth : Nat} (hlog : b.log.reverse = before ++ event :: after)
    (hdepth : event.depth? = some depth) :
    1 ≤ depth ∧ depth + closings (before ++ [event]) = openings (before ++ [event]) + 1 := by
  have newest : b.log = after.reverse ++ event :: before.reverse := by
    rw [← List.reverse_reverse b.log, hlog]
    simp
  have logged := counted.logged event before.reverse ⟨after.reverse, newest.symm⟩ depth hdepth
  have same : before ++ [event] = (event :: before.reverse).reverse := by simp
  rw [same, closings, openings, List.countP_reverse, List.countP_reverse]
  exact logged

/-- A log that opens a block and whose tree has none open ends with the depth of the root. -/
theorem last_depth_of_log {b : Builder} (counted : b.Counted) (closed : b.depth = 1)
    {owner : Owner} {depth : Nat} (hmem : .opened owner depth ∈ b.log.reverse) :
    (b.log.reverse.filterMap Event.depth?).getLast? = some 1 := by
  rw [List.filterMap_reverse, List.getLast?_reverse]
  cases h : (b.log.filterMap Event.depth?).head? with
  | none =>
    have none_ := List.head?_eq_none_iff.1 h
    have := List.filterMap_eq_nil_iff.1 none_ _ (List.mem_reverse.1 hmem)
    cases this
  | some d =>
    have := counted.last d h
    rw [this, closed]

/-- The walk through the tree of a template is the log of its reading, and the last depth in that
log, if there is any, is that of the root. Whether or not a reading succeeds, every depth in its
log is one more than the number of blocks that are open. -/
theorem log_eq_walk (settings : Settings) (source : String) :
    (∀ tree, parse settings source = .ok tree →
      (readTemplate settings source).log.filterMap Event.visit? = tree.walk ∧
      ∀ owner depth, .opened owner depth ∈ (readTemplate settings source).log →
        ((readTemplate settings source).log.filterMap Event.depth?).getLast? = some 1) ∧
    ∀ before event after depth,
      (readTemplate settings source).log = before ++ event :: after →
      event.depth? = some depth →
      1 ≤ depth ∧ depth + closings (before ++ [event]) = openings (before ++ [event]) + 1 := by
  constructor
  · intro tree h
    obtain ⟨c, moves, rfl, hlog⟩ := parse_ok h
    have run := moves.trans (moves_closeAll c)
    rw [hlog]
    constructor
    · rw [← script_closeAll]
      exact told_of_moves run
    · intro owner depth hmem
      refine last_depth_of_log (counted_of_moves run) ?_ hmem
      simp [Builder.depth]
  · intro before event after depth hlog hdepth
    obtain ⟨b, moves, hb⟩ := readTemplate_log settings source
    exact depth_of_log (counted_of_moves moves) (hb ▸ hlog) hdepth

theorem log_eq_walk_nested :
    ((readTemplate {} "=' x\n  - y").log.filterMap Event.visit? =
      [.enter (.output true "x"), .leaf .newline, .enter (.control "y"), .leaf .newline, .leave,
        .leave]) ∧
    ((readTemplate {} "=' x\n  - y").log.filterMap Event.depth?).getLast? = some 1 ∧
    2 + closings ((readTemplate {} "=' x\n  - y").log.take 2) =
      openings ((readTemplate {} "=' x\n  - y").log.take 2) + 1 := by
  have tree : parse {} "=' x\n  - y" = .ok (.multi [.output true "x"
      (.multi [.newline, .control "y" (.multi [.newline])])]) := rfl
  have log : (readTemplate {} "=' x\n  - y").log =
      [.dispatched 1 0 "=' x".toList, .opened (.output true "x") 2, .placed .newline,
        .dispatched 2 2 "- y".toList, .opened (.control "y") 3, .placed .newline, .closed 2,
        .closed 1] := rfl
  have main := log_eq_walk {} "=' x\n  - y"
  have opened : .opened (.output true "x") 2 ∈ (readTemplate {} "=' x\n  - y").log := by
    rw [log]
    simp
  refine ⟨(main.1 _ tree).1, (main.1 _ tree).2 _ _ opened, ?_⟩
  have counted := main.2 [.dispatched 1 0 "=' x".toList] _ _ 2 log rfl
  rw [log]
  exact counted.2

end TemplateMarkup
