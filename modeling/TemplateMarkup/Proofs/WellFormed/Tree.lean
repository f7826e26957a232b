import TemplateMarkup.Line.Head
import TemplateMarkup.Proofs.Builder.Align

/-! The shape of a template's tree: what each kind of node may hold, and where a line break may
stand. A tree under construction keeps to it in every part that is finished. -/
namespace TemplateMarkup

/-- Text without a line break. -/
def OneLine (text : String) : Prop := '\n' ∉ text.toList

/-- A word character, and then word characters, colons and hyphens. -/
def isName : List Char → Bool
  | [] => false
  | c :: cs => isWord c && cs.all isNameTail

/-- The name of a tag, as it was written or else the one for tags that are written without. -/
def IsTagName (fallback name : String) : Prop :=
  (isName name.toList = true ∧ OneLine name) ∨ name = fallback

namespace Attr

inductive IsShortcut : Attr → Prop
  | intro {name value : String} (kind : name = "id" ∨ name = "class") (filled : value ≠ "")
      (line : OneLine value) : IsShortcut (.shortcut name value)

/-- An attribute of an attribute list. -/
inductive IsListed : Attr → Prop
  | flag {name : String} (filled : name ≠ "") (line : OneLine name) : IsListed (.flag name)
  | valued {name value : String} (filled : name ≠ "") (line : OneLine name)
      (text : OneLine value) : IsListed (.valued name (.interpolate value))

/-- The shortcuts of a tag stand in front of its other attributes. -/
def Ordered (attrs : List Attr) : Prop :=
  ∃ shortcuts listed, attrs = shortcuts ++ listed ∧ (∀ attr ∈ shortcuts, attr.IsShortcut) ∧
    ∀ attr ∈ listed, attr.IsListed

theorem Ordered.append {attrs more : List Attr} (ordered : Ordered attrs)
    (listed : ∀ attr ∈ more, attr.IsListed) : Ordered (attrs ++ more) := by
  obtain ⟨shortcuts, first, rfl, hs, hf⟩ := ordered
  refine ⟨shortcuts, first ++ more, List.append_assoc .., hs, ?_⟩
  intro attr mem
  obtain mem | mem := List.mem_append.1 mem
  · exact hf attr mem
  · exact listed attr mem

theorem ordered_of_shortcuts {attrs : List Attr} (shortcuts : ∀ attr ∈ attrs, attr.IsShortcut) :
    Ordered attrs :=
  ⟨attrs, [], (List.append_nil attrs).symm, shortcuts, by simp⟩

end Attr

namespace Node

/-- At most one text, and then line ends. -/
def passage (text : Option String) (breaks : Nat) : List Node :=
  text.toList.map .interpolate ++ List.replicate breaks .newline

/-- The nodes that may stand in a block. None is a block itself, and the content of each is one. -/
inductive WellFormed (fallback : String) : Node → Prop
  | newline : WellFormed fallback .newline
  | static : WellFormed fallback (.static " ")
  | interpolate {text : String} (filled : text ≠ "") : WellFormed fallback (.interpolate text)
  | doctype {value : String} (line : OneLine value) : WellFormed fallback (.doctype value)
  | voidTag {name : String} {attrs : List Attr} (named : IsTagName fallback name)
      (ordered : Attr.Ordered attrs) : WellFormed fallback (.voidTag name attrs)
  | tag {name : String} {attrs : List Attr} {nodes : List Node} (named : IsTagName fallback name)
      (ordered : Attr.Ordered attrs) (inside : ∀ node ∈ nodes, WellFormed fallback node) :
      WellFormed fallback (.tag name attrs (.multi nodes))
  | outputTag {name : String} {attrs : List Attr} {escape : Bool} {code : String}
      {nodes : List Node} (named : IsTagName fallback name) (ordered : Attr.Ordered attrs)
      (inside : ∀ node ∈ nodes, WellFormed fallback node) :
      WellFormed fallback (.tag name attrs (.output escape code (.multi nodes)))
  | control {code : String} {nodes : List Node}
      (inside : ∀ node ∈ nodes, WellFormed fallback node) :
      WellFormed fallback (.control code (.multi nodes))
  | output {escape : Bool} {code : String} {nodes : List Node}
      (inside : ∀ node ∈ nodes, WellFormed fallback node) :
      WellFormed fallback (.output escape code (.multi nodes))
  | conditional {condition : String} {nodes : List Node} (line : OneLine condition)
      (inside : ∀ node ∈ nodes, WellFormed fallback node) :
      WellFormed fallback (.conditional condition (.multi nodes))
  | comment {text : Option String} {breaks : Nat} (filled : ∀ t ∈ text, t ≠ "")
      (ended : 0 < breaks) : WellFormed fallback (.comment (.multi (passage text breaks)))
  | embedded {engine : String} {text : Option String} {breaks : Nat} (line : OneLine engine)
      (filled : ∀ t ∈ text, t ≠ "") :
      WellFormed fallback (.embedded engine (.multi (passage text breaks)))

end Node

namespace Owner

/-- Owners of blocks that lines may add any node to. -/
def HoldsNodes (fallback : String) : Owner → Prop
  | tag name attrs | outputTag name attrs _ _ => IsTagName fallback name ∧ Attr.Ordered attrs
  | control _ | output _ _ => True
  | conditional condition => OneLine condition
  | comment | embedded _ => False

/-- Owners of blocks that get no more than a text, with so many line ends. -/
def HoldsText (breaks : Nat) : Owner → Prop
  | comment => 0 < breaks
  | embedded engine => OneLine engine
  | _ => False

theorem HoldsText.mono {owner : Owner} {breaks more : Nat} (holds : owner.HoldsText breaks)
    (le : breaks ≤ more) : owner.HoldsText more := by
  cases owner with
  | comment => exact Nat.lt_of_lt_of_le holds le
  | embedded engine => exact holds
  | _ => cases holds

variable {fallback : String} {owner : Owner}

theorem wellFormed_enclose {nodes : List Node} (holds : owner.HoldsNodes fallback)
    (inside : ∀ node ∈ nodes, node.WellFormed fallback) :
    (owner.enclose nodes).WellFormed fallback := by
  cases owner with
  | tag name attrs => exact .tag holds.1 holds.2 inside
  | outputTag name attrs escape code => exact .outputTag holds.1 holds.2 inside
  | control code => exact .control inside
  | output escape code => exact .output inside
  | conditional condition => exact .conditional holds inside
  | comment | embedded engine => cases holds

theorem wellFormed_enclose_passage {text : Option String} {breaks : Nat}
    (holds : owner.HoldsText breaks) (filled : ∀ t ∈ text, t ≠ "") :
    (owner.enclose (Node.passage text breaks)).WellFormed fallback := by
  cases owner with
  | comment => exact .comment filled holds
  | embedded engine => exact .embedded holds filled
  | _ => cases holds

end Owner

namespace Block

/-- A block that lines may add any node to. -/
structure Open (fallback : String) (block : Block) : Prop where
  owner : block.owner.HoldsNodes fallback
  nodes : ∀ node ∈ block.nodes, node.WellFormed fallback

/-- A block that still lacks the text it is for, and so many line ends. -/
structure LacksText (breaks : Nat) (block : Block) : Prop where
  owner : block.owner.HoldsText breaks
  empty : block.nodes = []

/-- A block that may end as it is. -/
def Complete (fallback : String) (block : Block) : Prop :=
  (block.owner.enclose block.nodes.reverse).WellFormed fallback

variable {fallback : String} {block : Block}

theorem Open.complete (h : block.Open fallback) : block.Complete fallback :=
  Owner.wellFormed_enclose h.owner (by simpa using h.nodes)

theorem Open.add (h : block.Open fallback) {node : Node} (wf : node.WellFormed fallback) :
    Open fallback { block with nodes := node :: block.nodes } := by
  refine ⟨h.owner, ?_⟩
  intro other mem
  obtain rfl | mem := List.mem_cons.1 mem
  · exact wf
  · exact h.nodes other mem

end Block

namespace Builder

/-- The finished nodes are well formed, lines may go to every level, and `Pending` holds of the
block that awaits its width. -/
structure Sound (fallback : String) (Pending : Block → Prop) (b : Builder) : Prop where
  root : ∀ node ∈ b.root, node.WellFormed fallback
  levels : ∀ level ∈ b.levels, level.block.Open fallback
  awaiting : ∀ block ∈ b.awaiting, Pending block

variable {fallback : String} {P Q : Block → Prop} {b c : Builder}

theorem Sound.mono (h : b.Sound fallback P) (imp : ∀ block, P block → Q block) :
    b.Sound fallback Q :=
  ⟨h.root, h.levels, fun block mem => imp block (h.awaiting block mem)⟩

/-- Nothing is to be known of a block that is not there. -/
theorem Sound.idle (h : b.Sound fallback P) (idle : b.awaiting = none) : b.Sound fallback Q :=
  ⟨h.root, h.levels, by simp [idle]⟩

theorem sound_start : Sound fallback P {} := ⟨by simp, by simp, by simp⟩

theorem Sound.add (h : b.Sound fallback P) {node : Node} (wf : node.WellFormed fallback)
    (grow : ∀ block, P block → Q { block with nodes := node :: block.nodes }) :
    (b.add node).Sound fallback Q := by
  obtain ⟨root, levels, awaiting, log⟩ := b
  cases awaiting with
  | some block =>
    refine ⟨h.root, h.levels, ?_⟩
    simpa [Builder.add] using grow block (h.awaiting block rfl)
  | none =>
    cases levels with
    | nil =>
      refine ⟨?_, h.levels, by simp [Builder.add]⟩
      simpa [Builder.add] using ⟨wf, h.root⟩
    | cons level levels =>
      obtain ⟨top, rest⟩ := List.forall_mem_cons.1 h.levels
      refine ⟨h.root, ?_, by simp [Builder.add]⟩
      exact List.forall_mem_cons.2 ⟨top.add wf, rest⟩

theorem Sound.record (h : b.Sound fallback P) (event : Event) : (b.record event).Sound fallback P :=
  ⟨h.root, h.levels, h.awaiting⟩

theorem Sound.place (h : b.Sound fallback (Block.Open fallback)) {node : Node}
    (wf : node.WellFormed fallback) : (b.place node).Sound fallback (Block.Open fallback) :=
  (h.add wf fun _ opened => opened.add wf).record _

theorem Sound.placeBreaks (n : Nat) (h : b.Sound fallback P)
    (grow : ∀ block, P block →
      Q { block with nodes := List.replicate n .newline ++ block.nodes }) :
    (placeBreaks n b).Sound fallback Q := by
  induction n generalizing b P with
  | zero => exact h.mono grow
  | succ n ih =>
    refine ih (P := fun block => Q { block with
      nodes := List.replicate n .newline ++ block.nodes }) ?_ fun _ => id
    refine (h.add .newline fun block hp => ?_).record _
    have grown := grow block hp
    rwa [List.replicate_succ', List.append_assoc] at grown

theorem Sound.begin (h : b.Sound fallback P) {owner : Owner} (pending : Q ⟨owner, []⟩) :
    (b.begin owner).Sound fallback Q :=
  ⟨h.root, h.levels, by simpa [Builder.begin] using pending⟩

theorem Sound.beginOpen (h : b.Sound fallback P) {owner : Owner}
    (holds : owner.HoldsNodes fallback) : (b.begin owner).Sound fallback (Block.Open fallback) :=
  h.begin ⟨holds, by simp⟩

theorem Sound.closeAwaiting (h : b.Sound fallback (Block.Complete fallback)) :
    b.closeAwaiting.Sound fallback Q := by
  refine Sound.idle (P := Q) ?_ (awaiting_closeAwaiting b)
  unfold Builder.closeAwaiting
  split
  · next none => exact h.idle none
  · next block pending =>
    have bare : Sound fallback (fun _ => False) { b with awaiting := none } :=
      ⟨h.root, h.levels, by simp⟩
    exact (bare.add (h.awaiting block pending) fun _ absurd => absurd.elim).record _

theorem Sound.closeLevel (h : b.Sound fallback (Block.Open fallback)) :
    b.closeLevel.Sound fallback (Block.Open fallback) := by
  unfold Builder.closeLevel
  split
  · exact h
  · next level levels top =>
    have split := h.levels
    rw [top] at split
    obtain ⟨inner, outer⟩ := List.forall_mem_cons.1 split
    have rest : Sound fallback (Block.Open fallback) { b with levels := levels } :=
      ⟨h.root, outer, h.awaiting⟩
    exact (rest.add inner.complete fun _ opened => opened.add inner.complete).record _

theorem Sound.closeLevels (n : Nat) (h : b.Sound fallback (Block.Open fallback)) :
    (closeLevels n b).Sound fallback (Block.Open fallback) := by
  induction n generalizing b with
  | zero => exact h
  | succ n ih => exact ih h.closeLevel

/-- Fitting a line to the open blocks keeps a tree sound, if a deeper line only comes where it may
add any node. -/
theorem Sound.align (h : b.Sound fallback (Block.Complete fallback)) {width : Nat}
    (deeper : b.width < width → b.Sound fallback (Block.Open fallback)) {moved : Bool}
    (fit : b.align width = .ok (c, moved)) : c.Sound fallback (Block.Open fallback) := by
  obtain ⟨block, inside, pending, -, rfl⟩ | ⟨-, rfl, -, -⟩ := align_cases fit
  · have opened := deeper inside
    refine ⟨h.root, ?_, by simp⟩
    exact List.forall_mem_cons.2 ⟨opened.awaiting block pending, opened.levels⟩
  · exact h.closeAwaiting.closeLevels _

theorem Sound.tree (h : b.Sound fallback (Block.Complete fallback)) :
    ∃ nodes, b.closeAll.tree = .multi nodes ∧ ∀ node ∈ nodes, node.WellFormed fallback := by
  refine ⟨_, rfl, ?_⟩
  have closed : b.closeAll.Sound fallback (Block.Open fallback) := h.closeAwaiting.closeLevels _
  simpa using closed.root

end Builder

end TemplateMarkup
