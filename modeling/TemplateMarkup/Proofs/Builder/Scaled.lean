import Mathlib.Order.Monotone.Basic
import TemplateMarkup.Proofs.Builder.Align

/-! Only the order of widths matters to a tree. If every width is changed by a function that keeps
their order, each move on the tree comes to the same with the changed widths. -/
namespace TemplateMarkup

def Level.scale (f : Nat → Nat) (level : Level) : Level := { level with width := f level.width }

def Event.scale (f : Nat → Nat) : Event → Event
  | dispatched number width text => dispatched number (f width) text
  | placed node => placed node
  | opened owner depth => opened owner depth
  | closed depth => closed depth

namespace Builder

/-- The tree with other widths. -/
def scale (f : Nat → Nat) (b : Builder) : Builder :=
  { b with levels := b.levels.map (Level.scale f), log := b.log.map (Event.scale f) }

def Misfit.scale (f : Nat → Nat) (misfit : Misfit) : Misfit :=
  { misfit with log := misfit.log.map (Event.scale f) }

variable {f : Nat → Nat} (b : Builder)

@[simp] theorem awaiting_scale : (b.scale f).awaiting = b.awaiting := rfl

@[simp] theorem length_levels_scale : (b.scale f).levels.length = b.levels.length :=
  List.length_map _

theorem depth_scale : (b.scale f).depth = b.depth := by
  rw [depth, depth, awaiting_scale, length_levels_scale]

theorem scale_record (event : Event) : (b.record event).scale f = (b.scale f).record (event.scale f) :=
  rfl

theorem scale_add (node : Node) : (b.add node).scale f = (b.scale f).add node := by
  obtain ⟨root, levels, awaiting, log⟩ := b
  cases awaiting <;> cases levels <;> rfl

theorem scale_place (node : Node) : (b.place node).scale f = (b.scale f).place node := by
  rw [place, scale_record, scale_add]
  rfl

theorem scale_placeBreaks (n : Nat) : (placeBreaks n b).scale f = placeBreaks n (b.scale f) := by
  induction n generalizing b with
  | zero => rfl
  | succ n ih => rw [placeBreaks, ih, scale_place, placeBreaks]

theorem scale_begin (owner : Owner) : (b.begin owner).scale f = (b.scale f).begin owner := by
  simp [begin, scale, record, depth, Event.scale]

theorem scale_finish (block : Block) : (b.finish block).scale f = (b.scale f).finish block := by
  rw [finish, finish, scale_record, ← scale_add, depth_scale]
  rfl

theorem scale_closeAwaiting : b.closeAwaiting.scale f = (b.scale f).closeAwaiting := by
  obtain ⟨root, levels, awaiting, log⟩ := b
  cases awaiting with
  | none => rfl
  | some block => exact scale_finish _ block

theorem scale_closeLevel : b.closeLevel.scale f = (b.scale f).closeLevel := by
  obtain ⟨root, levels, awaiting, log⟩ := b
  cases levels with
  | nil => rfl
  | cons level levels => exact scale_finish _ level.block

theorem scale_closeLevels (n : Nat) : (closeLevels n b).scale f = closeLevels n (b.scale f) := by
  induction n generalizing b with
  | zero => rfl
  | succ n ih => rw [closeLevels, ih, scale_closeLevel, closeLevels]

theorem scale_closeAll : b.closeAll.scale f = (b.scale f).closeAll := by
  rw [closeAll, scale_closeLevels, scale_closeAwaiting, closeAll, length_levels_scale]

theorem width_scale (zero : f 0 = 0) : (b.scale f).width = f b.width := by
  obtain ⟨root, levels, awaiting, log⟩ := b
  cases levels with
  | nil => exact zero.symm
  | cons level levels => rfl

theorem scale_cutTo (mono : StrictMono f) (width : Nat) :
    (b.cutTo width).scale f = (b.scale f).cutTo (f width) := by
  have deeper : ((b.levels.map (Level.scale f)).takeWhile (f width < ·.width)).length =
      (b.levels.takeWhile (width < ·.width)).length := by
    rw [List.takeWhile_map, List.length_map]
    simp [Function.comp_def, Level.scale, mono.lt_iff_lt]
  rw [cutTo, scale_closeLevels, scale_closeAwaiting, cutTo, ← deeper]
  rfl

/-- A line of the changed width fits where the line did, and is refused for the same cause. -/
theorem align_scale (mono : StrictMono f) (zero : f 0 = 0) (width : Nat) :
    (b.scale f).align (f width) =
      ((b.align width).map (Prod.map (scale f) id)).mapError (Misfit.scale f) := by
  unfold align
  rw [width_scale b zero, awaiting_scale, ← cutTo, ← cutTo, ← scale_cutTo b mono]
  simp only [width_scale _ zero, mono.lt_iff_lt, mono.injective.eq_iff]
  split
  · cases b.awaiting with
    | none => rfl
    | some block => rfl
  · split <;> rfl

end Builder

end TemplateMarkup
