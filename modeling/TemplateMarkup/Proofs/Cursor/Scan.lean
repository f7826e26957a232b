import TemplateMarkup.Proofs.Cursor.Bytes
import TemplateMarkup.Reading.State

/-! Scans of a line by a cursor that stands at a byte position. A scan goes wrong if it cuts a text
within a character or behind its end. Each cut, each move of the cursor and each sum of columns is
written down, so that it can be told what all of them are like. -/
namespace TemplateMarkup

/-- A position in a line; what stands in front of it is read. -/
structure Cursor where
  line : Line := []
  position : Nat := 0
  deriving DecidableEq

namespace Cursor

/-- The cursor that has `rest` ahead. -/
def before (line : Line) (rest : List Char) : Cursor := ⟨line, byteSize line - byteSize rest⟩

/-- Moves on by some bytes, at most to the end of the line. -/
def move (c : Cursor) (size : Nat) : Cursor :=
  { c with position := min (c.position + size) (byteSize c.line) }

end Cursor

inductive Touch where
  /-- A text was cut at a byte position. -/
  | cut (text : List Char) (position : Nat)
  /-- The cursor moved on by some bytes. -/
  | move (cursor : Cursor) (size : Nat)
  /-- Columns were added up to some number, which a machine word may not hold. -/
  | sum (columns : Nat)
  deriving DecidableEq

/-- A text was cut between characters, and a cursor moved over whole characters that it had ahead.
It got as far as it was to, so what it has read and what it has ahead are the line. -/
def Touch.OnBoundary : Touch → Prop
  | cut text position => IsBoundary text position
  | move cursor size => ∃ consumed passed rest, cursor.line = consumed ++ passed ++ rest ∧
      cursor.position = byteSize consumed ∧ size = byteSize passed ∧
      (cursor.move size).position = cursor.position + size
  | sum _ => True

/-- Nothing went wrong with a text, and columns stay within some limit. -/
structure Touch.Sound (limit : Nat → Prop) (touch : Touch) : Prop where
  boundary : touch.OnBoundary
  within : ∀ columns, touch = .sum columns → limit columns

/-- What a scan did, in order, and its result, if it did not go wrong. -/
structure Trace (α : Type) where
  touches : List Touch
  result : Option (Except Halt α)

def Scan (α : Type) : Type := Cursor → Trace (α × Cursor)

namespace Scan

def andThen {α β : Type} (m : Scan α) (f : α → Scan β) : Scan β := fun c =>
  match m c with
  | ⟨touches, some (.ok (a, c))⟩ => ⟨touches ++ (f a c).touches, (f a c).result⟩
  | ⟨touches, some (.error halt)⟩ => ⟨touches, some (.error halt)⟩
  | ⟨touches, none⟩ => ⟨touches, none⟩

instance : Monad Scan where
  pure a := fun c => ⟨[], some (.ok (a, c))⟩
  bind := andThen

/-- Goes on to the start of a line. -/
def enter (line : Line) : Scan Unit := fun _ => ⟨[], some (.ok ((), ⟨line, 0⟩))⟩

def advance (size : Nat) : Scan Unit := fun c => ⟨[.move c size], some (.ok ((), c.move size))⟩

/-- A text up to a byte position and from there on. -/
def cut (text : List Char) (position : Nat) : Scan (List Char × List Char) := fun c =>
  ⟨[.cut text position], (cutAt? position text).map fun parts => .ok (parts, c)⟩

def current : Scan Line := fun c => ⟨[], some (.ok (c.line, c))⟩

/-- What is read of the line and what the cursor has ahead. -/
def parts : Scan (List Char × List Char) := fun c => cut c.line c.position c

def consumed : Scan (List Char) := do return (← parts).1

def ahead : Scan (List Char) := do return (← parts).2

/-- The sum of two numbers of columns, as far as a machine word holds it. -/
def sum (word : Nat → Nat) (m n : Nat) : Scan Nat := fun c =>
  ⟨[.sum (m + n)], some (.ok (word (m + n), c))⟩

def answer {α : Type} (outcome : Except Halt α) : Scan α := fun c =>
  ⟨[], some (outcome.map fun a => (a, c))⟩

/-- Fails where the cursor stands. -/
def refuse {α : Type} (cause : Cause) (number : Nat) (log : List Event) : Scan α := do
  let line ← current
  let front ← consumed
  answer (.error ⟨⟨cause, number, line, front.length⟩, log⟩)

def skipWhite : Scan Unit := do
  let cs ← ahead
  advance (byteSize cs - byteSize (trimLeft cs))

def skipLine : Scan Unit := do
  let cs ← ahead
  advance (byteSize cs)

/-- Repeats a scan as long as it finds something. It goes wrong if that never ends within some
rounds. -/
def whileFound {α : Type} (body : Scan (Option α)) : (rounds : Nat) → Scan (List α)
  | 0 => fun _ => ⟨[], none⟩
  | rounds + 1 => do
    match ← body with
    | none => return []
    | some a =>
      let found ← whileFound body rounds
      return a :: found

/-- From some cursor a scan has some result, and what it does is sound. -/
structure Gives {α : Type} (limit : Nat → Prop) (m : Scan α) (c : Cursor)
    (r : Except Halt (α × Cursor)) : Prop where
  sound : ∀ touch ∈ (m c).touches, touch.Sound limit
  result : (m c).result = some r

section Rules

variable {α β : Type} {limit wider : Nat → Prop} {m : Scan α} {f : α → Scan β} {c d : Cursor}
  {a : α}

theorem Gives.mono {r : Except Halt (α × Cursor)} (h : Gives limit m c r)
    (wide : ∀ n, limit n → wider n) : Gives wider m c r where
  sound touch mem := by
    obtain ⟨boundary, within⟩ := h.sound touch mem
    exact ⟨boundary, fun columns same => wide _ (within columns same)⟩
  result := h.result

theorem sound_single {touch : Touch} (sound : touch.Sound limit) :
    ∀ other ∈ [touch], other.Sound limit := by
  intro other mem
  rw [List.mem_singleton.1 mem]
  exact sound

theorem gives_pure (limit : Nat → Prop) (a : α) (c : Cursor) :
    Gives limit (pure a) c (.ok (a, c)) :=
  ⟨fun _ mem => absurd mem List.not_mem_nil, rfl⟩

theorem gives_answer (limit : Nat → Prop) (outcome : Except Halt α) (c : Cursor) :
    Gives limit (answer outcome) c (outcome.map fun a => (a, c)) :=
  ⟨fun _ mem => absurd mem List.not_mem_nil, rfl⟩

theorem gives_current (limit : Nat → Prop) (c : Cursor) :
    Gives limit current c (.ok (c.line, c)) :=
  ⟨fun _ mem => absurd mem List.not_mem_nil, rfl⟩

theorem Gives.bind {r : Except Halt (β × Cursor)} (first : Gives limit m c (.ok (a, d)))
    (second : Gives limit (f a) d r) : Gives limit (m >>= f) c r := by
  obtain ⟨sound, result⟩ := first
  change Gives limit (m.andThen f) c r
  generalize hm : m c = trace at sound result
  obtain ⟨touches, result⟩ := trace
  cases result
  constructor
  · intro touch mem
    rw [andThen, hm] at mem
    obtain here | later := List.mem_append.1 mem
    · exact sound touch here
    · exact second.sound touch later
  · rw [andThen, hm]
    exact second.result

theorem Gives.bind_error {halt : Halt} (first : Gives limit m c (.error halt)) :
    Gives limit (m >>= f) c (.error halt) := by
  obtain ⟨sound, result⟩ := first
  change Gives limit (m.andThen f) c (.error halt)
  generalize hm : m c = trace at sound result
  obtain ⟨touches, result⟩ := trace
  cases result
  constructor
  · intro touch mem
    rw [andThen, hm] at mem
    exact sound touch mem
  · rw [andThen, hm]

theorem Gives.map {g : α → β} (h : Gives limit m c (.ok (a, d))) :
    Gives limit (do return g (← m)) c (.ok (g a, d)) :=
  h.bind (gives_pure limit (g a) d)

end Rules

section Steps

variable (limit : Nat → Prop) {line : Line} {front rest text : List Char}

theorem gives_enter (line : Line) (c : Cursor) :
    Gives limit (enter line) c (.ok ((), .before line line)) := by
  refine ⟨fun _ mem => absurd mem List.not_mem_nil, ?_⟩
  rw [enter, Cursor.before, Nat.sub_self]

theorem gives_cut (same : text = front ++ rest) (c : Cursor) :
    Gives limit (cut text (byteSize front)) c (.ok ((front, rest), c)) := by
  subst same
  refine ⟨sound_single ⟨⟨front, rest, rfl, rfl⟩, fun _ same => nomatch same⟩, ?_⟩
  rw [cut, cutAt?_append]
  rfl

theorem gives_parts (left : rest <:+ line) :
    Gives limit parts (.before line rest) (.ok ((frontOf line rest, rest), .before line rest)) := by
  have here : (Cursor.before line rest).position = byteSize (frontOf line rest) :=
    (byteSize_frontOf left).symm
  have given := gives_cut limit (frontOf_append left).symm (.before line rest)
  rw [← here] at given
  exact ⟨given.sound, given.result⟩

theorem gives_consumed (left : rest <:+ line) :
    Gives limit consumed (.before line rest) (.ok (frontOf line rest, .before line rest)) :=
  (gives_parts _ left).map

theorem gives_ahead (left : rest <:+ line) :
    Gives limit ahead (.before line rest) (.ok (rest, .before line rest)) :=
  (gives_parts _ left).map

theorem gives_advance (passed rest : List Char) (left : passed ++ rest <:+ line) :
    Gives limit (advance (byteSize passed)) (.before line (passed ++ rest))
      (.ok ((), .before line rest)) := by
  obtain ⟨consumed, rfl⟩ := left
  have here : (Cursor.before (consumed ++ (passed ++ rest)) (passed ++ rest)).position =
      byteSize consumed := by
    simp [Cursor.before]
  have there : Cursor.move (.before (consumed ++ (passed ++ rest)) (passed ++ rest))
      (byteSize passed) = .before (consumed ++ (passed ++ rest)) rest := by
    simp only [Cursor.move, Cursor.before, byteSize_append, Cursor.mk.injEq, true_and]
    omega
  refine ⟨sound_single
    ⟨⟨consumed, passed, rest, ?_, here, rfl, ?_⟩, fun _ same => nomatch same⟩, ?_⟩
  · exact (List.append_assoc consumed passed rest).symm
  · rw [there, here]
    simp only [Cursor.before, byteSize_append]
    omega
  · rw [advance, there]

/-- A cursor moves on to any later part of what it has ahead. -/
theorem gives_advance_to {cs : List Char} (inside : cs <:+ line) (left : rest <:+ cs) :
    Gives limit (advance (byteSize (frontOf cs rest))) (.before line cs)
      (.ok ((), .before line rest)) := by
  have whole := frontOf_append left
  have given := gives_advance limit (frontOf cs rest) rest (whole.symm ▸ inside)
  rwa [whole] at given

theorem gives_advance_char {c : Char} {size : Nat} (one : size = c.utf8Size)
    (left : c :: rest <:+ line) :
    Gives limit (advance size) (.before line (c :: rest)) (.ok ((), .before line rest)) := by
  have given := gives_advance limit [c] rest left
  rwa [byteSize_cons, byteSize_nil, Nat.add_zero, ← one] at given

theorem gives_refuse {α : Type} (left : rest <:+ line) (cause : Cause) (number : Nat)
    (log : List Event) :
    Gives limit (refuse cause number log : Scan α) (.before line rest)
      (.error ⟨.before cause number line rest, log⟩) := by
  have column : (frontOf line rest).length = line.length - rest.length := by
    rw [frontOf, List.length_take]
    omega
  refine (gives_current _ _).bind ((gives_consumed _ left).bind ?_)
  rw [column]
  exact gives_answer limit _ _

theorem gives_skipWhite (left : rest <:+ line) :
    Gives limit skipWhite (.before line rest) (.ok ((), .before line (trimLeft rest))) := by
  have moved := gives_advance_to limit left (trimLeft_suffix rest)
  rw [byteSize_frontOf (trimLeft_suffix rest)] at moved
  exact (gives_ahead _ left).bind moved

theorem gives_skipLine (left : rest <:+ line) :
    Gives limit skipLine (.before line rest) (.ok ((), .before line [])) := by
  have inside : rest ++ [] <:+ line := by rwa [List.append_nil]
  have moved := gives_advance limit rest [] inside
  rw [List.append_nil] at moved
  exact (gives_ahead _ left).bind moved

end Steps

end Scan

end TemplateMarkup
