import Mathlib.Data.List.TakeWhile
import TemplateMarkup.Text.Indent

/-! Spans: the longest start of a text that lies within a class of characters ends where the class
stops. -/
namespace TemplateMarkup

variable {p q : Char → Bool} {cs rest : List Char}

/-- The text does not go on within a class of characters. -/
def Stops (p : Char → Bool) (rest : List Char) : Prop := ∀ c ∈ rest.head?, p c = false

@[simp] theorem stops_nil : Stops p [] := by simp [Stops]

@[simp] theorem stops_cons {c : Char} : Stops p (c :: rest) ↔ p c = false := by simp [Stops]

instance (p : Char → Bool) : (rest : List Char) → Decidable (Stops p rest)
  | [] => isTrue stops_nil
  | _ :: _ => decidable_of_iff _ stops_cons.symm

/-- A text that does not go on within a class goes on within no part of it. -/
theorem Stops.of_imp (stop : Stops p rest) (part : ∀ c, q c = true → p c = true) :
    Stops q rest := by
  intro c hc
  have outside := stop c hc
  cases h : q c with
  | false => rfl
  | true =>
    rw [part c h] at outside
    cases outside

theorem Stops.takeWhile_eq_nil (stop : Stops p rest) : rest.takeWhile p = [] := by
  cases rest with
  | nil => rfl
  | cons c rest => rw [List.takeWhile_cons_of_neg (by simp [stops_cons.1 stop])]

theorem Stops.dropWhile_eq_self (stop : Stops p rest) : rest.dropWhile p = rest := by
  cases rest with
  | nil => rfl
  | cons c rest => rw [List.dropWhile_cons_of_neg (by simp [stops_cons.1 stop])]

theorem takeWhile_append_of_stops (inside : ∀ c ∈ cs, p c = true) (stop : Stops p rest) :
    (cs ++ rest).takeWhile p = cs := by
  rw [List.takeWhile_append_of_pos inside, stop.takeWhile_eq_nil, List.append_nil]

theorem dropWhile_append_of_stops (inside : ∀ c ∈ cs, p c = true) (stop : Stops p rest) :
    (cs ++ rest).dropWhile p = rest := by
  rw [List.dropWhile_append_of_pos inside, stop.dropWhile_eq_self]

/-- A span that ends within a text, or at the latest behind it, ends there whatever else follows. -/
theorem Stops.dropWhile_append (stop : Stops p rest) (cs : List Char) :
    (cs ++ rest).dropWhile p = cs.dropWhile p ++ rest := by
  induction cs with
  | nil => exact stop.dropWhile_eq_self
  | cons c cs ih =>
    rw [List.cons_append, List.dropWhile_cons, List.dropWhile_cons]
    split
    · exact ih
    · rfl

theorem Stops.takeWhile_append (stop : Stops p rest) (cs : List Char) :
    (cs ++ rest).takeWhile p = cs.takeWhile p := by
  induction cs with
  | nil => exact stop.takeWhile_eq_nil
  | cons c cs ih =>
    rw [List.cons_append, List.takeWhile_cons, List.takeWhile_cons, ih]

/-- What starts with no white space has none to be trimmed. -/
theorem Stops.trimLeft_eq_self (stop : Stops isWhite rest) : trimLeft rest = rest :=
  stop.dropWhile_eq_self

theorem columnsOf_eq_none {c : Char} (text : isIndent c = false) (tab : Nat) :
    columnsOf tab c = none := by
  unfold columnsOf
  split
  · cases text
  · cases text
  · rfl

theorem Stops.indentWidth_eq_zero (stop : Stops isIndent rest) (tab : Nat) :
    indentWidth tab rest = 0 := by
  cases rest with
  | nil => rfl
  | cons c rest => rw [indentWidth, columnsOf_eq_none (stops_cons.1 stop)]

end TemplateMarkup
