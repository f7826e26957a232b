import TemplateMarkup.Tag.Attributes

/-! The attributes of one line, told one by one: what the reader of attributes comes to if it
succeeds, and that only the reader of a value makes it fail. -/
namespace TemplateMarkup

variable {close : Option Char} {cs rest : List Char} {attrs : List Attr} {snag : Snag}

/-- Attributes stand one behind the other, each a name alone or a name with a value, up to a text
that starts with no name. -/
inductive ReadsAttributes (close : Option Char) : List Char → List Attr → List Char → Prop
  | done {cs : List Char} (nameless : readName cs = none) :
      ReadsAttributes close cs [] (trimLeft cs)
  | valued {cs name after value tail rest : List Char} {attrs : List Attr}
      (named : readName cs = some (name, '=' :: after))
      (given : readValue close (trimLeft after) = .ok (value, tail))
      (onward : ReadsAttributes close tail attrs rest) :
      ReadsAttributes close cs
        (.valued (String.ofList name) (.interpolate (String.ofList value)) :: attrs) rest
  | flag {cs name left rest : List Char} {attrs : List Attr}
      (named : readName cs = some (name, left)) (bare : ∀ after, left ≠ '=' :: after)
      (onward : ReadsAttributes close left attrs rest) :
      ReadsAttributes close cs (.flag (String.ofList name) :: attrs) rest

/-- The reader of attributes without the proofs that it ends, so that what it reads can be
rewritten. -/
theorem readAttributes_eq (close : Option Char) (cs : List Char) :
    readAttributes close cs =
      match readName cs with
      | none => .ok ([], trimLeft cs)
      | some (name, '=' :: after) =>
        match readValue close (trimLeft after) with
        | .error snag => .error snag
        | .ok (value, tail) => do
          let (attrs, rest) ← readAttributes close tail
          return (.valued (String.ofList name) (.interpolate (String.ofList value)) :: attrs, rest)
      | some (name, rest) => do
        let (attrs, rest) ← readAttributes close rest
        return (.flag (String.ofList name) :: attrs, rest) := by
  conv => lhs; rw [readAttributes]
  split
  · next found => rw [found]
  · next found =>
    rw [found]
    split
    · next failed => simp only [failed]
    · next read => simp only [read]
  · next other found =>
    rw [found]
    split
    · next same => cases same
    · next same =>
      cases same
      exact absurd rfl (other _)
    · next same =>
      cases same
      rfl

theorem readAttributes_iff :
    readAttributes close cs = .ok (attrs, rest) ↔ ReadsAttributes close cs attrs rest := by
  constructor
  · intro read
    fun_induction readAttributes close cs generalizing attrs rest with
    | case1 cs nameless =>
      cases read
      exact .done nameless
    | case2 => cases read
    | case3 cs name after named value tail given ih =>
      cases behind : readAttributes close tail with
      | error snag =>
        rw [behind] at read
        cases read
      | ok result =>
        rw [behind] at read
        cases read
        exact .valued named given (ih behind)
    | case4 cs name left bare named ih =>
      cases behind : readAttributes close left with
      | error snag =>
        rw [behind] at read
        cases read
      | ok result =>
        rw [behind] at read
        cases read
        exact .flag named bare (ih behind)
  · intro listed
    induction listed with
    | done nameless => rw [readAttributes_eq, nameless]
    | valued named given onward ih =>
      rw [readAttributes_eq, named]
      simp only [given, ih]
      rfl
    | flag named bare onward ih =>
      rw [readAttributes_eq, named]
      split
      · next same => cases same
      · next same =>
        obtain ⟨-, rfl⟩ := Prod.mk.inj (Option.some.inj same)
        exact absurd rfl (bare _)
      · next same =>
        cases same
        rw [ih]
        rfl

/-- What is refused is a value. -/
theorem exists_refused_value (h : readAttributes close cs = .error snag) :
    ∃ text, readValue close text = .error snag := by
  fun_induction readAttributes close cs with
  | case1 => cases h
  | case2 cs name after named refused value =>
    cases h
    exact ⟨_, value⟩
  | case3 cs name after named value tail given ih =>
    cases read : readAttributes close tail with
    | error refused =>
      rw [read] at h
      cases h
      exact ih read
    | ok result =>
      rw [read] at h
      cases h
  | case4 cs name left bare named ih =>
    cases read : readAttributes close left with
    | error refused =>
      rw [read] at h
      cases h
      exact ih read
    | ok result =>
      rw [read] at h
      cases h

end TemplateMarkup
