/-! When a computation that may be refused gives a result, and when it is refused. -/
namespace TemplateMarkup

variable {ε ε' α β : Type} {x : Except ε α} {wrap : ε → ε'} {f : α → Except ε β} {a : α} {b : β}
  {fault : ε} {fault' : ε'}

theorem bind_eq_ok : x >>= f = .ok b ↔ ∃ a, x = .ok a ∧ f a = .ok b := by
  cases x <;> simp [bind, Except.bind]

theorem bind_eq_error :
    x >>= f = .error fault ↔ x = .error fault ∨ ∃ a, x = .ok a ∧ f a = .error fault := by
  cases x <;> simp [bind, Except.bind]

theorem mapError_eq_ok : x.mapError wrap = .ok a ↔ x = .ok a := by
  cases x with
  | error other => constructor <;> rintro ⟨⟩
  | ok value => constructor <;> rintro ⟨⟩ <;> rfl

theorem mapError_eq_error :
    x.mapError wrap = .error fault' ↔ ∃ fault, x = .error fault ∧ wrap fault = fault' := by
  cases x with
  | error other =>
    constructor
    · rintro ⟨⟩
      exact ⟨other, rfl, rfl⟩
    · rintro ⟨_, ⟨⟩, rfl⟩
      rfl
  | ok value =>
    constructor
    · rintro ⟨⟩
    · rintro ⟨_, ⟨⟩, _⟩

theorem map_eq_ok {g : α → β} : x.map g = .ok b ↔ ∃ a, x = .ok a ∧ g a = b := by
  cases x <;> simp [Except.map]

theorem map_eq_error {g : α → β} : x.map g = .error fault ↔ x = .error fault := by
  cases x <;> simp [Except.map]

end TemplateMarkup
