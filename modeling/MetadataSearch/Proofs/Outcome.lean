/-!
# Outcomes that are no errors

What a computation that may fail went through when it did not: `bind_eq_ok` takes a sequence apart,
so that no proof has to look into the steps of it.
-/

namespace MetadataSearch.Outcome

variable {ε ε' α β : Type} {outcome : Except ε α}

theorem bind_eq_ok {next : α → Except ε β} {b : β} :
    (outcome >>= next) = .ok b ↔ ∃ a, outcome = .ok a ∧ next a = .ok b := by
  constructor
  · intro h
    cases outcome with
    | error e => cases h
    | ok a => exact ⟨a, rfl, h⟩
  · rintro ⟨a, rfl, h⟩
    exact h

theorem bind_eq_error {next : α → Except ε β} {e : ε} :
    (outcome >>= next) = .error e ↔ outcome = .error e ∨ ∃ a, outcome = .ok a ∧ next a = .error e := by
  cases outcome with
  | error e' => simp [bind, Except.bind]
  | ok a => simp [bind, Except.bind]

theorem map_eq_ok {f : α → β} {b : β} :
    outcome.map f = .ok b ↔ ∃ a, outcome = .ok a ∧ f a = b := by
  constructor
  · intro h
    cases outcome with
    | error e => cases h
    | ok a => exact ⟨a, rfl, Except.ok.inj h⟩
  · rintro ⟨a, rfl, rfl⟩
    rfl

theorem map_eq_error {f : α → β} {e : ε} : outcome.map f = .error e ↔ outcome = .error e := by
  cases outcome with
  | error e' => exact ⟨fun h => congrArg Except.error (Except.error.inj h), fun h => (by cases h; rfl)⟩
  | ok a => exact ⟨fun h => (by cases h), fun h => (by cases h)⟩

theorem mapError_eq_ok {f : ε → ε'} {a : α} : outcome.mapError f = .ok a ↔ outcome = .ok a := by
  constructor
  · intro h
    cases outcome with
    | error e => cases h
    | ok b => exact congrArg Except.ok (Except.ok.inj h)
  · rintro rfl
    rfl

theorem toOption_eq_some {a : α} : outcome.toOption = some a ↔ outcome = .ok a := by
  cases outcome with
  | error e => exact ⟨fun h => (by cases h), fun h => (by cases h)⟩
  | ok b => exact ⟨fun h => congrArg Except.ok (Option.some.inj h), fun h => (by cases h; rfl)⟩

end MetadataSearch.Outcome
