import Mathlib.Tactic

/-!
# Computations that may fail

Taking apart a computation of `Except` that has returned.
-/

namespace TibiaGame.Library.Outcome

universe u v

variable {Error : Type u} {Result Final : Type v}

theorem bind_ok {first : Except Error Result} {next : Result → Except Error Final}
    {final : Final} : (first >>= next) = .ok final ↔
      ∃ result, first = .ok result ∧ next result = .ok final := by
  rcases first with halt | result
  · constructor
    · nofun
    · rintro ⟨result, returned, _⟩
      cases returned
  constructor
  · intro returned
    exact ⟨result, rfl, returned⟩
  · rintro ⟨other, same, returned⟩
    cases same
    exact returned

theorem map_ok {first : Except Error Result} {change : Result → Final} {final : Final} :
    first.map change = .ok final ↔ ∃ result, first = .ok result ∧ change result = final := by
  cases first with
  | error halt => simp [Except.map]
  | ok result => simp [Except.map]

@[simp] theorem ok_bind (result : Result) (next : Result → Except Error Final) :
    (Except.ok result >>= next) = next result := rfl

@[simp] theorem error_bind (error : Error) (next : Result → Except Error Final) :
    (Except.error error >>= next) = .error error := rfl

end TibiaGame.Library.Outcome
