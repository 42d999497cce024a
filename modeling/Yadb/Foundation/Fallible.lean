/-
**Calls that may fail.**

What a sequence of calls that succeeded says about its parts.
-/

import Mathlib.Logic.Basic

namespace Foundation

variable {Error Error' First Second : Type}

theorem ok_bind (first : First) (next : First → Except Error Second) :
    (Except.ok first >>= next) = next first := rfl

theorem bind_of_ok {result : Except Error First} {first : First} (ok : result = .ok first)
    (next : First → Except Error Second) : (result >>= next) = next first := by
  rw [ok]
  rfl

/-- What a step that succeeded returned, and that the rest succeeded on it. -/
theorem of_bind_ok {result : Except Error First} {next : First → Except Error Second}
    {second : Second} (ok : (result >>= next) = .ok second) :
    ∃ first, result = .ok first ∧ next first = .ok second := by
  cases result with
  | error error => cases ok
  | ok first => exact ⟨first, rfl, ok⟩

/-- Where a sequence of calls failed. -/
theorem of_bind_error {result : Except Error First} {next : First → Except Error Second}
    {error : Error} (failed : (result >>= next) = .error error) :
    result = .error error ∨ ∃ first, result = .ok first ∧ next first = .error error := by
  cases result with
  | error error' =>
      cases failed
      exact Or.inl rfl
  | ok first => exact Or.inr ⟨first, rfl, failed⟩

theorem of_mapError_ok {result : Except Error First} {change : Error → Error'} {first : First}
    (ok : result.mapError change = .ok first) : result = .ok first := by
  cases result with
  | error error => cases ok
  | ok first' =>
      cases ok
      rfl

theorem of_map_ok {result : Except Error First} {change : First → Second} {second : Second}
    (ok : result.map change = .ok second) : ∃ first, result = .ok first ∧ change first = second := by
  cases result with
  | error error => cases ok
  | ok first => exact ⟨first, rfl, Except.ok.inj ok⟩

end Foundation
