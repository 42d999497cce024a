/-
**Loops.**

A loop runs its body as long as its condition holds.

* `Ends`: the loop comes to its last state.
* `runFor`: the loop, given up after so many tests of its condition. The loop ends exactly if some
  number of tests is enough (`ends_iff_runFor`).
* `runFor_some`: the rule for a loop that ends, from an invariant and a measure that every round
  lowers.
* `not_ends`: the rule for a loop that does not, from an invariant under which the condition holds.
-/

import Mathlib.Logic.Basic

namespace Foundation

/-- The condition of a loop, and what one round makes of the state. -/
structure Loop (State : Type) where
  continues : State → Prop
  round : State → State

namespace Loop

variable {State : Type} {loop : Loop State} {state final : State}

/-- The loop that is started in the one state ends in the other. -/
inductive Ends (loop : Loop State) : State → State → Prop
  | stop {state : State} : ¬ loop.continues state → Ends loop state state
  | round {state final : State} : loop.continues state → Ends loop (loop.round state) final →
      Ends loop state final

/-- **A loop whose condition always holds** does not end. -/
theorem not_ends (I : State → Prop)
    (keeps : ∀ state, I state → loop.continues state ∧ I (loop.round state)) (start : I state) :
    ¬ loop.Ends state final := by
  intro ends
  induction ends with
  | stop stops => exact stops (keeps _ start).1
  | round _ _ ih => exact ih (keeps _ start).2

/-! ### With so many tests of the condition -/

section Fuel

variable (loop) [DecidablePred loop.continues]

def runFor : Nat → State → Option State
  | 0, _ => none
  | fuel + 1, state => if loop.continues state then runFor fuel (loop.round state) else some state

variable {loop}

theorem Ends.runFor (ends : loop.Ends state final) :
    ∃ fuel, loop.runFor fuel state = some final := by
  induction ends with
  | stop stops => exact ⟨1, if_neg stops⟩
  | round continues _ ih =>
      obtain ⟨fuel, run⟩ := ih
      exact ⟨fuel + 1, (if_pos continues).trans run⟩

theorem ends_of_runFor {fuel : Nat} (run : loop.runFor fuel state = some final) :
    loop.Ends state final := by
  induction fuel generalizing state with
  | zero => cases run
  | succ fuel ih =>
      rw [Loop.runFor] at run
      by_cases continues : loop.continues state
      · rw [if_pos continues] at run
        exact .round continues (ih run)
      · rw [if_neg continues] at run
        cases run
        exact .stop continues

/-- **The loop ends** exactly if it comes to its end with so many tests. -/
theorem ends_iff_runFor : loop.Ends state final ↔ ∃ fuel, loop.runFor fuel state = some final :=
  ⟨Ends.runFor, fun ⟨_, run⟩ => ends_of_runFor run⟩

/-- **An invariant and a measure**: the loop ends within the measure, where the invariant holds and
the condition does not. -/
theorem runFor_some {I : State → Prop} (measure : State → Nat)
    (keeps : ∀ state, I state → loop.continues state →
      I (loop.round state) ∧ measure (loop.round state) < measure state)
    (fuel : Nat) (start : I state) (enough : measure state ≤ fuel) :
    ∃ final, loop.runFor (fuel + 1) state = some final ∧ I final ∧ ¬ loop.continues final := by
  induction fuel generalizing state with
  | zero =>
      have stops : ¬ loop.continues state := by
        intro continues
        have lower := (keeps state start continues).2
        omega
      exact ⟨state, if_neg stops, start, stops⟩
  | succ fuel ih =>
      by_cases continues : loop.continues state
      · obtain ⟨kept, lower⟩ := keeps state start continues
        obtain ⟨final, run, atEnd⟩ := ih kept (by omega)
        exact ⟨final, (if_pos continues).trans run, atEnd⟩
      · exact ⟨state, if_neg continues, start, continues⟩

/-- With any number of tests a loop that does not end is given up. -/
theorem runFor_none (never : ∀ final, ¬ loop.Ends state final) (fuel : Nat) :
    loop.runFor fuel state = none := by
  cases run : loop.runFor fuel state with
  | none => rfl
  | some final => exact absurd (ends_of_runFor run) (never final)

end Fuel

end Loop

end Foundation
