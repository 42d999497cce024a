/-
**Programs that ask, and what answers them.**

A program asks one request after the other, each depending on the answers so far, and ends with a
result or stops. A handler answers requests in a state of its own, or stops the program.

* `run_bind`: a program that goes on from another runs after it.
* `Within`: every request of a run meets a guard on the state it is asked in; `within_bind`.
* `run_keeps`: what the answers keep, a run keeps.
* `run_sound`, `run_complete`: a simulation of one handler by another, request by request, carries
  over to every program within the guard.
-/

import Yadb.Foundation.Fallible

namespace Foundation

/-- A program over requests of a type, whose answers depend on the request. -/
inductive Program {Request : Type} (Answer : Request → Type) (Stop Result : Type)
  | done (result : Except Stop Result)
  | ask (request : Request) (next : Answer request → Program Answer Stop Result)

/-- What answers the requests. -/
structure Handler {Request : Type} (Answer : Request → Type) (Stop State : Type) where
  answer : State → (request : Request) → Except Stop (Answer request × State)

namespace Program

variable {Request Stop State First Second Result : Type} {Answer : Request → Type}

def andThen : Program Answer Stop First → (First → Program Answer Stop Second) →
    Program Answer Stop Second
  | done (.ok value), next => next value
  | done (.error stop), _ => done (.error stop)
  | ask request rest, next => ask request fun answer => andThen (rest answer) next

instance : Monad (Program Answer Stop) where
  pure value := done (.ok value)
  bind := andThen

/-- A program of one request. -/
def request (request : Request) : Program Answer Stop (Answer request) :=
  ask request fun answer => done (.ok answer)

def run (handler : Handler Answer Stop State) :
    Program Answer Stop Result → State → Except Stop (Result × State)
  | done result, state => result.map fun value => (value, state)
  | ask request next, state =>
      match handler.answer state request with
      | .error stop => .error stop
      | .ok (answer, state) => run handler (next answer) state

/-- Every request of the run meets the guard. -/
def Within (handler : Handler Answer Stop State) (guard : State → Request → Prop) :
    Program Answer Stop Result → State → Prop
  | done _, _ => True
  | ask request next, state => guard state request ∧ ∀ answer state',
      handler.answer state request = .ok (answer, state') →
        Within handler guard (next answer) state'

variable {handler : Handler Answer Stop State} {guard : State → Request → Prop}

/-! ### Sequences -/

@[simp] theorem ask_bind (asked : Request) (rest : Answer asked → Program Answer Stop First)
    (next : First → Program Answer Stop Second) :
    (ask asked rest >>= next) = ask asked fun answer => rest answer >>= next := rfl

theorem run_ask {asked : Request} {state state' : State} {answer : Answer asked}
    (answered : handler.answer state asked = .ok (answer, state'))
    (next : Answer asked → Program Answer Stop Result) :
    (ask asked next).run handler state = (next answer).run handler state' := by
  rw [run, answered]

theorem run_ask_error {asked : Request} {state : State} {stop : Stop}
    (answered : handler.answer state asked = .error stop)
    (next : Answer asked → Program Answer Stop Result) :
    (ask asked next).run handler state = .error stop := by
  rw [run, answered]

/-- **The second part of a sequence runs where the first ended.** -/
theorem run_bind (program : Program Answer Stop First) (next : First → Program Answer Stop Second)
    (state : State) : (program >>= next).run handler state
      = program.run handler state >>= fun ended => (next ended.1).run handler ended.2 := by
  induction program generalizing state with
  | done result =>
      cases result with
      | error stop => rfl
      | ok value => rfl
  | ask asked rest ih =>
      simp only [ask_bind, run]
      cases handler.answer state asked with
      | error stop => rfl
      | ok answered => exact ih answered.1 answered.2

theorem Within.imp {guard' : State → Request → Prop}
    (weaken : ∀ state asked, guard state asked → guard' state asked)
    {program : Program Answer Stop Result} {state : State}
    (within : program.Within handler guard state) : program.Within handler guard' state := by
  induction program generalizing state with
  | done result => trivial
  | ask asked rest ih =>
      exact ⟨weaken state asked within.1, fun answer state' answered =>
        ih answer (within.2 answer state' answered)⟩

/-- **A sequence is within a guard if its parts are**, the second wherever the first ends. -/
theorem within_bind {program : Program Answer Stop First}
    {next : First → Program Answer Stop Second} {state : State}
    (first : program.Within handler guard state)
    (second : ∀ value state', program.run handler state = .ok (value, state') →
      (next value).Within handler guard state') :
    (program >>= next).Within handler guard state := by
  induction program generalizing state with
  | done result =>
      cases result with
      | error stop => trivial
      | ok value => exact second value state rfl
  | ask asked rest ih =>
      refine ⟨first.1, fun answer state' answered => ?_⟩
      refine ih answer (first.2 answer state' answered) fun value final ended => ?_
      exact second value final ((run_ask answered rest).trans ended)

/-- What the answers within the guard keep, a run keeps. -/
theorem run_keeps {P : State → Prop}
    (keep : ∀ state asked answer state', P state → guard state asked →
      handler.answer state asked = .ok (answer, state') → P state')
    {program : Program Answer Stop Result} {state final : State} {value : Result}
    (start : P state) (within : program.Within handler guard state)
    (ran : program.run handler state = .ok (value, final)) : P final := by
  induction program generalizing state with
  | done result =>
      cases result with
      | error stop => cases ran
      | ok value =>
          cases ran
          exact start
  | ask asked rest ih =>
      cases answered : handler.answer state asked with
      | error stop =>
          rw [run_ask_error answered] at ran
          cases ran
      | ok pair =>
          obtain ⟨answer, state'⟩ := pair
          rw [run_ask answered] at ran
          exact ih answer (keep state asked answer state' start within.1 answered)
            (within.2 answer state' answered) ran

/-! ### Simulation -/

variable {State' : Type} {handler' : Handler Answer Stop State'}
  {related : State → State' → Prop}

/-- **Soundness.** If each answer of one handler in related states is an answer of the other, then
so is each result of a program. -/
theorem run_sound
    (sound : ∀ state state' asked answer next', related state state' → guard state asked →
      handler'.answer state' asked = .ok (answer, next') →
        ∃ next, handler.answer state asked = .ok (answer, next) ∧ related next next')
    {program : Program Answer Stop Result} {state : State} {state' final' : State'}
    {value : Result} (start : related state state') (within : program.Within handler guard state)
    (ran : program.run handler' state' = .ok (value, final')) :
    ∃ final, program.run handler state = .ok (value, final) ∧ related final final' := by
  induction program generalizing state state' with
  | done result =>
      cases result with
      | error stop => cases ran
      | ok value =>
          cases ran
          exact ⟨state, rfl, start⟩
  | ask asked rest ih =>
      cases answered : handler'.answer state' asked with
      | error stop =>
          rw [run_ask_error answered] at ran
          cases ran
      | ok pair =>
          obtain ⟨answer, next'⟩ := pair
          rw [run_ask answered] at ran
          obtain ⟨next, here, kept⟩ := sound state state' asked answer next' start within.1 answered
          rw [run_ask here]
          exact ih answer kept (within.2 answer next here) ran

/-- **Completeness.** If each answer of one handler is given by the other in related states, then so
is each result of a program. -/
theorem run_complete
    (complete : ∀ state state' asked answer next, related state state' → guard state asked →
      handler.answer state asked = .ok (answer, next) →
        ∃ next', handler'.answer state' asked = .ok (answer, next') ∧ related next next')
    {program : Program Answer Stop Result} {state final : State} {state' : State'}
    {value : Result} (start : related state state') (within : program.Within handler guard state)
    (ran : program.run handler state = .ok (value, final)) :
    ∃ final', program.run handler' state' = .ok (value, final') ∧ related final final' := by
  induction program generalizing state state' with
  | done result =>
      cases result with
      | error stop => cases ran
      | ok value =>
          cases ran
          exact ⟨state', rfl, start⟩
  | ask asked rest ih =>
      cases answered : handler.answer state asked with
      | error stop =>
          rw [run_ask_error answered] at ran
          cases ran
      | ok pair =>
          obtain ⟨answer, next⟩ := pair
          rw [run_ask answered] at ran
          obtain ⟨next', here, kept⟩ :=
            complete state state' asked answer next start within.1 answered
          rw [run_ask here]
          exact ih answer kept (within.2 answer next answered) ran

end Program

end Foundation
