/-
**Deterministic machines: what one step preserves, what a whole run preserves.**

A machine answers an operation and moves to its next state. Everything the environment chooses
(which operation comes next, which transfer fails, which of several equal candidates is taken) is
part of the operation, so a run is a list of operations and every quantification over schedules is
a quantification over lists.

* `Along C`: every step of the run meets `C` (a condition on the state before it and its operation).
* `Always Q`: `Q` holds in every state the run visits, the first and the last included.
* `always_of_step`: the run rule — a step lemma under `C` gives a run lemma under `Along C`.
* `always_iff_along`: the exact form, for a property that a step keeps if and only if it meets `C`;
  `along_iff_along`: for a fact about each step.
* `simulation`: a step-by-step simulation of an abstract transition relation lifts to runs.
* `lockstep`: so does one of another machine, answer for answer.
-/

import Mathlib.Logic.Basic
import Mathlib.Data.List.Basic

namespace Foundation

/-- A machine: one operation in one state gives an answer and the next state. -/
structure Machine (State Op Answer : Type) where
  step : State → Op → Answer × State

namespace Machine

variable {State Op Answer : Type} (M : Machine State Op Answer)

def next (state : State) (op : Op) : State := (M.step state op).2

def answer (state : State) (op : Op) : Answer := (M.step state op).1

/-- The state after a run. -/
def exec : State → List Op → State
  | state, [] => state
  | state, op :: ops => exec (M.next state op) ops

/-- The operations of a run with the answers they got. -/
def trace : State → List Op → List (Op × Answer)
  | _, [] => []
  | state, op :: ops => (op, M.answer state op) :: trace (M.next state op) ops

/-- Every step of the run meets the condition. -/
def Along (C : State → Op → Prop) : State → List Op → Prop
  | _, [] => True
  | state, op :: ops => C state op ∧ Along C (M.next state op) ops

/-- The property holds in every state of the run. -/
def Always (Q : State → Prop) : State → List Op → Prop
  | state, [] => Q state
  | state, op :: ops => Q state ∧ Always Q (M.next state op) ops

instance decidableAlong (C : State → Op → Prop) [∀ state op, Decidable (C state op)] :
    ∀ state ops, Decidable (M.Along C state ops)
  | _, [] => .isTrue trivial
  | state, op :: ops => @instDecidableAnd _ _ _ (decidableAlong C (M.next state op) ops)

instance decidableAlways (Q : State → Prop) [DecidablePred Q] :
    ∀ state ops, Decidable (M.Always Q state ops)
  | state, [] => inferInstanceAs (Decidable (Q state))
  | state, op :: ops => @instDecidableAnd _ _ _ (decidableAlways Q (M.next state op) ops)

variable {M}

@[simp] theorem exec_nil (state : State) : M.exec state [] = state := rfl

@[simp] theorem exec_cons (state : State) (op : Op) (ops : List Op) :
    M.exec state (op :: ops) = M.exec (M.next state op) ops := rfl

theorem exec_append (state : State) (first second : List Op) :
    M.exec state (first ++ second) = M.exec (M.exec state first) second := by
  induction first generalizing state with
  | nil => rfl
  | cons op ops ih => exact ih (M.next state op)

theorem trace_append (state : State) (first second : List Op) :
    M.trace state (first ++ second)
      = M.trace state first ++ M.trace (M.exec state first) second := by
  induction first generalizing state with
  | nil => rfl
  | cons op ops ih => exact congrArg ((op, M.answer state op) :: ·) (ih (M.next state op))

/-- A run traces its operations. -/
theorem trace_ops (state : State) (ops : List Op) : (M.trace state ops).map Prod.fst = ops := by
  induction ops generalizing state with
  | nil => rfl
  | cons op ops ih => exact congrArg (op :: ·) (ih (M.next state op))

theorem Along.imp {C D : State → Op → Prop} (weaken : ∀ state op, C state op → D state op)
    {state : State} {ops : List Op} (along : M.Along C state ops) : M.Along D state ops := by
  induction ops generalizing state with
  | nil => trivial
  | cons op ops ih => exact ⟨weaken _ _ along.1, ih along.2⟩

theorem Along.and {C D : State → Op → Prop} {state : State} {ops : List Op}
    (first : M.Along C state ops) (second : M.Along D state ops) :
    M.Along (fun state op => C state op ∧ D state op) state ops := by
  induction ops generalizing state with
  | nil => trivial
  | cons op ops ih => exact ⟨⟨first.1, second.1⟩, ih first.2 second.2⟩

/-- What holds along a run holds along the first part of it. -/
theorem Along.left {C : State → Op → Prop} {state : State} {ops later : List Op}
    (along : M.Along C state (ops ++ later)) : M.Along C state ops := by
  induction ops generalizing state with
  | nil => trivial
  | cons op ops ih => exact ⟨along.1, ih along.2⟩

/-- What holds along a run holds along the rest of it. -/
theorem Along.right {C : State → Op → Prop} {state : State} {ops later : List Op}
    (along : M.Along C state (ops ++ later)) : M.Along C (M.exec state ops) later := by
  induction ops generalizing state with
  | nil => exact along
  | cons op ops ih => exact ih along.2

/-- What holds along a run holds of its last step. -/
theorem Along.last {C : State → Op → Prop} {state : State} {ops : List Op} {op : Op}
    (along : M.Along C state (ops ++ [op])) : C (M.exec state ops) op := by
  induction ops generalizing state with
  | nil => exact along.1
  | cons first ops ih => exact ih along.2

/-- A condition on operations alone. -/
theorem along_of_mem {C : State → Op → Prop} {state : State} {ops : List Op}
    (all : ∀ op ∈ ops, ∀ state, C state op) : M.Along C state ops := by
  induction ops generalizing state with
  | nil => trivial
  | cons op ops ih =>
      exact ⟨all op List.mem_cons_self state, ih fun other member => all other
        (List.mem_cons_of_mem _ member)⟩

theorem Always.imp {P Q : State → Prop} (weaken : ∀ state, P state → Q state)
    {state : State} {ops : List Op} (always : M.Always P state ops) : M.Always Q state ops := by
  induction ops generalizing state with
  | nil => exact weaken _ always
  | cons op ops ih => exact ⟨weaken _ always.1, ih always.2⟩

theorem Always.first {Q : State → Prop} {state : State} {ops : List Op}
    (always : M.Always Q state ops) : Q state := by
  cases ops with
  | nil => exact always
  | cons op ops => exact always.1

theorem Always.last {Q : State → Prop} {state : State} {ops : List Op}
    (always : M.Always Q state ops) : Q (M.exec state ops) := by
  induction ops generalizing state with
  | nil => exact always
  | cons op ops ih => exact ih always.2

theorem Always.and {P Q : State → Prop} {state : State} {ops : List Op}
    (first : M.Always P state ops) (second : M.Always Q state ops) :
    M.Always (fun state => P state ∧ Q state) state ops := by
  induction ops generalizing state with
  | nil => exact ⟨first, second⟩
  | cons op ops ih => exact ⟨⟨first.1, second.1⟩, ih first.2 second.2⟩

/-- What holds in every state of a run holds before and after each of its steps. -/
theorem Always.steps {Q : State → Prop} {state : State} {ops : List Op}
    (always : M.Always Q state ops) :
    M.Along (fun state op => Q state ∧ Q (M.next state op)) state ops := by
  induction ops generalizing state with
  | nil => trivial
  | cons op ops ih => exact ⟨⟨always.1, always.2.first⟩, ih always.2⟩

/-- **The run rule.** What one step under `C` preserves, a run of such steps preserves. -/
theorem always_of_step {Q : State → Prop} {C : State → Op → Prop}
    (step : ∀ state op, Q state → C state op → Q (M.next state op))
    {state : State} {ops : List Op} (start : Q state) (along : M.Along C state ops) :
    M.Always Q state ops := by
  induction ops generalizing state with
  | nil => exact start
  | cons op ops ih => exact ⟨start, ih (step _ _ start along.1) along.2⟩

/-- What an invariant and the condition of a step give about that step, along the whole run. -/
theorem along_of_step {Q : State → Prop} {C D : State → Op → Prop}
    (step : ∀ state op, Q state → C state op → Q (M.next state op))
    (fact : ∀ state op, Q state → C state op → D state op)
    {state : State} {ops : List Op} (start : Q state) (along : M.Along C state ops) :
    M.Along D state ops := by
  induction ops generalizing state with
  | nil => trivial
  | cons op ops ih =>
      exact ⟨fact _ _ start along.1, ih (step _ _ start along.1) along.2⟩

/-- **The exact run rule.** Over runs whose steps meet `D`: if `J` is kept by the steps that meet
`C`, shows `Q`, and a step from a `J`-state that lands in `Q` meets `C`, then `Q` holds throughout
the run if and only if every step of it meets `C`. -/
theorem always_iff_along {J Q : State → Prop} {C D : State → Op → Prop}
    (keep : ∀ state op, J state → D state op → C state op → J (M.next state op))
    (shows : ∀ state, J state → Q state)
    (back : ∀ state op, J state → D state op → Q (M.next state op) → C state op)
    {state : State} {ops : List Op} (start : J state) (along : M.Along D state ops) :
    M.Always Q state ops ↔ M.Along C state ops := by
  induction ops generalizing state with
  | nil => exact iff_of_true (shows _ start) trivial
  | cons op ops ih =>
      constructor
      · rintro ⟨_, later⟩
        have meets : C state op := back _ _ start along.1 later.first
        exact ⟨meets, (ih (keep _ _ start along.1 meets) along.2).mp later⟩
      · rintro ⟨meets, later⟩
        exact ⟨shows _ start, (ih (keep _ _ start along.1 meets) along.2).mpr later⟩

/-- The exact run rule for a fact about each step: if a step from a `J`-state shows `E` exactly when
it meets `C`, which keeps `J`, then all steps of the run show `E` exactly when all meet `C`. -/
theorem along_iff_along {J : State → Prop} {C D E : State → Op → Prop}
    (keep : ∀ state op, J state → D state op → C state op → J (M.next state op))
    (exactly : ∀ state op, J state → D state op → (E state op ↔ C state op))
    {state : State} {ops : List Op} (start : J state) (along : M.Along D state ops) :
    M.Along E state ops ↔ M.Along C state ops := by
  induction ops generalizing state with
  | nil => exact Iff.rfl
  | cons op ops ih =>
      have here := exactly _ _ start along.1
      constructor
      · rintro ⟨shows, later⟩
        have meets := here.mp shows
        exact ⟨meets, (ih (keep _ _ start along.1 meets) along.2).mp later⟩
      · rintro ⟨meets, later⟩
        exact ⟨here.mpr meets, (ih (keep _ _ start along.1 meets) along.2).mpr later⟩

/-! ### Abstract transitions -/

section Abstract

variable {Abstract : Type}

/-- A run of an abstract transition relation over operations and answers. -/
inductive SpecRun (T : Abstract → Op → Answer → Abstract → Prop) :
    Abstract → List (Op × Answer) → Abstract → Prop
  | nil (spec : Abstract) : SpecRun T spec [] spec
  | cons {spec middle last : Abstract} {op : Op} {answer : Answer} {rest : List (Op × Answer)} :
      T spec op answer middle → SpecRun T middle rest last →
        SpecRun T spec ((op, answer) :: rest) last

/-- **Forward simulation.** If every step under `C` from related states is an abstract transition
with the same answer into related states, then so is every run under `C`. -/
theorem simulation {T : Abstract → Op → Answer → Abstract → Prop} {R : State → Abstract → Prop}
    {C : State → Op → Prop}
    (step : ∀ state spec op, R state spec → C state op →
      ∃ spec', T spec op (M.answer state op) spec' ∧ R (M.next state op) spec')
    {state : State} {spec : Abstract} {ops : List Op} (related : R state spec)
    (along : M.Along C state ops) :
    ∃ spec', SpecRun T spec (M.trace state ops) spec' ∧ R (M.exec state ops) spec' := by
  induction ops generalizing state spec with
  | nil => exact ⟨spec, .nil spec, related⟩
  | cons op ops ih =>
      obtain ⟨middle, transition, relatedNext⟩ := step state spec op related along.1
      obtain ⟨last, run, relatedLast⟩ := ih relatedNext along.2
      exact ⟨last, .cons transition run, relatedLast⟩

/-- **Lockstep.** If every step under `C` from related states answers what the other machine answers,
through a translation, and leads to related states, then so does every run under `C`. -/
theorem lockstep {Answer' : Type} {N : Machine Abstract Op Answer'} (translate : Answer' → Answer)
    {R : State → Abstract → Prop} {C : State → Op → Prop}
    (step : ∀ state spec op, R state spec → C state op →
      M.answer state op = translate (N.answer spec op) ∧ R (M.next state op) (N.next spec op))
    {state : State} {spec : Abstract} {ops : List Op} (related : R state spec)
    (along : M.Along C state ops) :
    (M.trace state ops).map Prod.snd = (N.trace spec ops).map (fun entry => translate entry.2) ∧
      R (M.exec state ops) (N.exec spec ops) := by
  induction ops generalizing state spec with
  | nil => exact ⟨rfl, related⟩
  | cons op ops ih =>
      obtain ⟨same, relatedNext⟩ := step state spec op related along.1
      obtain ⟨sameRest, relatedLast⟩ := ih relatedNext along.2
      exact ⟨congrArg₂ List.cons same sameRest, relatedLast⟩

/-- An abstract state that each step updates from its operation and answer. -/
def replay (update : Abstract → Op → Answer → Abstract) :
    Abstract → List (Op × Answer) → Abstract
  | spec, [] => spec
  | spec, (op, answer) :: rest => replay update (update spec op answer) rest

/-- The machine that carries the replay of its own run along. -/
def withReplay (M : Machine State Op Answer) (update : Abstract → Op → Answer → Abstract) :
    Machine (State × Abstract) Op Answer :=
  ⟨fun state op => (M.answer state.1 op,
    (M.next state.1 op, update state.2 op (M.answer state.1 op)))⟩

/-- **Simulation of a deterministic specification**, with the relation kept in every state. -/
theorem replay_simulation {update : Abstract → Op → Answer → Abstract}
    {R : State → Abstract → Prop} {C : State → Op → Prop}
    (step : ∀ state spec op, R state spec → C state op →
      R (M.next state op) (update spec op (M.answer state op)))
    {state : State} {spec : Abstract} {ops : List Op} (related : R state spec)
    (along : M.Along C state ops) :
    R (M.exec state ops) (replay update spec (M.trace state ops)) := by
  induction ops generalizing state spec with
  | nil => exact related
  | cons op ops ih => exact ih (step state spec op related along.1) along.2

end Abstract

end Machine

end Foundation
