/-
**The shared spinlock, one atomic access at a time.**

`SharedSpinlock` keeps its whole state in one atomic `int`. A run interleaves the turns of `k`
threads; a turn is one atomic load, store, `fetch_sub` or compare-exchange of the thread's call, and
a weak exchange may fail although the values agree. Between the turns a retry loop keeps the
`expected` value of its last failed exchange.

* `Exact`: `state_m` is `-1` exactly while one thread holds the lock exclusively and nobody holds it
  shared, and the number of shared holds otherwise.
* `Sound`: the invariant behind it, kept by every turn of threads that unlock only what they hold.
* `failedTry_along`: no turn of a try call that returns `false` writes `state_m` or acquires
  anything.
* `spinlock_safe`: both, for every schedule.
-/

import Yadb.Foundation.Machine
import Mathlib.Algebra.BigOperators.Fin
import Mathlib.Algebra.Order.BigOperators.Group.Finset

namespace Yadb

open Foundation

/-- A value stored in an `int32_t`. -/
def int32 (value : Int) : Int := value.bmod (2 ^ 32)

theorem int32_of_range {value : Int} (lower : -2 ^ 31 ≤ value) (upper : value < 2 ^ 31) :
    int32 value = value := by
  unfold int32
  rw [Int.bmod_def]
  split <;> omega

/-- The member functions that take and give back the lock. -/
inductive SpinlockCall
  | tryLock
  | lock
  | unlock
  | tryLockShared
  | lockShared
  | unlockShared
deriving DecidableEq, Repr

/-- Where a thread stands: before which atomic access of which call, with the local `expected` where
the next access uses it. -/
inductive SpinlockPc
  | outside
  | tryLock
  | lock
  | unlock
  | tryLockSharedLoad
  | tryLockShared (expected : Int)
  | lockSharedLoad
  | lockShared (expected : Int)
  | unlockShared
deriving DecidableEq, Repr

/-- A thread with what it holds. A thread may take the lock shared more than once. -/
structure SpinlockThread where
  pc : SpinlockPc := .outside
  exclusive : Bool := false
  shared : Nat := 0
deriving DecidableEq, Repr

structure SharedSpinlock (k : Nat) where
  state_m : Int
  threads : Fin k → SpinlockThread

/-- `spurious`: the exchange of this turn fails even where the values agree. Only a weak exchange
looks at it. -/
inductive SpinlockOp (k : Nat)
  | call (thread : Fin k) (function : SpinlockCall)
  | turn (thread : Fin k) (spurious : Bool)

/-- `compare_exchange`: whether it exchanged, the value of `expected` after it, and the new
state. -/
def compareExchange (state expected desired : Int) (fails : Bool) : Bool × Int × Int :=
  if state = expected ∧ fails = false then (true, expected, desired) else (false, state, state)

namespace SharedSpinlock

variable {k : Nat}

def init (k : Nat) : SharedSpinlock k := ⟨0, fun _ => {}⟩

/-- The thread reaches its next atomic access. -/
def goto (spinlock : SharedSpinlock k) (thread : Fin k) (pc : SpinlockPc) : SharedSpinlock k :=
  { spinlock with
    threads := Function.update spinlock.threads thread { spinlock.threads thread with pc } }

/-- The call of the thread returns, with `state_m` and the thread's holds as given. -/
def leave (spinlock : SharedSpinlock k) (thread : Fin k) (state : Int) (exclusive : Bool)
    (shared : Nat) : SharedSpinlock k where
  state_m := state
  threads := Function.update spinlock.threads thread ⟨.outside, exclusive, shared⟩

/-- One atomic access of the thread. The answer is the value its call returns, `true` where the
function returns nothing, and `none` while the call goes on. -/
def turn (spinlock : SharedSpinlock k) (thread : Fin k) (spurious : Bool) :
    Option Bool × SharedSpinlock k :=
  let self := spinlock.threads thread
  match self.pc with
  | .outside => (none, spinlock)
  | .tryLock =>
      match compareExchange spinlock.state_m 0 (-1) false with
      | (true, _, state) => (some true, spinlock.leave thread state true self.shared)
      | (false, _, state) =>
          (some false, spinlock.leave thread state self.exclusive self.shared)
  | .lock =>
      match compareExchange spinlock.state_m 0 (-1) spurious with
      | (true, _, state) => (some true, spinlock.leave thread state true self.shared)
      -- the observed value is thrown away: `expected = 0`
      | (false, _, _) => (none, spinlock.goto thread .lock)
  | .unlock => (some true, spinlock.leave thread 0 false self.shared)
  | .tryLockSharedLoad => (none, spinlock.goto thread (.tryLockShared spinlock.state_m))
  | .tryLockShared expected =>
      if 0 ≤ expected then
        match compareExchange spinlock.state_m expected (int32 (expected + 1)) spurious with
        | (true, _, state) =>
            (some true, spinlock.leave thread state self.exclusive (self.shared + 1))
        | (false, observed, _) => (none, spinlock.goto thread (.tryLockShared observed))
      else
        (some false, spinlock.leave thread spinlock.state_m self.exclusive self.shared)
  | .lockSharedLoad => (none, spinlock.goto thread (.lockShared spinlock.state_m))
  | .lockShared expected =>
      if expected < 0 then
        (none, spinlock.goto thread (.lockShared spinlock.state_m))
      else
        match compareExchange spinlock.state_m expected (int32 (expected + 1)) spurious with
        | (true, _, state) =>
            (some true, spinlock.leave thread state self.exclusive (self.shared + 1))
        | (false, observed, _) => (none, spinlock.goto thread (.lockShared observed))
  | .unlockShared =>
      (some true, spinlock.leave thread (int32 (spinlock.state_m - 1)) self.exclusive
        (self.shared - 1))

/-- The first access of a call. -/
def entry : SpinlockCall → SpinlockPc
  | .tryLock => .tryLock
  | .lock => .lock
  | .unlock => .unlock
  | .tryLockShared => .tryLockSharedLoad
  | .lockShared => .lockSharedLoad
  | .unlockShared => .unlockShared

/-- A thread enters a call only while it is in none. -/
def step (spinlock : SharedSpinlock k) : SpinlockOp k → Option Bool × SharedSpinlock k
  | .call thread function => match (spinlock.threads thread).pc with
    | .outside => (none, spinlock.goto thread (entry function))
    | _ => (none, spinlock)
  | .turn thread spurious => spinlock.turn thread spurious

/-- `SharedSpinlock::LockState`. -/
inductive LockState
  | unlocked
  | exclusive
  | shared
deriving DecidableEq, Repr

/-- `SharedSpinlock::State`; `none` where its assertion fails. -/
def lockState (spinlock : SharedSpinlock k) : Option LockState :=
  if spinlock.state_m = -1 then some .exclusive
  else if spinlock.state_m = 0 then some .unlocked
  else if 0 < spinlock.state_m then some .shared
  else none

end SharedSpinlock

def spinlockMachine (k : Nat) : Machine (SharedSpinlock k) (SpinlockOp k) (Option Bool) :=
  ⟨SharedSpinlock.step⟩

namespace SharedSpinlock

variable {k : Nat}

/-- The shared holds of all threads. -/
def sharedHolds (spinlock : SharedSpinlock k) : Nat := ∑ thread, (spinlock.threads thread).shared

/-- One thread holds the lock exclusively, and nobody holds it shared. -/
def HeldExclusively (spinlock : SharedSpinlock k) : Prop :=
  (∃ thread, (spinlock.threads thread).exclusive = true ∧
    ∀ other, (spinlock.threads other).exclusive = true → other = thread) ∧
  spinlock.sharedHolds = 0

/-- What `state_m` says of the holders, and that an exclusive holder is the only one. -/
structure Exact (spinlock : SharedSpinlock k) : Prop where
  exclusive : spinlock.state_m = -1 ↔ spinlock.HeldExclusively
  shared : spinlock.state_m ≠ -1 → spinlock.state_m = spinlock.sharedHolds
  alone : ∀ thread, (spinlock.threads thread).exclusive = true →
    (∀ other, (spinlock.threads other).shared = 0) ∧
      ∀ other, other ≠ thread → (spinlock.threads other).exclusive = false

/-- A thread unlocks only in a mode that it holds, and asks for another shared hold only while it
has fewer than `depth`. -/
def Disciplined (depth : Nat) (spinlock : SharedSpinlock k) : SpinlockOp k → Prop
  | .call thread .unlock => (spinlock.threads thread).exclusive = true
  | .call thread .unlockShared => 0 < (spinlock.threads thread).shared
  | .call thread .tryLockShared => (spinlock.threads thread).shared < depth
  | .call thread .lockShared => (spinlock.threads thread).shared < depth
  | _ => True

/-- What the place of a thread says of its holds. -/
def Entitled (depth : Nat) (thread : SpinlockThread) : Prop :=
  match thread.pc with
  | .unlock => thread.exclusive = true
  | .unlockShared => 0 < thread.shared
  | .tryLockSharedLoad => thread.shared < depth
  | .tryLockShared _ => thread.shared < depth
  | .lockSharedLoad => thread.shared < depth
  | .lockShared _ => thread.shared < depth
  | _ => True

/-- **The invariant.** The `expected` values that threads keep from earlier accesses do not occur in
it: an exchange compares them with `state_m` again. -/
structure Sound (depth : Nat) (spinlock : SharedSpinlock k) : Prop where
  entitled : ∀ thread, Entitled depth (spinlock.threads thread)
  bounded : ∀ thread, (spinlock.threads thread).shared ≤ depth
  balance : (spinlock.state_m = -1 ∧ spinlock.HeldExclusively) ∨
    (spinlock.state_m = spinlock.sharedHolds ∧
      ∀ thread, (spinlock.threads thread).exclusive = false)

/-! ### What one turn does -/

/-- Everything a turn can do, with its answer. -/
inductive TurnStep (spinlock : SharedSpinlock k) (thread : Fin k) :
    Option Bool → SharedSpinlock k → Prop
  | idle : (spinlock.threads thread).pc = .outside → TurnStep spinlock thread none spinlock
  /-- The call goes on. -/
  | wait (pc : SpinlockPc) :
      (∀ depth, Entitled depth (spinlock.threads thread) →
        Entitled depth { spinlock.threads thread with pc }) →
      TurnStep spinlock thread none (spinlock.goto thread pc)
  | refuse :
      TurnStep spinlock thread (some false)
        (spinlock.leave thread spinlock.state_m (spinlock.threads thread).exclusive
          (spinlock.threads thread).shared)
  | takeExclusive : spinlock.state_m = 0 →
      TurnStep spinlock thread (some true)
        (spinlock.leave thread (-1) true (spinlock.threads thread).shared)
  | takeShared : 0 ≤ spinlock.state_m →
      (∀ depth, Entitled depth (spinlock.threads thread) →
        (spinlock.threads thread).shared < depth) →
      TurnStep spinlock thread (some true)
        (spinlock.leave thread (int32 (spinlock.state_m + 1)) (spinlock.threads thread).exclusive
          ((spinlock.threads thread).shared + 1))
  | giveExclusive : (spinlock.threads thread).pc = .unlock →
      TurnStep spinlock thread (some true)
        (spinlock.leave thread 0 false (spinlock.threads thread).shared)
  | giveShared : (spinlock.threads thread).pc = .unlockShared →
      TurnStep spinlock thread (some true)
        (spinlock.leave thread (int32 (spinlock.state_m - 1))
          (spinlock.threads thread).exclusive ((spinlock.threads thread).shared - 1))

variable {spinlock : SharedSpinlock k} {thread : Fin k}

theorem turn_step (spinlock : SharedSpinlock k) (thread : Fin k) (spurious : Bool) :
    TurnStep spinlock thread (spinlock.turn thread spurious).1 (spinlock.turn thread spurious).2 := by
  cases place : (spinlock.threads thread).pc with
  | outside =>
      simp only [turn, place]
      exact .idle place
  | tryLock =>
      by_cases free : spinlock.state_m = 0
      · simp only [turn, compareExchange, place, free, and_self, if_true]
        exact .takeExclusive free
      · simp only [turn, compareExchange, place, free, false_and, if_false]
        exact .refuse
  | lock =>
      by_cases exchanges : spinlock.state_m = 0 ∧ spurious = false
      · simp only [turn, compareExchange, place, exchanges, and_self, if_true]
        exact .takeExclusive exchanges.1
      · simp only [turn, compareExchange, place, exchanges, if_false]
        exact .wait .lock fun _ _ => trivial
  | unlock =>
      simp only [turn, place]
      exact .giveExclusive place
  | tryLockSharedLoad =>
      simp only [turn, place]
      refine .wait _ fun depth entitled => ?_
      simpa only [Entitled, place] using entitled
  | tryLockShared expected =>
      by_cases readable : 0 ≤ expected
      · by_cases exchanges : spinlock.state_m = expected ∧ spurious = false
        · obtain ⟨rfl, rfl⟩ := exchanges
          simp only [turn, compareExchange, place, readable, if_true, and_self]
          refine .takeShared readable fun depth entitled => ?_
          simpa only [Entitled, place] using entitled
        · simp only [turn, compareExchange, place, readable, exchanges, if_true, if_false]
          refine .wait _ fun depth entitled => ?_
          simpa only [Entitled, place] using entitled
      · simp only [turn, place, readable, if_false]
        exact .refuse
  | lockSharedLoad =>
      simp only [turn, place]
      refine .wait _ fun depth entitled => ?_
      simpa only [Entitled, place] using entitled
  | lockShared expected =>
      by_cases taken : expected < 0
      · simp only [turn, place, taken, if_true]
        refine .wait _ fun depth entitled => ?_
        simpa only [Entitled, place] using entitled
      · by_cases exchanges : spinlock.state_m = expected ∧ spurious = false
        · obtain ⟨rfl, rfl⟩ := exchanges
          simp only [turn, compareExchange, place, taken, if_true, if_false, and_self]
          refine .takeShared (Int.not_lt.mp taken) fun depth entitled => ?_
          simpa only [Entitled, place] using entitled
        · simp only [turn, compareExchange, place, taken, exchanges, if_false]
          refine .wait _ fun depth entitled => ?_
          simpa only [Entitled, place] using entitled
  | unlockShared =>
      simp only [turn, place]
      exact .giveShared place

/-! ### Counting the holds -/

theorem threads_leave_self (state : Int) (exclusive : Bool) (shared : Nat) :
    (spinlock.leave thread state exclusive shared).threads thread = ⟨.outside, exclusive, shared⟩ :=
  Function.update_self _ _ _

theorem threads_leave_of_ne {other : Fin k} (differ : other ≠ thread) (state : Int)
    (exclusive : Bool) (shared : Nat) :
    (spinlock.leave thread state exclusive shared).threads other = spinlock.threads other :=
  Function.update_of_ne differ _ _

theorem sharedHolds_leave (spinlock : SharedSpinlock k) (thread : Fin k) (state : Int)
    (exclusive : Bool) (shared : Nat) :
    (spinlock.leave thread state exclusive shared).sharedHolds + (spinlock.threads thread).shared
      = spinlock.sharedHolds + shared := by
  have others : ∑ other ∈ Finset.univ.erase thread,
      ((spinlock.leave thread state exclusive shared).threads other).shared
        = ∑ other ∈ Finset.univ.erase thread, (spinlock.threads other).shared := by
    refine Finset.sum_congr rfl fun other member => ?_
    rw [threads_leave_of_ne (Finset.ne_of_mem_erase member)]
  have before := Finset.add_sum_erase Finset.univ
    (fun other => (spinlock.threads other).shared) (Finset.mem_univ thread)
  have after := Finset.add_sum_erase Finset.univ
    (fun other => ((spinlock.leave thread state exclusive shared).threads other).shared)
    (Finset.mem_univ thread)
  have self : ((spinlock.leave thread state exclusive shared).threads thread).shared = shared := by
    rw [threads_leave_self]
  simp only [self, others] at after
  unfold sharedHolds
  omega

theorem goto_holds (pc : SpinlockPc) (other : Fin k) :
    ((spinlock.goto thread pc).threads other).exclusive = (spinlock.threads other).exclusive ∧
      ((spinlock.goto thread pc).threads other).shared = (spinlock.threads other).shared := by
  by_cases same : other = thread
  · subst same
    simp only [goto, Function.update_self, and_self]
  · simp only [goto, Function.update_of_ne same, and_self]

theorem sharedHolds_goto (pc : SpinlockPc) :
    (spinlock.goto thread pc).sharedHolds = spinlock.sharedHolds :=
  Finset.sum_congr rfl fun other _ => (goto_holds pc other).2

theorem shared_le_sharedHolds (spinlock : SharedSpinlock k) (thread : Fin k) :
    (spinlock.threads thread).shared ≤ spinlock.sharedHolds :=
  Finset.single_le_sum (f := fun other => (spinlock.threads other).shared)
    (fun _ _ => Nat.zero_le _) (Finset.mem_univ thread)

theorem sharedHolds_le {depth : Nat}
    (bounded : ∀ thread, (spinlock.threads thread).shared ≤ depth) :
    spinlock.sharedHolds ≤ k * depth := by
  have all := Finset.sum_le_card_nsmul Finset.univ
    (fun other => (spinlock.threads other).shared) depth fun other _ => bounded other
  simpa only [sharedHolds, Finset.card_univ, Fintype.card_fin, smul_eq_mul] using all

/-! ### The invariant along a run -/

theorem Sound.exact {depth : Nat} (sound : Sound depth spinlock) : spinlock.Exact := by
  refine ⟨?_, ?_, ?_⟩
  · constructor
    · intro negative
      rcases sound.balance with ⟨_, held⟩ | ⟨counted, _⟩
      · exact held
      · omega
    · rintro ⟨⟨thread, holds, _⟩, _⟩
      rcases sound.balance with ⟨negative, _⟩ | ⟨_, nobody⟩
      · exact negative
      · rw [nobody thread] at holds
        cases holds
  · intro notTaken
    rcases sound.balance with ⟨negative, _⟩ | ⟨counted, _⟩
    · exact absurd negative notTaken
    · exact counted
  · intro thread holds
    rcases sound.balance with ⟨_, ⟨owner, _, single⟩, unshared⟩ | ⟨_, nobody⟩
    · refine ⟨fun other => ?_, fun other differ => ?_⟩
      · have := shared_le_sharedHolds spinlock other
        omega
      · by_contra also
        have first := single thread holds
        have second := single other (Bool.eq_true_of_not_eq_false also)
        exact differ (second.trans first.symm)
    · rw [nobody thread] at holds
      cases holds

/-- The assertion of `State` holds, and it tells who holds the lock. -/
theorem Exact.lockState (exact : spinlock.Exact) :
    (spinlock.HeldExclusively ∧ spinlock.lockState = some .exclusive) ∨
    (spinlock.sharedHolds = 0 ∧ spinlock.lockState = some .unlocked) ∨
    (0 < spinlock.sharedHolds ∧ spinlock.lockState = some .shared) := by
  unfold SharedSpinlock.lockState
  by_cases taken : spinlock.state_m = -1
  · exact .inl ⟨exact.exclusive.mp taken, if_pos taken⟩
  · have counted := exact.shared taken
    rcases Nat.eq_zero_or_pos spinlock.sharedHolds with none | some
    · have free : spinlock.state_m = 0 := by omega
      exact .inr (.inl ⟨none, by rw [if_neg taken, if_pos free]⟩)
    · have positive : 0 < spinlock.state_m := by omega
      exact .inr (.inr ⟨some, by rw [if_neg taken, if_neg (by omega), if_pos positive]⟩)

theorem sound_init (k depth : Nat) : Sound depth (init k) where
  entitled _ := trivial
  bounded _ := Nat.zero_le _
  balance := .inr ⟨by simp [init, sharedHolds], fun _ => rfl⟩

theorem sound_goto {depth : Nat} {pc : SpinlockPc} (sound : Sound depth spinlock)
    (entitled : Entitled depth { spinlock.threads thread with pc }) :
    Sound depth (spinlock.goto thread pc) := by
  refine ⟨fun other => ?_, fun other => ?_, ?_⟩
  · by_cases same : other = thread
    · subst same
      simpa only [goto, Function.update_self] using entitled
    · simpa only [goto, Function.update_of_ne same] using sound.entitled other
  · rw [(goto_holds pc other).2]
    exact sound.bounded other
  · rcases sound.balance with ⟨negative, ⟨owner, holds, single⟩, unshared⟩ | ⟨counted, nobody⟩
    · refine .inl ⟨negative, ⟨owner, ?_, fun other also => ?_⟩, ?_⟩
      · rwa [(goto_holds pc owner).1]
      · rw [(goto_holds pc other).1] at also
        exact single other also
      · rw [sharedHolds_goto]
        exact unshared
    · refine .inr ⟨?_, fun other => ?_⟩
      · rw [sharedHolds_goto]
        exact counted
      · rw [(goto_holds pc other).1]
        exact nobody other

/-- A returning call keeps the invariant if the holds it leaves agree with the state it leaves. -/
theorem sound_leave {depth : Nat} {state : Int} {exclusive : Bool} {shared : Nat}
    (sound : Sound depth spinlock) (bounded : shared ≤ depth)
    (balance : (state = -1 ∧ (spinlock.leave thread state exclusive shared).HeldExclusively) ∨
      (state = (spinlock.leave thread state exclusive shared).sharedHolds ∧
        ∀ other, ((spinlock.leave thread state exclusive shared).threads other).exclusive
          = false)) :
    Sound depth (spinlock.leave thread state exclusive shared) := by
  refine ⟨fun other => ?_, fun other => ?_, balance⟩
  · by_cases same : other = thread
    · subst same
      rw [threads_leave_self]
      trivial
    · rw [threads_leave_of_ne same]
      exact sound.entitled other
  · by_cases same : other = thread
    · subst same
      rw [threads_leave_self]
      exact bounded
    · rw [threads_leave_of_ne same]
      exact sound.bounded other

/-- After a call leaves without an exclusive hold, nobody has one if no other thread had. -/
theorem leave_nobody {state : Int} {shared : Nat}
    (others : ∀ other, other ≠ thread → (spinlock.threads other).exclusive = false) (other : Fin k) :
    ((spinlock.leave thread state false shared).threads other).exclusive = false := by
  by_cases same : other = thread
  · subst same
    rw [threads_leave_self]
  · rw [threads_leave_of_ne same]
    exact others other same

/-- A lock that is free or held shared has no exclusive holder, and counts the shared ones. -/
theorem Sound.readable {depth : Nat} (sound : Sound depth spinlock)
    (readable : 0 ≤ spinlock.state_m ∨ 0 < spinlock.sharedHolds) :
    spinlock.state_m = spinlock.sharedHolds ∧
      ∀ other, (spinlock.threads other).exclusive = false := by
  rcases sound.balance with ⟨negative, _, unshared⟩ | counted
  · omega
  · exact counted

/-- **One turn keeps the invariant.** -/
theorem sound_turn {depth : Nat} (few : k * depth < 2 ^ 31 - 1) (sound : Sound depth spinlock)
    {answer : Option Bool} {spinlock' : SharedSpinlock k}
    (turned : TurnStep spinlock thread answer spinlock') : Sound depth spinlock' := by
  have exact := sound.exact
  have entitled := sound.entitled thread
  cases turned with
  | idle _ => exact sound
  | wait pc keeps => exact sound_goto sound (keeps depth entitled)
  | refuse =>
      refine sound_leave sound (sound.bounded thread) ?_
      have same : ∀ other,
          ((spinlock.leave thread spinlock.state_m (spinlock.threads thread).exclusive
            (spinlock.threads thread).shared).threads other).exclusive
              = (spinlock.threads other).exclusive := by
        intro other
        by_cases self : other = thread
        · subst self
          rw [threads_leave_self]
        · rw [threads_leave_of_ne self]
      have counted := sharedHolds_leave spinlock thread
        spinlock.state_m (spinlock.threads thread).exclusive (spinlock.threads thread).shared
      have holds := Nat.add_right_cancel counted
      simp only [HeldExclusively, same, holds]
      exact sound.balance
  | takeExclusive free =>
      -- a free lock has no holder, so the new one is the only one
      obtain ⟨counted, nobody⟩ := sound.readable (.inl free.ge)
      have unshared : spinlock.sharedHolds = 0 := by omega
      refine sound_leave sound (sound.bounded thread)
        (.inl ⟨rfl, ⟨thread, ?_, fun other also => ?_⟩, ?_⟩)
      · rw [threads_leave_self]
      · by_contra differ
        rw [threads_leave_of_ne differ, nobody other] at also
        cases also
      · have := sharedHolds_leave spinlock thread (-1) true
          (spinlock.threads thread).shared
        omega
  | takeShared readable asks =>
      have room := asks depth entitled
      obtain ⟨counted, nobody⟩ := sound.readable (.inl readable)
      have more := sharedHolds_leave spinlock thread
        (int32 (spinlock.state_m + 1)) (spinlock.threads thread).exclusive
        ((spinlock.threads thread).shared + 1)
      have total := sharedHolds_le sound.bounded
      have fits : int32 (spinlock.state_m + 1) = spinlock.state_m + 1 :=
        int32_of_range (by omega) (by omega)
      refine sound_leave sound room (.inr ⟨?_, fun other => ?_⟩)
      · rw [fits] at more ⊢
        omega
      · rw [nobody thread]
        exact leave_nobody (fun other _ => nobody other) other
  | giveExclusive place =>
      have holds : (spinlock.threads thread).exclusive = true := by
        simpa only [Entitled, place] using entitled
      obtain ⟨unshared, others⟩ := exact.alone thread holds
      have none : spinlock.sharedHolds = 0 :=
        Finset.sum_eq_zero fun other _ => unshared other
      refine sound_leave sound (sound.bounded thread) (.inr ⟨?_, leave_nobody others⟩)
      have := sharedHolds_leave spinlock thread 0 false
        (spinlock.threads thread).shared
      omega
  | giveShared place =>
      have holds : 0 < (spinlock.threads thread).shared := by
        simpa only [Entitled, place] using entitled
      have among := shared_le_sharedHolds spinlock thread
      obtain ⟨counted, nobody⟩ := sound.readable (.inr (holds.trans_le among))
      have total := sharedHolds_le sound.bounded
      have fits : int32 (spinlock.state_m - 1) = spinlock.state_m - 1 :=
        int32_of_range (by omega) (by omega)
      have fewer := sharedHolds_leave spinlock thread
        (int32 (spinlock.state_m - 1)) (spinlock.threads thread).exclusive
        ((spinlock.threads thread).shared - 1)
      refine sound_leave sound ((Nat.sub_le _ _).trans (sound.bounded thread))
        (.inr ⟨?_, fun other => ?_⟩)
      · rw [fits] at fewer ⊢
        omega
      · rw [nobody thread]
        exact leave_nobody (fun other _ => nobody other) other

/-- **One step keeps the invariant.** -/
theorem sound_step {depth : Nat} (few : k * depth < 2 ^ 31 - 1) (spinlock : SharedSpinlock k)
    (op : SpinlockOp k) (sound : Sound depth spinlock) (disciplined : Disciplined depth spinlock op) :
    Sound depth ((spinlockMachine k).next spinlock op) := by
  cases op with
  | turn thread spurious => exact sound_turn few sound (turn_step spinlock thread spurious)
  | call thread function =>
      show Sound depth (spinlock.step (.call thread function)).2
      simp only [step]
      split
      · refine sound_goto sound ?_
        cases function <;> exact disciplined
      · exact sound

/-! ### Try calls that fail -/

/-- Neither `state_m` nor what any thread holds changed. -/
def Untouched (spinlock spinlock' : SharedSpinlock k) : Prop :=
  spinlock'.state_m = spinlock.state_m ∧ ∀ thread,
    (spinlock'.threads thread).exclusive = (spinlock.threads thread).exclusive ∧
      (spinlock'.threads thread).shared = (spinlock.threads thread).shared

/-- The thread of an operation. -/
def actor : SpinlockOp k → Fin k
  | .call thread _ => thread
  | .turn thread _ => thread

/-- The place is inside a try call. -/
def Trying : SpinlockPc → Prop
  | .tryLock => True
  | .tryLockSharedLoad => True
  | .tryLockShared _ => True
  | _ => False

def IsTry : SpinlockCall → Prop
  | .tryLock => True
  | .tryLockShared => True
  | _ => False

/-- An operation that is not the entry of the thread into a call. -/
def NoCall (thread : Fin k) : SpinlockOp k → Prop
  | .call caller _ => caller ≠ thread
  | .turn _ _ => True

theorem untouched_goto (pc : SpinlockPc) : spinlock.Untouched (spinlock.goto thread pc) :=
  ⟨rfl, fun other => goto_holds pc other⟩

/-- Operations of other threads leave the thread alone. -/
theorem threads_step_of_ne (spinlock : SharedSpinlock k) (op : SpinlockOp k)
    (differ : thread ≠ actor op) :
    ((spinlockMachine k).next spinlock op).threads thread = spinlock.threads thread := by
  cases op with
  | call caller function =>
      show (spinlock.step (.call caller function)).2.threads thread = _
      simp only [step]
      split
      · exact Function.update_of_ne differ _ _
      · rfl
  | turn turner spurious =>
      have turned := turn_step spinlock turner spurious
      show (spinlock.turn turner spurious).2.threads thread = _
      cases answered : spinlock.turn turner spurious with
      | mk answer spinlock' =>
          rw [answered] at turned
          cases turned with
          | idle _ => rfl
          | wait pc _ => exact Function.update_of_ne differ _ _
          | refuse => exact threads_leave_of_ne differ _ _ _
          | takeExclusive _ => exact threads_leave_of_ne differ _ _ _
          | takeShared _ _ => exact threads_leave_of_ne differ _ _ _
          | giveExclusive _ => exact threads_leave_of_ne differ _ _ _
          | giveShared _ => exact threads_leave_of_ne differ _ _ _

/-- Outside of calls a turn does nothing. -/
theorem turn_outside (place : (spinlock.threads thread).pc = .outside) (spurious : Bool) :
    spinlock.turn thread spurious = (none, spinlock) := by
  simp only [turn, place]

/-- **A turn inside a try call.** It goes on inside the call, or returns `false`, and touches
nothing; or it returns `true`. -/
theorem turn_trying (trying : Trying (spinlock.threads thread).pc) (spurious : Bool) :
    ((spinlock.turn thread spurious).1 = none ∧
      spinlock.Untouched (spinlock.turn thread spurious).2 ∧
      Trying ((spinlock.turn thread spurious).2.threads thread).pc) ∨
    ((spinlock.turn thread spurious).1 = some false ∧
      spinlock.Untouched (spinlock.turn thread spurious).2 ∧
      ((spinlock.turn thread spurious).2.threads thread).pc = .outside) ∨
    ((spinlock.turn thread spurious).1 = some true ∧
      ((spinlock.turn thread spurious).2.threads thread).pc = .outside) := by
  have refused : spinlock.Untouched (spinlock.leave thread spinlock.state_m
      (spinlock.threads thread).exclusive (spinlock.threads thread).shared) := by
    refine ⟨rfl, fun other => ?_⟩
    by_cases same : other = thread
    · subst same
      rw [threads_leave_self]
      exact ⟨rfl, rfl⟩
    · rw [threads_leave_of_ne same]
      exact ⟨rfl, rfl⟩
  cases place : (spinlock.threads thread).pc with
  | tryLock =>
      by_cases free : spinlock.state_m = 0
      · simp only [turn, compareExchange, place, free, and_self, if_true]
        exact .inr (.inr ⟨trivial, congrArg _ (threads_leave_self _ _ _)⟩)
      · simp only [turn, compareExchange, place, free, false_and, if_false]
        exact .inr (.inl ⟨trivial, refused, congrArg _ (threads_leave_self _ _ _)⟩)
  | tryLockSharedLoad =>
      simp only [turn, place]
      refine .inl ⟨trivial, untouched_goto _, ?_⟩
      simp only [goto, Function.update_self, Trying]
  | tryLockShared expected =>
      by_cases readable : 0 ≤ expected
      · by_cases exchanges : spinlock.state_m = expected ∧ spurious = false
        · obtain ⟨rfl, rfl⟩ := exchanges
          simp only [turn, compareExchange, place, readable, if_true, and_self]
          exact .inr (.inr ⟨trivial, congrArg _ (threads_leave_self _ _ _)⟩)
        · simp only [turn, compareExchange, place, readable, exchanges, if_true, if_false]
          refine .inl ⟨trivial, untouched_goto _, ?_⟩
          simp only [goto, Function.update_self, Trying]
      · simp only [turn, place, readable, if_false]
        exact .inr (.inl ⟨trivial, refused, congrArg _ (threads_leave_self _ _ _)⟩)
  | outside => simp only [place, Trying] at trying
  | lock => simp only [place, Trying] at trying
  | unlock => simp only [place, Trying] at trying
  | lockSharedLoad => simp only [place, Trying] at trying
  | lockShared expected => simp only [place, Trying] at trying
  | unlockShared => simp only [place, Trying] at trying

/-- The operations of the thread in this run touch nothing. -/
def Harmless (thread : Fin k) : SharedSpinlock k → List (SpinlockOp k) → Prop :=
  (spinlockMachine k).Along fun spinlock op =>
    actor op = thread → spinlock.Untouched ((spinlockMachine k).next spinlock op)

/-- A thread outside of calls that enters none gets no answer. -/
theorem outside_exec {during : List (SpinlockOp k)} (noCall : ∀ op ∈ during, NoCall thread op)
    (place : (spinlock.threads thread).pc = .outside) :
    (((spinlockMachine k).exec spinlock during).threads thread).pc = .outside := by
  induction during generalizing spinlock with
  | nil => exact place
  | cons op ops ih =>
      refine ih (fun other member => noCall other (List.mem_cons_of_mem _ member)) ?_
      by_cases own : thread = actor op
      · cases op with
        | call caller function => exact absurd own.symm (noCall _ List.mem_cons_self)
        | turn turner spurious =>
            have same : thread = turner := own
            subst same
            show ((spinlock.turn thread spurious).2.threads thread).pc = _
            rw [turn_outside place]
            exact place
      · rw [threads_step_of_ne spinlock op own]
        exact place

/-- From inside a try call to the turn that returns `false`, no turn of the thread touches
anything. -/
theorem harmless_of_trying {during : List (SpinlockOp k)}
    (noCall : ∀ op ∈ during, NoCall thread op) (spurious : Bool)
    (trying : Trying (spinlock.threads thread).pc)
    (refused : (spinlockMachine k).answer ((spinlockMachine k).exec spinlock during)
      (.turn thread spurious) = some false) :
    Harmless thread spinlock (during ++ [.turn thread spurious]) := by
  induction during generalizing spinlock with
  | nil =>
      refine ⟨fun _ => ?_, trivial⟩
      have answered : (spinlock.turn thread spurious).1 = some false := refused
      rcases turn_trying trying spurious with ⟨_, untouched, _⟩ | ⟨_, untouched, _⟩ | ⟨granted, _⟩
      · exact untouched
      · exact untouched
      · rw [answered] at granted
        cases granted
  | cons op ops ih =>
      have later : ∀ other ∈ ops, NoCall thread other := fun other member =>
        noCall other (List.mem_cons_of_mem _ member)
      by_cases own : thread = actor op
      · cases op with
        | call caller function => exact absurd own.symm (noCall _ List.mem_cons_self)
        | turn turner early =>
            have same : thread = turner := own
            subst same
            -- a call that returned before cannot return `false` at the end of the run
            have impossible : ((spinlock.turn thread early).2.threads thread).pc = .outside →
                False := by
              intro place
              have still := outside_exec later place
              have answered : (((spinlockMachine k).exec (spinlock.turn thread early).2 ops).turn
                thread spurious).1 = some false := refused
              rw [turn_outside still] at answered
              cases answered
            rcases turn_trying trying early with ⟨_, untouched, going⟩ | ⟨_, _, place⟩ | ⟨_, place⟩
            · exact ⟨fun _ => untouched, ih later going refused⟩
            · exact (impossible place).elim
            · exact (impossible place).elim
      · refine ⟨fun self => absurd self.symm own, ih later ?_ refused⟩
        rw [threads_step_of_ne spinlock op own]
        exact trying

/-- **A try call that returns `false`** touched nothing in any of its turns, whatever the other
threads did meanwhile. -/
theorem failedTry_along {function : SpinlockCall} (isTry : IsTry function)
    (place : (spinlock.threads thread).pc = .outside) {during : List (SpinlockOp k)}
    (noCall : ∀ op ∈ during, NoCall thread op) (spurious : Bool)
    (refused : (spinlockMachine k).answer
      ((spinlockMachine k).exec spinlock (.call thread function :: during))
      (.turn thread spurious) = some false) :
    Harmless thread spinlock (.call thread function :: during ++ [.turn thread spurious]) := by
  have entered : (spinlockMachine k).next spinlock (.call thread function)
      = spinlock.goto thread (entry function) := by
    show (spinlock.step (.call thread function)).2 = _
    simp only [step, place]
  refine ⟨fun _ => ?_, ?_⟩
  · rw [entered]
    exact untouched_goto _
  · rw [entered]
    rw [Machine.exec_cons, entered] at refused
    refine harmless_of_trying noCall spurious ?_ refused
    simp only [goto, Function.update_self]
    cases function <;> first | exact isTry.elim | trivial

/-- What a thread holds after a run in which its own operations touch nothing. -/
theorem holds_of_harmless {ops : List (SpinlockOp k)} (harmless : Harmless thread spinlock ops) :
    (((spinlockMachine k).exec spinlock ops).threads thread).exclusive
        = (spinlock.threads thread).exclusive ∧
      (((spinlockMachine k).exec spinlock ops).threads thread).shared
        = (spinlock.threads thread).shared := by
  induction ops generalizing spinlock with
  | nil => exact ⟨rfl, rfl⟩
  | cons op ops ih =>
      obtain ⟨first, later⟩ := harmless
      obtain ⟨exclusive, shared⟩ := ih later
      rw [Machine.exec_cons, exclusive, shared]
      by_cases own : thread = actor op
      · exact (first own.symm).2 thread
      · rw [threads_step_of_ne spinlock op own]
        exact ⟨rfl, rfl⟩

/-- **The shared spinlock is safe.** Whatever the schedule of `k` threads with at most `depth`
shared holds each, `state_m` says exactly who holds the lock, an exclusive holder is alone, and a
try call that returns `false` changed nothing and acquired nothing. -/
theorem spinlock_safe (k depth : Nat) (few : k * depth < 2 ^ 31 - 1) (ops : List (SpinlockOp k))
    (disciplined : (spinlockMachine k).Along (Disciplined depth) (init k) ops) :
    (spinlockMachine k).Always Exact (init k) ops ∧
    ∀ (before during after : List (SpinlockOp k)) (thread : Fin k) (function : SpinlockCall)
      (spurious : Bool),
      ops = before ++ .call thread function :: during ++ .turn thread spurious :: after →
      (((spinlockMachine k).exec (init k) before).threads thread).pc = .outside →
      IsTry function → (∀ op ∈ during, NoCall thread op) →
      (spinlockMachine k).answer
        ((spinlockMachine k).exec (init k) (before ++ .call thread function :: during))
        (.turn thread spurious) = some false →
      Harmless thread ((spinlockMachine k).exec (init k) before)
          (.call thread function :: during ++ [.turn thread spurious]) ∧
        (((spinlockMachine k).exec (init k)
            (before ++ .call thread function :: during ++ [.turn thread spurious])).threads
              thread).exclusive
          = (((spinlockMachine k).exec (init k) before).threads thread).exclusive ∧
        (((spinlockMachine k).exec (init k)
            (before ++ .call thread function :: during ++ [.turn thread spurious])).threads
              thread).shared
          = (((spinlockMachine k).exec (init k) before).threads thread).shared := by
  constructor
  · refine (Machine.always_of_step (sound_step few) (sound_init k depth) disciplined).imp ?_
    exact fun _ sound => sound.exact
  · intro before during after thread function spurious _ place isTry noCall refused
    rw [Machine.exec_append] at refused
    have harmless := failedTry_along isTry place noCall spurious refused
    refine ⟨harmless, ?_⟩
    rw [List.append_assoc, Machine.exec_append]
    exact holds_of_harmless harmless

/-- Two readers, of which one runs into a spurious failure, and a writer that is refused. -/
theorem spinlock_safe_example :
    (spinlockMachine 3).Always Exact (init 3)
      [.call 0 .lockShared, .turn 0 false, .call 1 .tryLockShared, .turn 1 false, .turn 0 true,
        .turn 1 false, .turn 0 false, .call 2 .tryLock, .turn 0 false, .turn 2 false] :=
  (spinlock_safe 3 1 (by decide) _ (by
    simp [Machine.Along, Disciplined, Machine.next, spinlockMachine, step, turn, init, goto,
      entry])).1

end SharedSpinlock

end Yadb
