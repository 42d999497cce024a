/-
**Which frame an eviction takes.**

The policy that `lru_k_replacer.h` states, over the accesses of every frame since it was last
evicted: while some evictable frame has fewer than `k` accesses, one of these whose earliest access
is oldest (a frame without an access first); otherwise the evictable frame whose `k`-th most recent
access is oldest. The replacer keeps the last `k` accesses of every frame, so the `k`-th most recent
access is at the front of a full history; among full histories `EvictFrame` compares the backs.

* `evictFrame_chosen`: which frame the loop of `EvictFrame` takes, by the histories.
* `Tracks`: a history is the last `k` accesses of its frame, along every run.
* `evictFrame_lruK_iff`: an eviction of a run follows the policy exactly when some evictable frame
  has fewer than `k` accesses, or the evictable frame that was not accessed for longest is also the
  one whose `k`-th most recent access is oldest.
-/

import Yadb.Foundation.Machine
import Yadb.Storage.Buffer.Replacer
import Mathlib.Data.Bool.Basic

set_option linter.unusedSectionVars false

namespace Yadb

open Foundation

/-! ### The policy -/

/-- Every access of every frame since the frame was last evicted, oldest first. -/
structure AccessLog (Id : Type) where
  now : Nat
  times : Id → List Nat

namespace AccessLog

variable {Id : Type}

def isShort (k : Nat) (log : AccessLog Id) (id : Id) : Prop := (log.times id).length < k

instance (k : Nat) (log : AccessLog Id) (id : Id) : Decidable (log.isShort k id) :=
  inferInstanceAs (Decidable (_ < _))

/-- The earliest access of `id` is not after the earliest of `other`; no access comes first. -/
def EarliestLE (log : AccessLog Id) (id other : Id) : Prop :=
  log.times id = [] ∨ (log.times other ≠ [] ∧
    (log.times id).headD 0 ≤ (log.times other).headD 0)

/-- The `k`-th most recent of at least `k` accesses. -/
def kthRecent (k : Nat) (log : AccessLog Id) (id : Id) : Nat :=
  ((log.times id).drop ((log.times id).length - k)).headD 0

def lastAccess (log : AccessLog Id) (id : Id) : Nat := (log.times id).getLastD 0

end AccessLog

/-- The frame that LRU-K evicts, among the evictable ones. -/
def LruKVictim {Id : Type} (k : Nat) (log : AccessLog Id) (evictable : List Id) :
    Option Id → Prop
  | none => evictable = []
  | some id => id ∈ evictable ∧
      if ∃ other ∈ evictable, log.isShort k other then
        log.isShort k id ∧ ∀ other ∈ evictable, log.isShort k other → log.EarliestLE id other
      else
        ∀ other ∈ evictable, log.kthRecent k id ≤ log.kthRecent k other

/-- The condition under which `EvictFrame` follows the policy. -/
def LastAccessDecides {Id : Type} (k : Nat) (log : AccessLog Id) (evictable : List Id) : Prop :=
  (∀ other ∈ evictable, ¬ log.isShort k other) →
    ∀ id ∈ evictable, (∀ other ∈ evictable, log.lastAccess id ≤ log.lastAccess other) →
      ∀ other ∈ evictable, log.kthRecent k id ≤ log.kthRecent k other

namespace LRUKReplacer

variable {Id : Type} [DecidableEq Id] {replacer : LRUKReplacer Id}

/-! ### The loop -/

/-- The candidate after the frames `seen`, all of which have a history when they are evictable. -/
structure LoopInvariant (replacer : LRUKReplacer Id) (seen : List Id) (toRemove : Option Id)
    (foundShortHistory : Bool) : Prop where
  accessed : ∀ other ∈ seen, (replacer.entry other).isEvictable = true →
    (replacer.entry other).history ≠ []
  nothing : toRemove = none → ∀ other ∈ seen, (replacer.entry other).isEvictable = false
  candidate : ∀ id, toRemove = some id → id ∈ seen ∧ (replacer.entry id).isEvictable = true
  mode : ∀ id, toRemove = some id →
    foundShortHistory = decide ((replacer.entry id).history.length < replacer.k)
  short : ∀ id, toRemove = some id → foundShortHistory = true →
    ∀ other ∈ seen, (replacer.entry other).isEvictable = true →
      (replacer.entry other).history.length < replacer.k →
      (replacer.entry id).history.headD 0 ≤ (replacer.entry other).history.headD 0
  full : ∀ id, toRemove = some id → foundShortHistory = false →
    ∀ other ∈ seen, (replacer.entry other).isEvictable = true →
      ¬ (replacer.entry other).history.length < replacer.k ∧
      (replacer.entry id).history.getLastD 0 ≤ (replacer.entry other).history.getLastD 0

/-- What the loop returns after all the frames. -/
def LoopResult (replacer : LRUKReplacer Id) (all : List Id) : Option Id → Prop
  | none => ∀ other ∈ all, (replacer.entry other).isEvictable = false
  | some id => id ∈ all ∧ (replacer.entry id).isEvictable = true ∧
      ((replacer.entry id).history = [] ∨
        ∃ foundShortHistory, LoopInvariant replacer all (some id) foundShortHistory)

theorem LoopInvariant.result {all : List Id} {toRemove : Option Id} {found : Bool}
    (invariant : LoopInvariant replacer all toRemove found) : LoopResult replacer all toRemove := by
  cases toRemove with
  | none => exact invariant.nothing rfl
  | some id => exact ⟨(invariant.candidate id rfl).1, (invariant.candidate id rfl).2,
      .inr ⟨found, invariant⟩⟩

/-- A frame that is not evictable changes nothing. -/
theorem LoopInvariant.skip {seen : List Id} {toRemove : Option Id} {found : Bool} {id : Id}
    (invariant : LoopInvariant replacer seen toRemove found)
    (pinned : (replacer.entry id).isEvictable = false) :
    LoopInvariant replacer (seen ++ [id]) toRemove found := by
  have earlier : ∀ {other}, other ∈ seen ++ [id] → (replacer.entry other).isEvictable = true →
      other ∈ seen := by
    intro other member evictable
    rcases List.mem_append.mp member with before | last
    · exact before
    · rw [List.mem_singleton.mp last, pinned] at evictable
      cases evictable
  refine ⟨fun other member evictable => ?_, fun none other member => ?_, fun other candidate => ?_,
    invariant.mode, fun other candidate isShort third member evictable => ?_,
    fun other candidate isFull third member evictable => ?_⟩
  · exact invariant.accessed other (earlier member evictable) evictable
  · by_contra evictable
    have evictable := Bool.eq_true_of_not_eq_false evictable
    rw [invariant.nothing none other (earlier member evictable)] at evictable
    cases evictable
  · exact ⟨List.mem_append_left _ (invariant.candidate other candidate).1,
      (invariant.candidate other candidate).2⟩
  · exact invariant.short other candidate isShort third (earlier member evictable) evictable
  · exact invariant.full other candidate isFull third (earlier member evictable) evictable

/-- The next frame becomes the candidate: it is the first, or it beats the one before by the
comparison of its mode. -/
theorem LoopInvariant.take {seen : List Id} {toRemove : Option Id} {found : Bool} {id : Id}
    (invariant : LoopInvariant replacer seen toRemove found)
    (evictable : (replacer.entry id).isEvictable = true)
    (accessed : (replacer.entry id).history ≠ [])
    (beats : ∀ candidate, toRemove = some candidate →
      ((replacer.entry id).history.length < replacer.k ∧ found = false) ∨
      ((replacer.entry id).history.length < replacer.k ∧ found = true ∧
        (replacer.entry id).history.headD 0 ≤ (replacer.entry candidate).history.headD 0) ∨
      (¬ (replacer.entry id).history.length < replacer.k ∧ found = false ∧
        (replacer.entry id).history.getLastD 0
          ≤ (replacer.entry candidate).history.getLastD 0)) :
    LoopInvariant replacer (seen ++ [id]) (some id)
      (decide ((replacer.entry id).history.length < replacer.k)) := by
  have others : ∀ {other}, other ∈ seen ++ [id] → (replacer.entry other).isEvictable = true →
      other = id ∨ ∃ candidate, toRemove = some candidate ∧ other ∈ seen := by
    intro other member also
    rcases List.mem_append.mp member with before | last
    · cases toRemove with
      | none =>
          rw [invariant.nothing rfl other before] at also
          cases also
      | some candidate => exact .inr ⟨candidate, rfl, before⟩
    · exact .inl (List.mem_singleton.mp last)
  refine ⟨fun other member also => ?_, nofun, fun other same => ?_, fun other same => ?_,
    fun other same isShort third member also thirdShort => ?_,
    fun other same isFull third member also => ?_⟩
  · rcases List.mem_append.mp member with before | last
    · exact invariant.accessed other before also
    · rw [List.mem_singleton.mp last]
      exact accessed
  · cases same
    exact ⟨List.mem_append_right _ (List.mem_singleton.mpr rfl), evictable⟩
  · cases same
    rfl
  · cases same
    have idShort := of_decide_eq_true isShort
    rcases others member also with rfl | ⟨candidate, isCandidate, before⟩
    · exact Nat.le_refl _
    · rcases beats candidate isCandidate with ⟨_, wasFull⟩ | ⟨_, wasShort, older⟩ | ⟨long, _, _⟩
      · exact absurd thirdShort (invariant.full candidate isCandidate wasFull third before also).1
      · exact Nat.le_trans older (invariant.short candidate isCandidate wasShort third before
          also thirdShort)
      · exact absurd idShort long
  · cases same
    have long := of_decide_eq_false isFull
    rcases others member also with rfl | ⟨candidate, isCandidate, before⟩
    · exact ⟨long, Nat.le_refl _⟩
    · rcases beats candidate isCandidate with ⟨idShort, _⟩ | ⟨idShort, _, _⟩ | ⟨_, wasFull, older⟩
      · exact absurd idShort long
      · exact absurd idShort long
      · obtain ⟨thirdLong, newer⟩ := invariant.full candidate isCandidate wasFull third before also
        exact ⟨thirdLong, Nat.le_trans older newer⟩

/-- The candidate stays: the next frame does not beat it. -/
theorem LoopInvariant.stay {seen : List Id} {candidate id : Id} {found : Bool}
    (invariant : LoopInvariant replacer seen (some candidate) found)
    (accessed : (replacer.entry id).history ≠ [])
    (loses : ((replacer.entry id).history.length < replacer.k → found = true ∧
        (replacer.entry candidate).history.headD 0 ≤ (replacer.entry id).history.headD 0) ∧
      (¬ (replacer.entry id).history.length < replacer.k → found = false →
        (replacer.entry candidate).history.getLastD 0
          ≤ (replacer.entry id).history.getLastD 0)) :
    LoopInvariant replacer (seen ++ [id]) (some candidate) found := by
  refine ⟨fun other member also => ?_, nofun, fun other same => ?_, invariant.mode,
    fun other same isShort third member also thirdShort => ?_,
    fun other same isFull third member also => ?_⟩
  · rcases List.mem_append.mp member with before | last
    · exact invariant.accessed other before also
    · rw [List.mem_singleton.mp last]
      exact accessed
  · obtain ⟨before, evictable⟩ := invariant.candidate other same
    exact ⟨List.mem_append_left _ before, evictable⟩
  · cases same
    rcases List.mem_append.mp member with before | last
    · exact invariant.short candidate rfl isShort third before also thirdShort
    · rw [List.mem_singleton.mp last] at thirdShort ⊢
      exact (loses.1 thirdShort).2
  · cases same
    rcases List.mem_append.mp member with before | last
    · exact invariant.full candidate rfl isFull third before also
    · rw [List.mem_singleton.mp last]
      have long : ¬ (replacer.entry id).history.length < replacer.k := by
        intro idShort
        rw [isFull] at loses
        cases (loses.1 idShort).1
      exact ⟨long, loses.2 long isFull⟩

/-- **The loop rule.** -/
theorem evictLoop_result {seen : List Id} (rest : List Id) {toRemove : Option Id} {found : Bool}
    (invariant : LoopInvariant replacer seen toRemove found) :
    LoopResult replacer (seen ++ rest) (replacer.evictLoop rest toRemove found) := by
  induction rest generalizing seen toRemove found with
  | nil =>
      rw [List.append_nil]
      exact invariant.result
  | cons id rest ih =>
      rw [List.append_cons]
      unfold evictLoop
      by_cases pinned : (replacer.entry id).isEvictable = false
      · simp only [pinned, Bool.not_false, if_true]
        exact ih (invariant.skip pinned)
      · have evictable := Bool.eq_true_of_not_eq_false pinned
        simp only [evictable, Bool.not_true, Bool.false_eq_true, if_false]
        by_cases empty : (replacer.entry id).history = []
        · simp only [empty, List.isEmpty_nil, if_true]
          exact ⟨List.mem_append_left _ (List.mem_append_right _ (List.mem_singleton.mpr rfl)),
            evictable, .inl empty⟩
        · have notEmpty : (replacer.entry id).history.isEmpty = false := by
            simpa using empty
          simp only [notEmpty, Bool.false_eq_true, if_false]
          cases toRemove with
          | none => exact ih (invariant.take evictable empty nofun)
          | some candidate =>
              by_cases idShort : (replacer.entry id).history.length < replacer.k
              · cases found with
                | false =>
                    simp only [idShort, decide_true, Bool.not_false, Bool.and_self, if_true]
                    have taken := invariant.take evictable empty
                      fun _ _ => .inl ⟨idShort, rfl⟩
                    rw [decide_eq_true idShort] at taken
                    exact ih taken
                | true =>
                    by_cases older : (replacer.entry id).history.headD 0
                        < (replacer.entry candidate).history.headD 0
                    · have taken := invariant.take evictable empty fun other same => by
                        cases same
                        exact .inr (.inl ⟨idShort, rfl, Nat.le_of_lt older⟩)
                      rw [decide_eq_true idShort] at taken
                      simpa [idShort, older, -List.headD_eq_head?_getD,
                        -List.getLastD_eq_getLast?] using ih taken
                    · have stays := invariant.stay empty
                        ⟨fun _ => ⟨rfl, Nat.le_of_not_lt older⟩, fun long => absurd idShort long⟩
                      simpa [idShort, older, -List.headD_eq_head?_getD,
                        -List.getLastD_eq_getLast?] using ih stays
              · cases found with
                | true =>
                    have stays := invariant.stay empty
                      ⟨fun short => absurd short idShort, fun _ => nofun⟩
                    simpa [idShort] using ih stays
                | false =>
                    by_cases older : (replacer.entry id).history.getLastD 0
                        < (replacer.entry candidate).history.getLastD 0
                    · have taken := invariant.take evictable empty fun other same => by
                        cases same
                        exact .inr (.inr ⟨idShort, rfl, Nat.le_of_lt older⟩)
                      rw [decide_eq_false idShort] at taken
                      simpa [idShort, older, -List.headD_eq_head?_getD,
                        -List.getLastD_eq_getLast?] using ih taken
                    · have stays := invariant.stay empty
                        ⟨fun short => absurd short idShort, fun _ _ => Nat.le_of_not_lt older⟩
                      simpa [idShort, older, -List.headD_eq_head?_getD,
                        -List.getLastD_eq_getLast?] using ih stays

/-- **The frame that `EvictFrame` takes**, by the histories, and what it does to them. -/
theorem evictFrame_chosen (replacer : LRUKReplacer Id) :
    LoopResult replacer replacer.frames replacer.evictFrame.1 ∧
      replacer.evictFrame.2 = (match replacer.evictFrame.1 with
        | none => replacer
        | some id => replacer.clearHistory id) := by
  have start : LoopInvariant replacer [] none false := by
    refine ⟨?_, ?_, ?_, ?_, ?_, ?_⟩ <;> nofun
  have result := evictLoop_result replacer.frames start
  rw [List.nil_append] at result
  unfold evictFrame
  cases found : replacer.evictLoop replacer.frames none false with
  | none =>
      rw [found] at result
      exact ⟨result, rfl⟩
  | some id =>
      rw [found] at result
      exact ⟨result, rfl⟩

end LRUKReplacer

/-! ### Runs of the replacer -/

inductive ReplacerOp (Id : Type)
  | recordAccess (id : Id)
  | setEvictable (id : Id) (evictable : Bool)
  | evictFrame

/-- The replacer, with the accesses that it got from registered frames. -/
structure LoggedReplacer (Id : Type) where
  replacer : LRUKReplacer Id
  log : AccessLog Id

namespace LoggedReplacer

variable {Id : Type} [DecidableEq Id]

/-- The access of a registered frame is logged, and the log of the frame that is evicted is
emptied. -/
def step (state : LoggedReplacer Id) : ReplacerOp Id → Option Id × LoggedReplacer Id
  | .recordAccess id =>
      (none, { replacer := state.replacer.recordAccess id
               log := if id ∈ state.replacer.frames then
                   { now := state.log.now + 1
                     times := Function.update state.log.times id
                       (state.log.times id ++ [state.log.now]) }
                 else state.log })
  | .setEvictable id evictable =>
      (none, { state with replacer := state.replacer.setEvictable id evictable })
  | .evictFrame => match state.replacer.evictFrame with
    | (none, replacer) => (none, { state with replacer })
    | (some id, replacer) =>
        (some id, { replacer, log := { state.log with
          times := Function.update state.log.times id [] } })

end LoggedReplacer

def replacerMachine (Id : Type) [DecidableEq Id] :
    Machine (LoggedReplacer Id) (ReplacerOp Id) (Option Id) := ⟨LoggedReplacer.step⟩

namespace LoggedReplacer

variable {Id : Type} [DecidableEq Id] {state : LoggedReplacer Id}

/-- The replacer and the empty log, before the first access. -/
def start (replacer : LRUKReplacer Id) : LoggedReplacer Id :=
  ⟨replacer, ⟨replacer.currentTimestamp, fun _ => []⟩⟩

/-- An eviction takes the frame of the policy, and resets no history but its. -/
def FollowsPolicy (state : LoggedReplacer Id) : ReplacerOp Id → Prop
  | .evictFrame =>
      LruKVictim state.replacer.k state.log state.replacer.evictableFrames
          state.replacer.evictFrame.1 ∧
        state.replacer.evictFrame.2 = (match state.replacer.evictFrame.1 with
          | none => state.replacer
          | some id => state.replacer.clearHistory id)
  | _ => True

/-- The condition on the evictions of a run. -/
def MeetsCondition (state : LoggedReplacer Id) : ReplacerOp Id → Prop
  | .evictFrame =>
      LastAccessDecides state.replacer.k state.log state.replacer.evictableFrames
  | _ => True

/-- The last `k` of a list. -/
def lastOf (k : Nat) (times : List Nat) : List Nat := times.drop (times.length - k)

/-- **The invariant.** A history is the last `k` accesses, and no two accesses are at one time. -/
structure Tracks (state : LoggedReplacer Id) : Prop where
  positive : 1 ≤ state.replacer.k
  clock : state.replacer.currentTimestamp = state.log.now
  history : ∀ id ∈ state.replacer.frames,
    (state.replacer.entry id).history = lastOf state.replacer.k (state.log.times id)
  before : ∀ id, ∀ time ∈ state.log.times id, time < state.log.now
  apart : ∀ id other time, time ∈ state.log.times id → time ∈ state.log.times other → id = other

/-! ### Histories are the last accesses -/

theorem length_lastOf (k : Nat) (times : List Nat) :
    (lastOf k times).length = min k times.length := by
  rw [lastOf, List.length_drop]
  omega

theorem lastOf_short {k : Nat} {times : List Nat} (short : times.length < k) :
    lastOf k times = times := by
  rw [lastOf, Nat.sub_eq_zero_of_le (Nat.le_of_lt short), List.drop_zero]

/-- Pushing an access and dropping the front of a history that grew too long. -/
theorem lastOf_push (k : Nat) (times : List Nat) (time : Nat) :
    lastOf k (times ++ [time])
      = (if (lastOf k times ++ [time]).length > k then (lastOf k times ++ [time]).tail
        else lastOf k times ++ [time]) := by
  have size : (lastOf k times ++ [time]).length = min k times.length + 1 := by
    rw [List.length_append, length_lastOf, List.length_singleton]
  rw [size]
  have whole : (times ++ [time]).length = times.length + 1 := List.length_append
  have part : lastOf k times ++ [time] = (times ++ [time]).drop (times.length - k) := by
    rw [List.drop_append_of_le_length (Nat.sub_le _ _), lastOf]
  split
  · rw [part, List.tail_drop, lastOf, whole]
    congr 1
    omega
  · rw [part, lastOf, whole]
    congr 1
    omega

theorem getLastD_lastOf {k : Nat} (positive : 1 ≤ k) (times : List Nat) :
    (lastOf k times).getLastD 0 = times.getLastD 0 := by
  induction times using List.reverseRecOn with
  | nil => rw [lastOf, List.drop_nil]
  | append_singleton front last =>
    have inside : (front ++ [last]).length - k ≤ front.length := by
      rw [List.length_append, List.length_singleton]
      omega
    rw [lastOf, List.drop_append_of_le_length inside]
    simp only [List.getLastD_concat]

/-! ### The invariant along a run -/

theorem tracks_start {replacer : LRUKReplacer Id} (positive : 1 ≤ replacer.k)
    (fresh : ∀ id ∈ replacer.frames, (replacer.entry id).history = []) :
    Tracks (start replacer) where
  positive := positive
  clock := rfl
  history id registered := by
    rw [show (start replacer).replacer = replacer from rfl, fresh id registered]
    exact (List.drop_nil).symm
  before _ _ member := nomatch member
  apart _ _ _ member := nomatch member

theorem Tracks.recordAccess (tracks : Tracks state) (id : Id) :
    Tracks (state.step (.recordAccess id)).2 := by
  by_cases registered : id ∈ state.replacer.frames
  · simp only [step, LRUKReplacer.recordAccess, registered, if_true]
    -- a logged time is an earlier one of the frame, or the present one of `id`
    have origin : ∀ {frame time}, time ∈ Function.update state.log.times id
        (state.log.times id ++ [state.log.now]) frame →
        time ∈ state.log.times frame ∨ (frame = id ∧ time = state.log.now) := by
      intro frame time member
      by_cases same : frame = id
      · subst same
        rw [Function.update_self] at member
        exact (List.mem_append.mp member).imp_right fun new => ⟨rfl, List.mem_singleton.mp new⟩
      · rw [Function.update_of_ne same] at member
        exact .inl member
    refine ⟨tracks.positive, congrArg Nat.succ tracks.clock, fun other member => ?_,
      fun other time member => ?_, fun first second time one two => ?_⟩
    · by_cases same : other = id
      · subst same
        simp only [Function.update_self, tracks.clock, tracks.history other registered, lastOf_push]
      · simp only [Function.update_of_ne same]
        exact tracks.history other member
    · rcases origin member with old | ⟨_, rfl⟩
      · exact Nat.lt_succ_of_lt (tracks.before other time old)
      · exact Nat.lt_succ_self _
    · rcases origin one with old | ⟨rfl, rfl⟩
      · rcases origin two with also | ⟨rfl, rfl⟩
        · exact tracks.apart first second time old also
        · exact absurd (tracks.before first _ old) (Nat.lt_irrefl _)
      · rcases origin two with also | ⟨rfl, _⟩
        · exact absurd (tracks.before second _ also) (Nat.lt_irrefl _)
        · rfl
  · simp only [step, LRUKReplacer.recordAccess, registered, if_false]
    exact tracks

theorem Tracks.setEvictable (tracks : Tracks state) (id : Id) (evictable : Bool) :
    Tracks (state.step (.setEvictable id evictable)).2 := by
  simp only [step, LRUKReplacer.setEvictable]
  split
  · refine ⟨tracks.positive, tracks.clock, fun other member => ?_, tracks.before, tracks.apart⟩
    by_cases same : other = id
    · subst same
      simp only [Function.update_self]
      exact tracks.history other member
    · simp only [Function.update_of_ne same]
      exact tracks.history other member
  · exact tracks

theorem Tracks.evictFrame (tracks : Tracks state) : Tracks (state.step .evictFrame).2 := by
  obtain ⟨_, after⟩ := LRUKReplacer.evictFrame_chosen state.replacer
  unfold step
  cases evicted : state.replacer.evictFrame with
  | mk victim replacer =>
      rw [evicted] at after
      cases victim with
      | none =>
          have same : replacer = state.replacer := after
          subst same
          exact tracks
      | some id =>
          have cleared : replacer = state.replacer.clearHistory id := after
          subst cleared
          have kept : ∀ {frame time}, time ∈ Function.update state.log.times id [] frame →
              time ∈ state.log.times frame := by
            intro frame time member
            by_cases same : frame = id
            · subst same
              rw [Function.update_self] at member
              cases member
            · rwa [Function.update_of_ne same] at member
          refine ⟨tracks.positive, tracks.clock, fun other member => ?_,
            fun other time member => tracks.before other time (kept member),
            fun first second time one two => tracks.apart first second time (kept one) (kept two)⟩
          by_cases same : other = id
          · subst same
            simp only [LRUKReplacer.clearHistory, Function.update_self]
            exact (List.drop_nil).symm
          · simp only [LRUKReplacer.clearHistory, Function.update_of_ne same]
            exact tracks.history other member

/-- **One step keeps the invariant.** -/
theorem tracks_step (state : LoggedReplacer Id) (op : ReplacerOp Id) (tracks : Tracks state) :
    Tracks ((replacerMachine Id).next state op) := by
  cases op with
  | recordAccess id => exact tracks.recordAccess id
  | setEvictable id evictable => exact tracks.setEvictable id evictable
  | evictFrame => exact tracks.evictFrame

/-! ### The frame that is taken, by the accesses -/

theorem mem_evictableFrames {replacer : LRUKReplacer Id} {id : Id} :
    id ∈ replacer.evictableFrames
      ↔ id ∈ replacer.frames ∧ (replacer.entry id).isEvictable = true :=
  List.mem_filter

theorem Tracks.short_iff (tracks : Tracks state) {id : Id} (registered : id ∈ state.replacer.frames) :
    (state.replacer.entry id).history.length < state.replacer.k
      ↔ state.log.isShort state.replacer.k id := by
  rw [tracks.history id registered, length_lastOf, AccessLog.isShort]
  omega

theorem Tracks.empty_iff (tracks : Tracks state) {id : Id} (registered : id ∈ state.replacer.frames) :
    (state.replacer.entry id).history = [] ↔ state.log.times id = [] := by
  have positive := tracks.positive
  rw [tracks.history id registered, ← List.length_eq_zero_iff, ← List.length_eq_zero_iff,
    length_lastOf]
  omega

theorem Tracks.front_short (tracks : Tracks state) {id : Id}
    (registered : id ∈ state.replacer.frames) (short : state.log.isShort state.replacer.k id) :
    (state.replacer.entry id).history = state.log.times id := by
  rw [tracks.history id registered, lastOf_short short]

theorem Tracks.back (tracks : Tracks state) {id : Id} (registered : id ∈ state.replacer.frames) :
    (state.replacer.entry id).history.getLastD 0 = state.log.lastAccess id := by
  rw [tracks.history id registered, getLastD_lastOf tracks.positive, AccessLog.lastAccess]

/-- Two frames with accesses and the same last access are one. -/
theorem Tracks.eq_of_lastAccess (tracks : Tracks state) {id other : Id}
    (accessed : state.log.times id ≠ []) (also : state.log.times other ≠ [])
    (same : state.log.lastAccess id = state.log.lastAccess other) : id = other := by
  have last : ∀ {frame}, state.log.times frame ≠ [] →
      state.log.lastAccess frame ∈ state.log.times frame := by
    intro frame some
    rw [AccessLog.lastAccess, List.getLastD_eq_getLast?, List.getLast?_eq_some_getLast some]
    exact List.getLast_mem some
  exact tracks.apart id other _ (last accessed) (same ▸ last also)

/-- **An eviction follows the policy exactly under the condition.** -/
theorem followsPolicy_iff (state : LoggedReplacer Id) (tracks : Tracks state) (op : ReplacerOp Id) :
    FollowsPolicy state op ↔ MeetsCondition state op := by
  cases op with
  | recordAccess id => exact Iff.rfl
  | setEvictable id evictable => exact Iff.rfl
  | evictFrame =>
      obtain ⟨result, after⟩ := LRUKReplacer.evictFrame_chosen state.replacer
      simp only [FollowsPolicy, MeetsCondition, and_iff_left after]
      cases victim : state.replacer.evictFrame.1 with
      | none =>
          rw [victim] at result
          have none : state.replacer.evictableFrames = [] := by
            refine List.eq_nil_iff_forall_not_mem.mpr fun other member => ?_
            obtain ⟨registered, evictable⟩ := mem_evictableFrames.mp member
            rw [result other registered] at evictable
            cases evictable
          rw [none]
          exact iff_of_true rfl fun _ _ => nofun
      | some id =>
          rw [victim] at result
          obtain ⟨registered, evictable, rest⟩ := result
          have member := mem_evictableFrames.mpr ⟨registered, evictable⟩
          rcases rest with unused | ⟨foundShortHistory, invariant⟩
          · -- a frame without an access is taken at once
            have never := (tracks.empty_iff registered).mp unused
            have short : state.log.isShort state.replacer.k id := by
              rw [AccessLog.isShort, never]
              exact tracks.positive
            refine iff_of_true ⟨member, ?_⟩ fun full => absurd short (full id member)
            rw [if_pos ⟨id, member, short⟩]
            exact ⟨short, fun _ _ _ => .inl never⟩
          · have mode := invariant.mode id rfl
            cases foundShortHistory with
            | true =>
                have short := (tracks.short_iff registered).mp (of_decide_eq_true mode.symm)
                refine iff_of_true ⟨member, ?_⟩ fun full => absurd short (full id member)
                rw [if_pos ⟨id, member, short⟩]
                refine ⟨short, fun other also otherShort => .inr ?_⟩
                obtain ⟨otherRegistered, otherEvictable⟩ := mem_evictableFrames.mp also
                have accessed := invariant.accessed other otherRegistered otherEvictable
                have older := invariant.short id rfl rfl other otherRegistered otherEvictable
                  ((tracks.short_iff otherRegistered).mpr otherShort)
                rw [tracks.front_short registered short,
                  tracks.front_short otherRegistered otherShort] at older
                exact ⟨fun never => accessed ((tracks.empty_iff otherRegistered).mpr never), older⟩
            | false =>
                -- all evictable histories are full, and the backs decide
                have full : ∀ other ∈ state.replacer.evictableFrames,
                    ¬ state.log.isShort state.replacer.k other := by
                  intro other also short
                  obtain ⟨otherRegistered, otherEvictable⟩ := mem_evictableFrames.mp also
                  exact (invariant.full id rfl rfl other otherRegistered otherEvictable).1
                    ((tracks.short_iff otherRegistered).mpr short)
                have oldest : ∀ other ∈ state.replacer.evictableFrames,
                    state.log.lastAccess id ≤ state.log.lastAccess other := by
                  intro other also
                  obtain ⟨otherRegistered, otherEvictable⟩ := mem_evictableFrames.mp also
                  rw [← tracks.back registered, ← tracks.back otherRegistered]
                  exact (invariant.full id rfl rfl other otherRegistered otherEvictable).2
                have accessed : ∀ other ∈ state.replacer.evictableFrames,
                    state.log.times other ≠ [] := by
                  intro other also never
                  obtain ⟨otherRegistered, otherEvictable⟩ := mem_evictableFrames.mp also
                  exact invariant.accessed other otherRegistered otherEvictable
                    ((tracks.empty_iff otherRegistered).mpr never)
                have noShort : ¬ ∃ other ∈ state.replacer.evictableFrames,
                    state.log.isShort state.replacer.k other := by
                  rintro ⟨other, also, short⟩
                  exact full other also short
                constructor
                · rintro ⟨_, policy⟩ _ first isFirst newest other also
                  rw [if_neg noShort] at policy
                  have same : first = id := tracks.eq_of_lastAccess (accessed first isFirst)
                    (accessed id member) (Nat.le_antisymm (newest id member) (oldest first isFirst))
                  rw [same]
                  exact policy other also
                · intro condition
                  refine ⟨member, ?_⟩
                  rw [if_neg noShort]
                  exact condition full id member oldest

/-- **`EvictFrame` along every run.** For every `k ≥ 1`, every registered frames in every order of
iteration and every sequence of calls, all evictions follow LRU-K exactly when each of them meets
the condition. -/
theorem evictFrame_lruK_iff (replacer : LRUKReplacer Id) (positive : 1 ≤ replacer.k)
    (fresh : ∀ id ∈ replacer.frames, (replacer.entry id).history = [])
    (ops : List (ReplacerOp Id)) :
    (replacerMachine Id).Along FollowsPolicy (start replacer) ops
      ↔ (replacerMachine Id).Along MeetsCondition (start replacer) ops := by
  have always : (replacerMachine Id).Along (fun _ _ => True) (start replacer) ops :=
    Machine.along_of_mem fun _ _ _ => trivial
  have kept : (replacerMachine Id).Along
      (fun state op => FollowsPolicy state op ↔ MeetsCondition state op) (start replacer) ops :=
    Machine.along_of_step (fun state op tracks _ => tracks_step state op tracks)
      (fun state op tracks _ => followsPolicy_iff state tracks op) (tracks_start positive fresh)
      always
  constructor
  · intro follows
    exact (kept.and follows).imp fun _ _ both => both.1.mp both.2
  · intro meets
    exact (kept.and meets).imp fun _ _ both => both.1.mpr both.2

/-- Two frames under `k = 2`, accessed in the order `0, 1, 1, 0`. -/
def crossedAccesses : List (ReplacerOp (Fin 2)) :=
  [.recordAccess 0, .recordAccess 1, .recordAccess 1, .recordAccess 0, .evictFrame]

def twoFrames (k : Nat) : LRUKReplacer (Fin 2) := { frames := [0, 1], k, evictableCount := 2 }

/-- The older of the two second accesses is that of frame `0`, and frame `1` is evicted. -/
theorem evictFrame_not_lruK :
    ¬ (replacerMachine (Fin 2)).Along FollowsPolicy (start (twoFrames 2)) crossedAccesses := by
  rw [evictFrame_lruK_iff _ (by decide) (by decide)]
  rintro ⟨_, _, _, _, condition, _⟩
  exact absurd (condition (by decide) 1 (by decide) (by decide) 0 (by decide)) (by decide)

/-- Under `k = 1` the run is one of LRU. -/
theorem evictFrame_lruK_one :
    (replacerMachine (Fin 2)).Along FollowsPolicy (start (twoFrames 1)) crossedAccesses :=
  (evictFrame_lruK_iff _ (by decide) (by decide) _).mpr
    ⟨trivial, trivial, trivial, trivial, by
      intro _ id _ last other _
      revert last
      revert id other
      decide, trivial⟩

end LoggedReplacer

end Yadb
