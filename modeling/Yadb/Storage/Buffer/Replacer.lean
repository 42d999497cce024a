/-
**The LRU-K replacer.**

`lru_k_replacer.cpp`, generic in the frame ids. `frames` lists the registered frames in the order
in which an iteration over the hash map visits them; nothing below depends on that order. The
evictable counter is a `size_t` and wraps.

* `evictFrame_cases`: all an eviction can do — return nothing and change nothing when no registered
  frame is evictable, or return one that is and clear its history.
* `evictableFrames`: the frames whose flag is set, which the counter is meant to count; what each
  operation does to either is stated beside it.
-/

import Mathlib.Algebra.Group.Nat.Defs
import Mathlib.Logic.Function.Basic
import Mathlib.Data.List.Induction
import Mathlib.Tactic.Common

set_option linter.unusedSectionVars false

namespace Yadb

/-- The number of values of `size_t`. -/
def sizeLimit : Nat := 2 ^ 64

structure LRUFrameHistory where
  history : List Nat := []
  isEvictable : Bool := true
  deriving DecidableEq

/-- `LRUKReplacer`. `k` and `evictableCount` start at zero: value-initialising the replacer
zeroes the members that have no initialiser. -/
structure LRUKReplacer (Id : Type) where
  frames : List Id := []
  entry : Id → LRUFrameHistory := fun _ => {}
  currentTimestamp : Nat := 0
  k : Nat := 0
  evictableCount : Nat := 0

namespace LRUKReplacer

variable {Id : Type} [DecidableEq Id]

/-- `frames_m.emplace` keeps an entry that is already there; the counter goes up regardless. -/
def registerFrame (replacer : LRUKReplacer Id) (id : Id) : LRUKReplacer Id :=
  { replacer with
    frames := if id ∈ replacer.frames then replacer.frames else replacer.frames ++ [id]
    entry := if id ∈ replacer.frames then replacer.entry else Function.update replacer.entry id {}
    evictableCount := (replacer.evictableCount + 1) % sizeLimit }

/-- The loop of `EvictFrame` over the frames not yet visited, with its two locals. -/
def evictLoop (replacer : LRUKReplacer Id) : List Id → Option Id → Bool → Option Id
  | [], toRemove, _ => toRemove
  | id :: rest, toRemove, foundShortHistory =>
      let frame := replacer.entry id
      if !frame.isEvictable then
        replacer.evictLoop rest toRemove foundShortHistory
      else if frame.history.isEmpty then
        some id
      else
        match toRemove with
        | none => replacer.evictLoop rest (some id) (frame.history.length < replacer.k)
        | some candidateId =>
            let currentIsShort : Bool := frame.history.length < replacer.k
            let candidate := replacer.entry candidateId
            if currentIsShort && !foundShortHistory then
              replacer.evictLoop rest (some id) true
            else if currentIsShort == foundShortHistory
                && ((currentIsShort && frame.history.headD 0 < candidate.history.headD 0)
                  || (!currentIsShort && frame.history.getLastD 0 < candidate.history.getLastD 0))
            then
              replacer.evictLoop rest (some id) foundShortHistory
            else
              replacer.evictLoop rest toRemove foundShortHistory

def clearHistory (replacer : LRUKReplacer Id) (id : Id) : LRUKReplacer Id :=
  { replacer with
    entry := Function.update replacer.entry id { replacer.entry id with history := [] } }

def evictFrame (replacer : LRUKReplacer Id) : Option Id × LRUKReplacer Id :=
  match replacer.evictLoop replacer.frames none false with
  | none => (none, replacer)
  | some id => (some id, replacer.clearHistory id)

def recordAccess (replacer : LRUKReplacer Id) (id : Id) : LRUKReplacer Id :=
  if id ∈ replacer.frames then
    let pushed := (replacer.entry id).history ++ [replacer.currentTimestamp]
    let history := if pushed.length > replacer.k then pushed.tail else pushed
    { replacer with
      entry := Function.update replacer.entry id { replacer.entry id with history }
      currentTimestamp := replacer.currentTimestamp + 1 }
  else replacer

/-- The counter moves by one whatever the flag was before. -/
def setEvictable (replacer : LRUKReplacer Id) (id : Id) (evictable : Bool) : LRUKReplacer Id :=
  if id ∈ replacer.frames then
    { replacer with
      evictableCount :=
        if evictable then (replacer.evictableCount + 1) % sizeLimit
        else (replacer.evictableCount + sizeLimit - 1) % sizeLimit
      entry := Function.update replacer.entry id
        { replacer.entry id with isEvictable := evictable } }
  else replacer

def getEvictableCount (replacer : LRUKReplacer Id) : Nat := replacer.evictableCount

/-- The registered frames whose flag is set. -/
def evictableFrames (replacer : LRUKReplacer Id) : List Id :=
  replacer.frames.filter fun id => (replacer.entry id).isEvictable

variable {replacer : LRUKReplacer Id}

/-! ### Eviction -/

/-- The loop returns the candidate it was given or an evictable frame of the rest. -/
theorem evictLoop_mem {rest : List Id} {toRemove : Option Id} {short : Bool} {id : Id}
    (found : replacer.evictLoop rest toRemove short = some id) :
    toRemove = some id ∨ (id ∈ rest ∧ (replacer.entry id).isEvictable = true) := by
  induction rest generalizing toRemove short with
  | nil => exact Or.inl found
  | cons head rest ih =>
      have later : ∀ {candidate : Option Id} {short : Bool},
          replacer.evictLoop rest candidate short = some id →
            candidate = some id ∨ (id ∈ head :: rest ∧ (replacer.entry id).isEvictable = true) :=
        fun found => (ih found).imp_right fun both => ⟨List.mem_cons_of_mem _ both.1, both.2⟩
      unfold evictLoop at found
      by_cases pinned : (replacer.entry head).isEvictable = false
      · simp only [pinned, Bool.not_false, if_true] at found
        exact later found
      · have evictable : (replacer.entry head).isEvictable = true := by simpa using pinned
        have chosen : some head = some id →
            toRemove = some id ∨ (id ∈ head :: rest ∧ (replacer.entry id).isEvictable = true) :=
          fun same => Or.inr (Option.some.inj same ▸ ⟨List.mem_cons_self, evictable⟩)
        simp only [evictable, Bool.not_true, Bool.false_eq_true, if_false] at found
        split at found
        · exact chosen found
        · cases toRemove with
          | none =>
              rcases later found with same | later
              · exact chosen same
              · exact Or.inr later
          | some candidate =>
              simp only at found
              split at found
              · rcases later found with same | later
                · exact chosen same
                · exact Or.inr later
              · split at found
                · rcases later found with same | later
                  · exact chosen same
                  · exact Or.inr later
                · exact later found

/-- A candidate is never dropped, and an evictable frame always makes one. -/
theorem evictLoop_none {rest : List Id} {toRemove : Option Id} {short : Bool}
    (nothing : replacer.evictLoop rest toRemove short = none) :
    toRemove = none ∧ ∀ id ∈ rest, (replacer.entry id).isEvictable = false := by
  induction rest generalizing toRemove short with
  | nil => exact ⟨nothing, nofun⟩
  | cons head rest ih =>
      unfold evictLoop at nothing
      by_cases pinned : (replacer.entry head).isEvictable = false
      · simp only [pinned, Bool.not_false, if_true] at nothing
        obtain ⟨noCandidate, noEvictable⟩ := ih nothing
        exact ⟨noCandidate, List.forall_mem_cons.mpr ⟨pinned, noEvictable⟩⟩
      · have evictable : (replacer.entry head).isEvictable = true := by simpa using pinned
        simp only [evictable, Bool.not_true, Bool.false_eq_true, if_false] at nothing
        split at nothing
        · cases nothing
        · cases toRemove with
          | none => cases (ih nothing).1
          | some candidate =>
              simp only at nothing
              split at nothing
              · cases (ih nothing).1
              · split at nothing
                · cases (ih nothing).1
                · cases (ih nothing).1

/-- **All an eviction can do.** -/
theorem evictFrame_cases (replacer : LRUKReplacer Id) :
    (replacer.evictFrame = (none, replacer) ∧
        ∀ id ∈ replacer.frames, (replacer.entry id).isEvictable = false) ∨
      ∃ id ∈ replacer.frames, (replacer.entry id).isEvictable = true ∧
        replacer.evictFrame = (some id, replacer.clearHistory id) := by
  unfold evictFrame
  cases found : replacer.evictLoop replacer.frames none false with
  | none => exact Or.inl ⟨rfl, (evictLoop_none found).2⟩
  | some id =>
      rcases evictLoop_mem found with impossible | ⟨member, evictable⟩
      · cases impossible
      · exact Or.inr ⟨id, member, evictable, rfl⟩

/-! ### What the operations do to the frames, the flags and the counter -/

@[simp] theorem clearHistory_frames (id : Id) :
    (replacer.clearHistory id).frames = replacer.frames := rfl

@[simp] theorem clearHistory_count (id : Id) :
    (replacer.clearHistory id).evictableCount = replacer.evictableCount := rfl

@[simp] theorem clearHistory_isEvictable (id other : Id) :
    ((replacer.clearHistory id).entry other).isEvictable = (replacer.entry other).isEvictable := by
  by_cases same : other = id
  · subst same
    simp only [clearHistory, Function.update_self]
  · simp only [clearHistory, Function.update_of_ne same]

@[simp] theorem recordAccess_frames (id : Id) :
    (replacer.recordAccess id).frames = replacer.frames := by
  unfold recordAccess
  split <;> rfl

@[simp] theorem recordAccess_count (id : Id) :
    (replacer.recordAccess id).evictableCount = replacer.evictableCount := by
  unfold recordAccess
  split <;> rfl

@[simp] theorem recordAccess_isEvictable (id other : Id) :
    ((replacer.recordAccess id).entry other).isEvictable = (replacer.entry other).isEvictable := by
  unfold recordAccess
  split
  · by_cases same : other = id
    · subst same
      simp only [Function.update_self]
    · simp only [Function.update_of_ne same]
  · rfl

@[simp] theorem setEvictable_frames (id : Id) (evictable : Bool) :
    (replacer.setEvictable id evictable).frames = replacer.frames := by
  unfold setEvictable
  split <;> rfl

theorem setEvictable_isEvictable {id : Id} (registered : id ∈ replacer.frames) (evictable : Bool)
    (other : Id) : ((replacer.setEvictable id evictable).entry other).isEvictable
      = if other = id then evictable else (replacer.entry other).isEvictable := by
  rw [setEvictable, if_pos registered]
  by_cases same : other = id
  · subst same
    simp only [Function.update_self, if_true]
  · simp only [Function.update_of_ne same, if_neg same]

theorem setEvictable_true_count {id : Id} (registered : id ∈ replacer.frames) :
    (replacer.setEvictable id true).evictableCount = (replacer.evictableCount + 1) % sizeLimit := by
  simp only [setEvictable, if_pos registered, if_true]

theorem setEvictable_false_count {id : Id} (registered : id ∈ replacer.frames) :
    (replacer.setEvictable id false).evictableCount
      = (replacer.evictableCount + sizeLimit - 1) % sizeLimit := by
  simp only [setEvictable, if_pos registered, Bool.false_eq_true, if_false]

/-! ### Registering a list of frames -/

/-- Registering distinct frames into an empty replacer registers exactly these, all evictable. -/
theorem registerAll (ids : List Id) (distinct : ids.Nodup) :
    ids.foldl registerFrame ({} : LRUKReplacer Id)
      = { frames := ids, evictableCount := ids.length % sizeLimit } := by
  induction ids using List.reverseRecOn with
  | nil => rfl
  | append_singleton ids id ih =>
      have parts := List.nodup_append.mp distinct
      have fresh : id ∉ ids := fun member => parts.2.2 id member id List.mem_cons_self rfl
      rw [List.foldl_append, ih parts.1, List.foldl_cons, List.foldl_nil, registerFrame]
      simp only [if_neg fresh, Function.update_eq_self, List.length_append, List.length_cons,
        List.length_nil, Nat.zero_add, Nat.mod_add_mod]

end LRUKReplacer

end Yadb
