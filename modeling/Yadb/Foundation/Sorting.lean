/-
**Sorting a range in place.**

A sequence is a function on positions; a sort of the range `[left, right)` permutes these positions
only. The comparison answers whether its first argument comes before its second, and may answer
anything unless it is an ordering.

* `Moved`: a permutation of one range, with its composition and the facts that it carries over.
* `Split`: what a partition around a pivot leaves.
* `Split.sorted`: a partition and two sorted sides are a sorted range.
-/

import Mathlib.Logic.Equiv.Basic
import Mathlib.Order.Lattice

namespace Foundation

/-- A strict weak ordering, as the sorting functions of the standard library ask for. -/
structure StrictWeakOrdering {Item : Type} (before : Item → Item → Bool) : Prop where
  irrefl : ∀ first, before first first = false
  trans : ∀ first second third, before first second = true → before second third = true →
    before first third = true
  incomparable : ∀ first second third, before first second = false → before second first = false →
    before second third = false → before third second = false →
    before first third = false ∧ before third first = false

theorem StrictWeakOrdering.asymm {Item : Type} {before : Item → Item → Bool}
    (ordering : StrictWeakOrdering before) {first second : Item}
    (less : before first second = true) : before second first = false := by
  by_contra also
  have cycle := ordering.trans first second first less (Bool.eq_true_of_not_eq_false also)
  rw [ordering.irrefl first] at cycle
  cases cycle

variable {Item : Type} {left right middle : Nat} {items items' items'' : Nat → Item}

/-- The positions of the range are permuted, and the others keep their items. -/
def Moved (left right : Nat) (items items' : Nat → Item) : Prop :=
  ∃ place : Equiv.Perm Nat, (∀ position, position < left ∨ right ≤ position →
    place position = position) ∧ ∀ position, items' position = items (place position)

namespace Moved

theorem refl (left right : Nat) (items : Nat → Item) : Moved left right items items :=
  ⟨Equiv.refl Nat, fun _ _ => rfl, fun _ => rfl⟩

theorem trans (first : Moved left right items items') (second : Moved left right items' items'') :
    Moved left right items items'' := by
  obtain ⟨place, fixed, moved⟩ := first
  obtain ⟨place', fixed', moved'⟩ := second
  refine ⟨place'.trans place, fun position outside => ?_, fun position => ?_⟩
  · rw [Equiv.trans_apply, fixed' position outside, fixed position outside]
  · rw [moved', moved, Equiv.trans_apply]

theorem mono (moved : Moved left right items items') {left' right' : Nat} (below : left' ≤ left)
    (above : right ≤ right') : Moved left' right' items items' := by
  obtain ⟨place, fixed, same⟩ := moved
  exact ⟨place, fun position outside => fixed position (by omega), same⟩

/-- Two positions of the range change places. -/
theorem swap (items : Nat → Item) {first second : Nat} (firstIn : left ≤ first ∧ first < right)
    (secondIn : left ≤ second ∧ second < right) :
    Moved left right items (fun position => items (Equiv.swap first second position)) := by
  refine ⟨Equiv.swap first second, fun position outside => ?_, fun _ => rfl⟩
  exact Equiv.swap_apply_of_ne_of_ne (by omega) (by omega)

theorem outside (moved : Moved left right items items') {position : Nat}
    (outside : position < left ∨ right ≤ position) : items' position = items position := by
  obtain ⟨place, fixed, same⟩ := moved
  rw [same, fixed position outside]

/-- An item of the range was in the range before. -/
theorem origin (moved : Moved left right items items') {position : Nat} (lower : left ≤ position)
    (upper : position < right) :
    ∃ before, left ≤ before ∧ before < right ∧ items' position = items before := by
  obtain ⟨place, fixed, same⟩ := moved
  refine ⟨place position, ?_, ?_, same position⟩
  · by_contra below
    have stays := fixed (place position) (Or.inl (Nat.not_le.mp below))
    have equal := place.injective stays
    omega
  · by_contra above
    have stays := fixed (place position) (Or.inr (Nat.not_lt.mp above))
    have equal := place.injective stays
    omega

/-- What holds of all items of the range holds of them in any order. -/
theorem forall_mem {P : Item → Prop} (moved : Moved left right items items')
    (all : ∀ position, left ≤ position → position < right → P (items position))
    (position : Nat) (lower : left ≤ position) (upper : position < right) :
    P (items' position) := by
  obtain ⟨before, beforeLower, beforeUpper, same⟩ := moved.origin lower upper
  rw [same]
  exact all before beforeLower beforeUpper

end Moved

/-- No item of the range comes before one to its left. -/
def SortedOn (before : Item → Item → Bool) (items : Nat → Item) (left right : Nat) : Prop :=
  ∀ first second, left ≤ first → first < second → second < right →
    before (items second) (items first) = false

/-- What a partition leaves: to the left of the pivot what comes before it, to its right the
rest. -/
structure Split (before : Item → Item → Bool) (items : Nat → Item) (left pivot right : Nat) :
    Prop where
  lower : ∀ position, left ≤ position → position < pivot →
    before (items position) (items pivot) = true
  upper : ∀ position, pivot < position → position < right →
    before (items position) (items pivot) = false

/-- **A partition and two sorted sides.** -/
theorem Split.sorted {before : Item → Item → Bool} (ordering : StrictWeakOrdering before)
    {pivot : Nat} (split : Split before items left pivot right)
    (first : Moved left pivot items items') (firstSorted : SortedOn before items' left pivot)
    (second : Moved (pivot + 1) right items' items'')
    (secondSorted : SortedOn before items'' (pivot + 1) right) :
    SortedOn before items'' left right := by
  have pivotKept : items'' pivot = items pivot := by
    rw [second.outside (Or.inl (Nat.lt_succ_self pivot)), first.outside (Or.inr (Nat.le_refl _))]
  have lowerKept : ∀ position, position < pivot → items'' position = items' position :=
    fun position below => second.outside (Or.inl (by omega))
  have lower : ∀ position, left ≤ position → position < pivot →
      before (items'' position) (items pivot) = true := by
    intro position above below
    rw [lowerKept position below]
    exact first.forall_mem (P := fun item => before item (items pivot) = true) split.lower
      position above below
  have upper : ∀ position, pivot < position → position < right →
      before (items'' position) (items pivot) = false := by
    refine second.forall_mem (P := fun item => before item (items pivot) = false) ?_
    intro position above below
    rw [first.outside (Or.inr (by omega))]
    exact split.upper position above below
  intro one other oneLower order otherUpper
  rcases Nat.lt_trichotomy other pivot with otherBelow | isPivot | otherAbove
  · rw [lowerKept one (by omega), lowerKept other otherBelow]
    exact firstSorted one other oneLower order otherBelow
  · rw [isPivot, pivotKept]
    exact ordering.asymm (lower one oneLower (isPivot ▸ order))
  · rcases Nat.lt_trichotomy one pivot with oneBelow | isPivot | oneAbove
    · -- an item after the pivot's side cannot come before one that comes before the pivot
      by_contra less
      have chain := ordering.trans _ _ _ (Bool.eq_true_of_not_eq_false less)
        (lower one oneLower oneBelow)
      rw [upper other otherAbove otherUpper] at chain
      cases chain
    · rw [isPivot, pivotKept]
      exact upper other otherAbove otherUpper
    · exact secondSorted one other oneAbove order otherUpper

end Foundation
