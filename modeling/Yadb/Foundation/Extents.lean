/-
**Extents packed in a region.**

An extent is a start and a size; one of size zero holds no byte, wherever it starts. `Packed` says
that the extents of a family lie inside `[lower, upper)` and hold no byte in common.

* `Packed.place`: an extent put right below the others; `Packed.shrink`: one cut shorter at its end.
* `read_writeBytes_apart`: a write inside one extent leaves the bytes of the others alone.
* `Packed.covers`: extents whose sizes sum up to the range leave no gap in it.
* `Inside.slide`: where an extent moves up, what starts no higher is below its new place.
* `read_slide`, `read_slide_apart`: an extent moved up to a place that ends at or above its own end
  keeps its bytes, and so do the extents below it and those above that place.
-/

import Mathlib.Algebra.Order.BigOperators.Group.Finset
import Mathlib.Logic.Function.Basic
import Mathlib.Order.Interval.Finset.Nat
import Yadb.Foundation.Bytes

namespace Foundation

@[ext]
structure Extent where
  start : Nat
  size : Nat
  deriving DecidableEq

namespace Extent

/-- The two extents have no byte in common. -/
def Apart (extent other : Extent) : Prop :=
  extent.size = 0 ∨ other.size = 0 ∨ extent.start + extent.size ≤ other.start ∨
    other.start + other.size ≤ extent.start

/-- Every byte of the extent lies in the range. -/
def Inside (extent : Extent) (lower upper : Nat) : Prop :=
  extent.size = 0 ∨ lower ≤ extent.start ∧ extent.start + extent.size ≤ upper

/-- The bytes of an extent. -/
def read {size : Nat} (region : Region size) (extent : Extent) : List UInt8 :=
  readBytes region extent.start extent.size

variable {extent other : Extent} {lower upper : Nat}

theorem Apart.symm (apart : extent.Apart other) : other.Apart extent := by
  unfold Apart at *
  omega

theorem Inside.mono (inside : extent.Inside lower upper) {lower' upper' : Nat}
    (below : lower' ≤ lower) (above : upper ≤ upper') : extent.Inside lower' upper' := by
  unfold Inside at *
  omega

/-- An extent above a bound is apart from one below it. -/
theorem Inside.apart {middle : Nat} (inside : extent.Inside lower middle)
    (otherInside : other.Inside middle upper) : extent.Apart other := by
  unfold Inside Apart at *
  omega

/-- What agrees on a range agrees on the extents inside it. -/
theorem read_agree {size : Nat} {region region' : Region size} (inside : extent.Inside lower upper)
    (agree : Agree region region' lower upper) : extent.read region' = extent.read region := by
  rcases inside with empty | ⟨above, below⟩
  · unfold read
    rw [empty]
    rfl
  · exact readBytes_agree agree above below

/-- **A write inside one extent leaves the others alone.** -/
theorem read_writeBytes_apart {size : Nat} (region : Region size) (apart : extent.Apart other)
    {position : Nat} {bytes : List UInt8} (fits : position + bytes.length ≤ extent.size) :
    other.read (writeBytes region (extent.start + position) bytes) = other.read region := by
  apply readBytes_congr
  intro index inside
  apply byteAt_writeBytes_outside
  unfold Apart at apart
  omega

/-! ### Moving one extent up -/

/-- **A moved extent keeps its bytes.** -/
theorem read_slide {size : Nat} (region : Region size) (extent : Extent) {target : Nat}
    (fits : target + extent.size ≤ size) :
    read (moveBytes region target extent.start extent.size) ⟨target, extent.size⟩
      = extent.read region :=
  readBytes_moveBytes region fits

/-- What has no byte at the new place keeps its bytes. -/
theorem read_slide_apart {size : Nat} (region : Region size) (extent : Extent) {target : Nat}
    (apart : Apart ⟨target, extent.size⟩ other) :
    other.read (moveBytes region target extent.start extent.size) = other.read region := by
  apply readBytes_congr
  intro index inside
  apply byteAt_moveBytes_outside
  unfold Apart at apart
  simp only at apart
  omega

/-- The room that an extent moves up to is in the range. -/
theorem Inside.size_le (inside : extent.Inside lower upper) (order : lower ≤ upper) :
    lower ≤ upper - extent.size ∧ extent.size ≤ upper := by
  unfold Inside at inside
  omega

/-- **An extent that starts no higher stays below the place of one that moves up.** -/
theorem Inside.slide (inside : extent.Inside lower upper) (otherInside : other.Inside lower upper)
    (apart : extent.Apart other) (highest : other.start ≤ extent.start) :
    other.Inside lower (upper - extent.size) := by
  unfold Inside Apart at *
  omega

end Extent

/-- The extents of a family lie inside the range and apart from each other. -/
structure Packed {ι : Type} (used : ι → Prop) (extent : ι → Extent) (lower upper : Nat) : Prop where
  inside : ∀ index, used index → (extent index).Inside lower upper
  apart : ∀ index other, used index → used other → index ≠ other →
    (extent index).Apart (extent other)

namespace Packed

variable {ι : Type} [DecidableEq ι] {used : ι → Prop} {extent : ι → Extent} {lower upper : Nat}

omit [DecidableEq ι] in
/-- Fewer extents in a longer range. -/
theorem mono (packed : Packed used extent lower upper) {used' : ι → Prop}
    (fewer : ∀ index, used' index → used index) {lower' : Nat} (below : lower' ≤ lower) :
    Packed used' extent lower' upper where
  inside index isUsed := (packed.inside index (fewer index isUsed)).mono below (Nat.le_refl upper)
  apart index other isUsed otherUsed :=
    packed.apart index other (fewer index isUsed) (fewer other otherUsed)

omit [DecidableEq ι] in
theorem congr (packed : Packed used extent lower upper) {extent' : ι → Extent}
    (same : ∀ index, used index → extent' index = extent index) :
    Packed used extent' lower upper where
  inside index isUsed := by
    rw [same index isUsed]
    exact packed.inside index isUsed
  apart index other isUsed otherUsed := by
    rw [same index isUsed, same other otherUsed]
    exact packed.apart index other isUsed otherUsed

/-- One extent of the family is replaced by one that is apart from the others. -/
theorem replace (packed : Packed used extent lower upper) {index : ι} {new : Extent}
    {lower' : Nat} (below : lower' ≤ lower) (inside : new.Inside lower' upper)
    (apart : ∀ other, used other → other ≠ index → new.Apart (extent other)) :
    Packed (fun other => other = index ∨ used other) (Function.update extent index new) lower' upper where
  inside other isUsed := by
    by_cases same : other = index
    · rw [same, Function.update_self]
      exact inside
    · rw [Function.update_of_ne same]
      exact (packed.inside other (isUsed.resolve_left same)).mono below (Nat.le_refl upper)
  apart first second firstUsed secondUsed different := by
    by_cases firstSame : first = index
    · have secondDifferent : second ≠ index := fun same => different (firstSame.trans same.symm)
      rw [firstSame, Function.update_self, Function.update_of_ne secondDifferent]
      exact apart second (secondUsed.resolve_left secondDifferent) secondDifferent
    · rw [Function.update_of_ne firstSame]
      have firstApart := firstUsed.resolve_left firstSame
      by_cases secondSame : second = index
      · rw [secondSame, Function.update_self]
        exact (apart first firstApart firstSame).symm
      · rw [Function.update_of_ne secondSame]
        exact packed.apart first second firstApart (secondUsed.resolve_left secondSame) different

/-- **An extent put right below the others.** -/
theorem place (packed : Packed used extent lower upper) (index : ι) {size : Nat}
    (fits : size ≤ lower) (order : lower ≤ upper) :
    Packed (fun other => other = index ∨ used other)
      (Function.update extent index ⟨lower - size, size⟩) (lower - size) upper := by
  have below : (Extent.mk (lower - size) size).Inside (lower - size) lower :=
    Or.inr ⟨Nat.le_refl _, (Nat.sub_add_cancel fits).le⟩
  refine packed.replace (Nat.sub_le lower size) (below.mono (Nat.le_refl _) order) ?_
  intro other isUsed _
  exact below.apart (packed.inside other isUsed)

/-- **An extent cut shorter at its end.** -/
theorem shrink (packed : Packed used extent lower upper) {index : ι} (isUsed : used index)
    {size : Nat} (fits : size ≤ (extent index).size) :
    Packed (fun other => other = index ∨ used other)
      (Function.update extent index ⟨(extent index).start, size⟩) lower upper := by
  refine packed.replace (Nat.le_refl lower) ?_ fun other otherUsed different => ?_
  · have inside := packed.inside index isUsed
    unfold Extent.Inside at *
    simp only
    omega
  · have apart := packed.apart index other isUsed otherUsed (Ne.symm different)
    unfold Extent.Apart at *
    simp only
    omega

/-- **No gaps.** Extents of a finite family whose sizes sum up to the range hold every position of
it, each in one extent. -/
theorem covers {family : Finset ι} (packed : Packed (fun index => index ∈ family) extent lower upper)
    (total : lower + ∑ index ∈ family, (extent index).size = upper) {position : Nat}
    (above : lower ≤ position) (below : position < upper) :
    ∃ index ∈ family, ((extent index).start ≤ position ∧
        position < (extent index).start + (extent index).size) ∧
      ∀ other ∈ family, (extent other).start ≤ position →
        position < (extent other).start + (extent other).size → other = index := by
  let positions : ι → Finset Nat := fun index =>
    Finset.Ico (extent index).start ((extent index).start + (extent index).size)
  have disjoint : (family : Set ι).PairwiseDisjoint positions := by
    intro index member other otherMember different
    refine Finset.disjoint_left.mpr fun place inside otherInside => ?_
    have inside := Finset.mem_Ico.mp inside
    have otherInside := Finset.mem_Ico.mp otherInside
    have apart := packed.apart index other member otherMember different
    unfold Extent.Apart at apart
    omega
  have within : family.biUnion positions ⊆ Finset.Ico lower upper := by
    intro place member
    obtain ⟨index, isUsed, inside⟩ := Finset.mem_biUnion.mp member
    have inside := Finset.mem_Ico.mp inside
    have bounds := packed.inside index isUsed
    unfold Extent.Inside at bounds
    rw [Finset.mem_Ico]
    omega
  have count : (family.biUnion positions).card = (Finset.Ico lower upper).card := by
    have sizes : ∀ index ∈ family, (positions index).card = (extent index).size := by
      intro index _
      rw [Nat.card_Ico, Nat.add_sub_cancel_left]
    rw [Finset.card_biUnion disjoint, Finset.sum_congr rfl sizes, Nat.card_Ico]
    omega
  have all : position ∈ family.biUnion positions := by
    rw [Finset.eq_of_subset_of_card_le within count.ge, Finset.mem_Ico]
    exact ⟨above, below⟩
  obtain ⟨index, member, inside⟩ := Finset.mem_biUnion.mp all
  refine ⟨index, member, Finset.mem_Ico.mp inside, fun other otherMember start stop => ?_⟩
  by_contra different
  exact Finset.disjoint_left.mp (disjoint otherMember member different)
    (Finset.mem_Ico.mpr ⟨start, stop⟩) inside

end Packed

end Foundation
