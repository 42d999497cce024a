/-
**The tuple count of a page is the number of its live slots.**

The header holds the count beside the flags of the slots, and four functions adjust it on their own.
`slotMachine` runs them, with `ShiftSlotsLeft`, which uses the count as its bound.

* `Shifted.wf`: the shift keeps the layout: what it moves keeps its room, what it empties gives its
  room up or keeps it.
* `slotStep_wf`: one call, where a slot that is deleted was live.
* `counted_of_delete`: only such a deletion keeps the count.
* `tupleCount_exact_iff`: over every run, the count is right in every state exactly when every
  deletion deletes a live slot.
-/

import Yadb.Optimizer.ExternalSort
import Yadb.Storage.Heap.HeapPage

namespace Yadb

open Foundation

inductive SlotOp
  | allocateSlot (size : UInt64)
  | allocateSlotOrReuseSlot (size : UInt64)
  | deleteSlot (slotId : SlotId)
  | vacuumPage (rank : SlotId → Nat)
  | shiftSlotsLeft

namespace Page

/-- One call: the slot it answers with, if it is one that does, and the page. -/
def slotCall (page : FullPage) : SlotOp → Except PageAssertion (Option SlotId × FullPage)
  | .allocateSlot size => allocateSlot page size
  | .allocateSlotOrReuseSlot size => allocateSlotOrReuseSlot page size
  | .deleteSlot slotId => return (none, ← deleteSlot page slotId)
  | .vacuumPage rank => return (none, ← vacuumPage page rank)
  | .shiftSlotsLeft => return (none, ← shiftSlotsLeft page)

/-- A call that asserts leaves the page. -/
def slotStep (page : FullPage) (op : SlotOp) : Except PageAssertion (Option SlotId) × FullPage :=
  match slotCall page op with
  | .ok (slotId, page) => (.ok slotId, page)
  | .error assertion => (.error assertion, page)

/-- A page that was just initialised, as a page of any type or as a heap page. -/
inductive Fresh : FullPage → Prop
  | page (page : FullPage) (pageType : PageType) : Fresh (initPage page pageType)
  | heapPage (page : FullPage) : Fresh (HeapPage.initPage page)

/-- The live slots, counted. -/
def countLive (page : FullPage) : Nat :=
  ((slotIds (getPageCapacity page)).filter (isLive page)).length

/-- The tuple count is the number of live slots, and the shift that relies on it stays inside the
slot directory. -/
structure Counted (page : FullPage) : Prop where
  tuples : (getNumTuples page).toNat = countLive page
  shifts : ∃ page', shiftSlotsLeft page = .ok page'

/-- The slot that is deleted lies inside the directory, and the entry with the record that is asked
for has a size that 64 bits hold. -/
def Asked (page : FullPage) : SlotOp → Prop
  | .allocateSlot size => 5 + size.toNat < 2 ^ 64
  | .allocateSlotOrReuseSlot size => 5 + size.toNat < 2 ^ 64
  | .deleteSlot slotId => slotId < getPageCapacity page
  | .vacuumPage _ => True
  | .shiftSlotsLeft => True

/-- The slot that is deleted is live. -/
def DeletesLive (page : FullPage) : SlotOp → Prop
  | .deleteSlot slotId => isLive page slotId = true
  | _ => True

instance (page : FullPage) : DecidablePred (Asked page)
  | .allocateSlot _ | .allocateSlotOrReuseSlot _ => inferInstanceAs (Decidable (_ < _))
  | .deleteSlot _ => inferInstanceAs (Decidable (_ < _))
  | .vacuumPage _ | .shiftSlotsLeft => .isTrue trivial

instance (page : FullPage) : DecidablePred (DeletesLive page)
  | .deleteSlot _ => inferInstanceAs (Decidable (_ = true))
  | .allocateSlot _ | .allocateSlotOrReuseSlot _ | .vacuumPage _ | .shiftSlotsLeft =>
      .isTrue trivial

end Page

def slotMachine : Machine FullPage SlotOp (Except PageAssertion (Option SlotId)) := ⟨Page.slotStep⟩

namespace Page

variable {page page' : FullPage} {count : Nat}

/-! ### The count of the live slots -/

/-- The count is that of the layout. -/
theorem countLive_eq (wf : (directory page).Wf count pageSize) :
    countLive page = ((directory page).liveSlots count).card := by
  have distinct : ((slotIds (getPageCapacity page)).filter (isLive page)).Nodup :=
    (slotIds_nodup _).filter _
  rw [countLive, ← List.toFinset_card_of_nodup distinct]
  refine Finset.card_bij (fun slotId _ => slotId.toNat) ?_ ?_ ?_
  · intro slotId member
    rw [List.mem_toFinset, List.mem_filter] at member
    exact (isLive_iff wf).mp member.2
  · intro slotId _ other _ same
    exact UInt16.toNat.inj same
  · intro index live
    have small := wf.count_lt
    have below := (Directory.mem_liveSlots.mp live).1
    have number : (UInt16.ofNat index).toNat = index := by
      rw [UInt16.toNat_ofNat']
      omega
    refine ⟨UInt16.ofNat index, ?_, number⟩
    rw [List.mem_toFinset, List.mem_filter, mem_slotIds, getPageCapacity_toNat wf.hasSlots, number]
    refine ⟨below, (isLive_iff wf).mpr ?_⟩
    rwa [number]

/-- A page whose layout is in order counts right. -/
theorem Directory.Wf.counted (wf : (directory page).Wf count pageSize) : Counted page where
  tuples := wf.tuples.trans (countLive_eq wf).symm
  shifts := by
    obtain ⟨page', run, _⟩ := shiftSlotsLeft_spec wf.hasSlots wf.tuples
    exact ⟨page', run⟩

/-! ### The shift keeps the layout -/

/-- The live slots come first. -/
theorem Shifted.liveSlots (shifted : Shifted page page' count) : (directory page').liveSlots count
    = Finset.range ((directory page).liveSlots count).card := by
  have few := Directory.liveSlots_card_le (directory page) count
  ext index
  rw [Directory.mem_liveSlots, Finset.mem_range]
  constructor
  · rintro ⟨below, live⟩
    by_contra late
    have dead := (shifted.vacated index (Nat.not_lt.mp late) below).deleted
    exact Bool.noConfusion (live.symm.trans dead)
  · intro early
    obtain ⟨origin, live, rfl⟩ := (rank_bijOn page count).surjOn (Set.mem_Iio.mpr early)
    refine ⟨early.trans_le few, ?_⟩
    show (slotAt page' (rank page count origin)).deleted = false
    rw [shifted.front origin live]
    exact (Directory.mem_liveSlots.mp live).2

/-- Where a slot entry of the shifted page comes from: it has no room, or it is an entry of the page
before, a live one if and only if it is one of the first. -/
theorem Shifted.origin (shifted : Shifted page page' count) {index : Nat} (below : index < count) :
    (slotAt page' index).size = 0 ∨ ∃ origin, origin < count ∧
      slotAt page' index = slotAt page origin ∧
      ((index < ((directory page).liveSlots count).card ∧ origin ∈ (directory page).liveSlots count ∧
          rank page count origin = index) ∨
        (origin = index ∧ origin ∉ (directory page).liveSlots count)) := by
  by_cases early : index < ((directory page).liveSlots count).card
  · obtain ⟨origin, live, same⟩ := (rank_bijOn page count).surjOn (Set.mem_Iio.mpr early)
    refine Or.inr ⟨origin, (Directory.mem_liveSlots.mp live).1, ?_, Or.inl ⟨early, live, same⟩⟩
    rw [← same]
    exact shifted.front origin live
  · obtain ⟨deleted, empty | same⟩ := shifted.vacated index (Nat.not_lt.mp early) below
    · exact Or.inl empty
    · refine Or.inr ⟨index, below, same, Or.inr ⟨rfl, fun live => ?_⟩⟩
      have isLive := (Directory.mem_liveSlots.mp live).2
      rw [same] at deleted
      exact Bool.noConfusion (isLive.symm.trans deleted)

/-- The room of the slots is still packed. -/
theorem Shifted.packed (shifted : Shifted page page' count)
    (wf : (directory page).Wf count pageSize) :
    Packed (fun index => index < count) (directory page').extent (directory page).freeEnd.toNat
      pageSize := by
  constructor
  · intro index below
    rcases shifted.origin below with empty | ⟨origin, inside, same, _⟩
    · exact Or.inl (congrArg UInt16.toNat empty)
    · have extent : (directory page').extent index = (directory page).extent origin :=
        congrArg Slot.extent same
      rw [extent]
      exact wf.packed.inside origin inside
  · intro index other below otherBelow differ
    rcases shifted.origin below with empty | ⟨origin, inside, same, from_⟩
    · exact Or.inl (congrArg UInt16.toNat empty)
    rcases shifted.origin otherBelow with empty | ⟨origin', inside', same', from'⟩
    · exact Or.inr (Or.inl (congrArg UInt16.toNat empty))
    have extent : (directory page').extent index = (directory page).extent origin :=
      congrArg Slot.extent same
    have extent' : (directory page').extent other = (directory page).extent origin' :=
      congrArg Slot.extent same'
    rw [extent, extent']
    refine wf.packed.apart origin origin' inside inside' fun equal => ?_
    subst equal
    rcases from_ with ⟨_, live, place⟩ | ⟨place, dead⟩
    · rcases from' with ⟨_, _, place'⟩ | ⟨_, dead'⟩
      · exact differ (place.symm.trans place')
      · exact dead' live
    · rcases from' with ⟨_, live', _⟩ | ⟨place', _⟩
      · exact dead live'
      · exact differ (place.symm.trans place')

/-- **The shift keeps the layout.** -/
theorem Shifted.wf (shifted : Shifted page page' count)
    (wf : (directory page).Wf count pageSize) : (directory page').Wf count pageSize := by
  have numTuples : getNumTuples page' = getNumTuples page :=
    getU16_agree shifted.header (Nat.zero_le _) (by simp only [Yadb.header, entryAt]; omega)
  have freeStart : getStartFreeSpace page' = getStartFreeSpace page :=
    getU16_agree shifted.header (Nat.zero_le _) (by simp only [Yadb.header, entryAt]; omega)
  have freeEnd : (directory page').freeEnd = (directory page).freeEnd :=
    getU16_agree shifted.header (Nat.zero_le _) (by simp only [Yadb.header, entryAt]; omega)
  refine ⟨(congrArg UInt16.toNat freeStart).trans wf.start, freeEnd ▸ wf.order, freeEnd ▸ wf.below,
    wf.inside, ?_, freeEnd ▸ shifted.packed wf⟩
  rw [shifted.liveSlots, Finset.card_range]
  exact (congrArg UInt16.toNat numTuples).trans wf.tuples

/-! ### One call -/

theorem slotStep_ok {op : SlotOp} {slotId : Option SlotId} (run : slotCall page op = .ok (slotId, page')) :
    slotStep page op = (.ok slotId, page') := by
  rw [slotStep, run]

/-- **One call keeps the layout**, where a slot that is deleted was live. -/
theorem slotStep_wf (wf : (directory page).Wf count pageSize) {op : SlotOp} (asked : Asked page op)
    (deletes : DeletesLive page op) : ∃ count', (directory (slotStep page op).2).Wf count' pageSize := by
  cases op with
  | allocateSlot size =>
      rcases allocateSlot_spec wf size asked with ⟨_, run⟩ | ⟨_, slotId, page', run, _, placed⟩
      · rw [slotStep_ok (show slotCall page (.allocateSlot size) = _ from run)]
        exact ⟨count, wf⟩
      · rw [slotStep_ok (show slotCall page (.allocateSlot size) = _ from run)]
        exact ⟨_, placed.wf⟩
  | allocateSlotOrReuseSlot size =>
      rcases allocateSlotOrReuseSlot_spec wf size asked with
        ⟨_, run⟩ | ⟨_, slotId, page', run, placed, _⟩
      · rw [slotStep_ok (show slotCall page (.allocateSlotOrReuseSlot size) = _ from run)]
        exact ⟨count, wf⟩
      · rw [slotStep_ok (show slotCall page (.allocateSlotOrReuseSlot size) = _ from run)]
        exact ⟨_, placed.wf⟩
  | deleteSlot slotId =>
      have live := (isLive_iff wf).mp deletes
      obtain ⟨page', run, edits⟩ := deleteSlot_spec wf live
      have call : slotCall page (.deleteSlot slotId) = .ok (none, page') := by
        rw [slotCall, run]
        rfl
      rw [slotStep_ok call, edits.decoded]
      exact ⟨count, wf.delete live⟩
  | vacuumPage rank =>
      obtain ⟨page', run, done⟩ := vacuumPage_spec wf rank
      have call : slotCall page (.vacuumPage rank) = .ok (none, page') := by
        rw [slotCall, run]
        rfl
      rw [slotStep_ok call]
      exact ⟨count, done.wf⟩
  | shiftSlotsLeft =>
      obtain ⟨page', run, shifted⟩ := shiftSlotsLeft_spec wf.hasSlots wf.tuples
      have call : slotCall page .shiftSlotsLeft = .ok (none, page') := by
        rw [slotCall, run]
        rfl
      rw [slotStep_ok call]
      exact ⟨count, shifted.wf wf⟩

/-- A slot deleted once more: the flags stay, the count goes down. -/
theorem deleteSlot_again (wf : (directory page).Wf count pageSize) {slotId : SlotId}
    (below : slotId.toNat < count) (dead : (slotAt page slotId.toNat).deleted = true) :
    ∃ page', deleteSlot page slotId = .ok page' ∧
      getNumTuples page' = getNumTuples page - 1 ∧ countLive page' = countLive page := by
  have counted := edits_setNumTuples page (getNumTuples page - 1) count
  have slots : (directory (setNumTuples page (getNumTuples page - 1))).HasSlots count := by
    rw [counted.decoded]
    exact ⟨wf.hasSlots.start, wf.hasSlots.inside⟩
  obtain ⟨page', run, edits⟩ := setSlotDeleted_edits slots below true
  have decoded := edits.decoded
  have same : slotAt (setNumTuples page (getNumTuples page - 1)) = slotAt page :=
    congrArg Directory.slot counted.decoded
  have entries : slotAt page' = slotAt page := by
    have written : slotAt page' = Function.update (slotAt page) slotId.toNat
        { slotAt page slotId.toNat with deleted := true } := by
      have written := congrArg Directory.slot decoded
      rw [counted.decoded, same] at written
      exact written
    rw [written, ← dead]
    exact Function.update_eq_self _ _
  have slots' := slots.edits edits
  have capacity : getPageCapacity page' = getPageCapacity page := by
    apply UInt16.toNat.inj
    rw [getPageCapacity_toNat slots', getPageCapacity_toNat wf.hasSlots]
  refine ⟨page', run, ?_, ?_⟩
  · have tuples := congrArg Directory.numTuples decoded
    rw [counted.decoded] at tuples
    exact tuples
  · have live : ∀ other ∈ slotIds (getPageCapacity page), isLive page' other = isLive page other := by
      intro other member
      rw [mem_slotIds, getPageCapacity_toNat wf.hasSlots] at member
      rw [isLive, isLive, isSlotDeleted_eq slots' member, isSlotDeleted_eq wf.hasSlots member, entries]
    rw [countLive, countLive, capacity, List.filter_congr live]

/-- **Only the deletion of a live slot keeps the count.** -/
theorem counted_of_delete (wf : (directory page).Wf count pageSize) {op : SlotOp}
    (asked : Asked page op) (counted : Counted (slotStep page op).2) : DeletesLive page op := by
  cases op with
  | deleteSlot slotId =>
      have below : slotId.toNat < count := by
        rw [← getPageCapacity_toNat wf.hasSlots]
        exact UInt16.lt_iff_toNat_lt.mp asked
      cases dead : (slotAt page slotId.toNat).deleted with
      | false => exact (isLive_iff wf).mpr (Directory.mem_liveSlots.mpr ⟨below, dead⟩)
      | true =>
          obtain ⟨page', run, tuples, live⟩ := deleteSlot_again wf below dead
          have call : slotCall page (.deleteSlot slotId) = .ok (none, page') := by
            rw [slotCall, run]
            rfl
          rw [slotStep_ok call] at counted
          have before := wf.counted.tuples
          have after : (getNumTuples page').toNat = countLive page' := counted.tuples
          rw [tuples, live, ← before] at after
          have one : (getNumTuples page - 1).toNat
              = (2 ^ 16 - (1 : UInt16).toNat + (getNumTuples page).toNat) % 2 ^ 16 :=
            UInt16.toNat_sub _ _
          have bound := (getNumTuples page).toNat_lt
          rw [show (1 : UInt16).toNat = 1 from rfl] at one
          omega
  | allocateSlot size => trivial
  | allocateSlotOrReuseSlot size => trivial
  | vacuumPage rank => trivial
  | shiftSlotsLeft => trivial

/-! ### Runs -/

/-- A fresh page has no entries. -/
theorem Fresh.wf (fresh : Fresh page) : (directory page).Wf 0 pageSize := by
  cases fresh with
  | page page pageType => exact initPage_wf page pageType
  | heapPage page =>
      have wf := (HeapPage.initPage_shows page).holds.wf
      exact ⟨wf.start, wf.order, wf.below.trans wf.inside, Nat.le_refl _, wf.tuples, nofun, nofun⟩

/-- **The count is right in every state exactly when every deletion deletes a live slot.** -/
theorem counted_along (wf : (directory page).Wf count pageSize) (ops : List SlotOp)
    (asked : slotMachine.Along Asked page ops) :
    slotMachine.Always Counted page ops ↔ slotMachine.Along DeletesLive page ops := by
  refine Machine.always_iff_along (J := fun page => ∃ count, (directory page).Wf count pageSize)
    ?_ ?_ ?_ ⟨count, wf⟩ asked
  · rintro page op ⟨count, wf⟩ asked deletes
    exact slotStep_wf wf asked deletes
  · rintro page ⟨count, wf⟩
    exact wf.counted
  · rintro page op ⟨count, wf⟩ asked counted
    exact counted_of_delete wf asked counted

/-- **The tuple count is the number of live slots, exactly where every deletion deletes a live
slot.** -/
theorem tupleCount_exact_iff (fresh : Fresh page) (ops : List SlotOp)
    (asked : slotMachine.Along Asked page ops) :
    slotMachine.Always Counted page ops ↔ slotMachine.Along DeletesLive page ops :=
  counted_along fresh.wf ops asked

/-- A slot is allocated on a fresh page, deleted, and deleted once more. -/
def deleteAgain : List SlotOp := [.allocateSlot 0, .deleteSlot 0, .deleteSlot 0]

theorem deleteAgain_asked (wf : (directory page).Wf 0 pageSize) (room : 5 ≤ freeSpace page) :
    slotMachine.Along Asked page deleteAgain ∧ ¬ slotMachine.Along DeletesLive page deleteAgain := by
  rcases allocateSlot_spec wf 0 (by decide) with ⟨full, _⟩ | ⟨_, slotId, page₁, run₁, isZero, placed⟩
  · exact absurd room (Nat.not_le.mpr full)
  have zero : slotId = 0 := UInt16.toNat.inj isZero
  subst zero
  have wf₁ : (directory page₁).Wf 1 pageSize := placed.wf
  have live : (0 : SlotId).toNat ∈ (directory page₁).liveSlots 1 :=
    Directory.mem_liveSlots.mpr ⟨Nat.zero_lt_one, placed.live⟩
  obtain ⟨page₂, run₂, edits⟩ := deleteSlot_spec wf₁ live
  have wf₂ : (directory page₂).Wf 1 pageSize := edits.decoded ▸ wf₁.delete live
  have dead : isLive page₂ 0 = false := by
    refine Bool.eq_false_of_not_eq_true fun isLive => ?_
    have member := (isLive_iff wf₂).mp isLive
    rw [edits.decoded, Directory.liveSlots_delete] at member
    exact Finset.notMem_erase _ _ member
  have first : slotMachine.next page (.allocateSlot 0) = page₁ :=
    congrArg Prod.snd (slotStep_ok (show slotCall page (.allocateSlot 0) = _ from run₁))
  have second : slotMachine.next page₁ (.deleteSlot 0) = page₂ := by
    have called : slotCall page₁ (.deleteSlot 0) = .ok (none, page₂) := by
      rw [slotCall, run₂]
      rfl
    exact congrArg Prod.snd (slotStep_ok called)
  have inside : ∀ {page : FullPage}, (directory page).Wf 1 pageSize → 0 < getPageCapacity page := by
    intro page wf
    rw [UInt16.lt_iff_toNat_lt, getPageCapacity_toNat wf.hasSlots]
    exact Nat.zero_lt_one
  constructor
  · refine ⟨show 5 + (0 : UInt64).toNat < 2 ^ 64 by decide, ?_⟩
    rw [first]
    refine ⟨inside wf₁, ?_⟩
    rw [second]
    exact ⟨inside wf₂, trivial⟩
  · rintro ⟨_, later⟩
    rw [first] at later
    obtain ⟨_, last⟩ := later
    rw [second] at last
    have isLive : isLive page₂ 0 = true := last.1
    exact Bool.noConfusion (dead.symm.trans isLive)

theorem freeSpace_initPage (page : FullPage) (pageType : PageType) :
    freeSpace (initPage page pageType) = 4081 := by
  have decoded := congrArg Directory.freeStart (directory_initPage page pageType)
  have starts : getStartFreeSpace (initPage page pageType) = 15 := decoded
  have decodedEnd := congrArg Directory.freeEnd (directory_initPage page pageType)
  have ends : getEndFreeSpace (initPage page pageType) = UInt16.ofNat pageSize := decodedEnd
  have taken : (UInt16.ofNat pageSize).toNat - (15 : Offset).toNat = 4081 := by decide
  rw [freeSpace, starts, ends, taken]

/-- On a page of zeros, initialised as a data page, the second deletion of slot 0 brings the count
below zero. -/
theorem tupleCount_wraps : ¬ ∀ (page : FullPage) (ops : List SlotOp), Fresh page →
    slotMachine.Along Asked page ops → slotMachine.Always Counted page ops := by
  intro all
  have fresh := Fresh.page (fun _ => 0) .data
  have room := freeSpace_initPage (fun _ => 0) .data
  obtain ⟨asked, notLive⟩ := deleteAgain_asked fresh.wf (by rw [room]; decide)
  exact notLive ((counted_along fresh.wf deleteAgain asked).mp (all _ deleteAgain fresh asked))

/-- Three slots on a heap page, one of them deleted before a compaction, taken again and deleted
once more before the shift. -/
def deleteAndShift : List SlotOp :=
  [.allocateSlot 100, .allocateSlot 7, .allocateSlot 0, .deleteSlot 1, .vacuumPage fun _ => 0,
    .allocateSlotOrReuseSlot 0, .deleteSlot 1, .deleteSlot 0, .shiftSlotsLeft]

theorem tupleCount_exact_example :
    slotMachine.Always Counted (HeapPage.initPage fun _ => 0) deleteAndShift :=
  (tupleCount_exact_iff (Fresh.heapPage fun _ => 0) deleteAndShift (by decide +kernel)).mpr
    (by decide +kernel)

end Page

end Yadb
