/-
**`VacuumPage` compacts the records and loses none.**

The first loop sets the size of every deleted slot to zero and queues the live ones. The second
moves them up, the highest first: each lands at or above where it was, so it overwrites neither a
record that is still to be moved nor one that has been.

* `queueSlots_spec`: the first loop.
* `compactRecords_spec`: the second, by induction on the queue, with the end of the free space as it
  moves down (`Compacted`).
* `vacuumPage_spec`: the page is well formed, its live slots are the same and hold the same records,
  every deleted slot has size zero, and what is not free space is the records' sizes summed up.
-/

import Mathlib.Algebra.BigOperators.Group.Finset.Basic
import Yadb.Storage.Page.Layout

namespace Yadb

open Foundation

namespace Page

variable {page page' : FullPage} {count top : Nat}

/-! ### The first loop -/

namespace Directory

/-- The deleted slots among those listed get size zero. -/
def emptied (dir : Directory) (ids : List SlotId) : Directory :=
  { dir with
    slot := fun index =>
      if (dir.slot index).deleted = true ∧ ∃ slotId ∈ ids, slotId.toNat = index then
        { dir.slot index with size := 0 }
      else dir.slot index }

end Directory

/-- The queue entry of a slot. -/
def entryOf (page : FullPage) (slotId : SlotId) : VacuumEntry :=
  ⟨slotId, (slotAt page slotId.toNat).offset, (slotAt page slotId.toNat).size⟩

/-- The live slots among those listed. -/
def liveAmong (page : FullPage) (ids : List SlotId) : List SlotId :=
  ids.filter fun slotId => !(slotAt page slotId.toNat).deleted

theorem emptied_nil (dir : Directory) : dir.emptied [] = dir := by
  refine Directory.ext rfl rfl rfl ?_
  funext index
  refine if_neg ?_
  rintro ⟨_, slotId, member, _⟩
  cases member

theorem emptied_cons_live {dir : Directory} {slotId : SlotId}
    (live : (dir.slot slotId.toNat).deleted = false) (rest : List SlotId) :
    dir.emptied (slotId :: rest) = dir.emptied rest := by
  refine Directory.ext rfl rfl rfl ?_
  funext index
  refine if_congr (and_congr_right fun deleted => ?_) rfl rfl
  rw [List.exists_mem_cons_iff, or_iff_right]
  rintro rfl
  exact Bool.noConfusion (live.symm.trans deleted)

theorem emptied_cons_deleted {dir : Directory} {slotId : SlotId}
    (deleted : (dir.slot slotId.toNat).deleted = true) (rest : List SlotId) :
    dir.emptied (slotId :: rest)
      = (dir.setSlot slotId.toNat { dir.slot slotId.toNat with size := 0 }).emptied rest := by
  refine Directory.ext rfl rfl rfl ?_
  funext index
  simp only [Directory.emptied, Directory.setSlot, List.exists_mem_cons_iff]
  by_cases same : index = slotId.toNat
  · subst same
    simp only [deleted, true_or, and_self, if_true, Function.update_self, ite_self]
  · have other : ¬ slotId.toNat = index := fun equal => same equal.symm
    simp only [Function.update_of_ne same, other, false_or]

/-- **The first loop** empties the deleted slots and queues the live ones. -/
theorem queueSlots_spec (slots : (directory page).HasSlots count) (ids : List SlotId)
    (below : ∀ slotId ∈ ids, slotId.toNat < count) :
    ∃ page', queueSlots page ids = .ok ((liveAmong page ids).map (entryOf page), page') ∧
      Edits page page' ((directory page).emptied ids) (entryAt count) := by
  induction ids generalizing page with
  | nil =>
      refine ⟨page, rfl, ?_, fun _ _ _ => rfl⟩
      rw [emptied_nil]
  | cons slotId rest ih =>
      have here := below slotId List.mem_cons_self
      have later := fun other member => below other (List.mem_cons_of_mem slotId member)
      rw [queueSlots, getSlotOffset_eq slots here, ok_bind, getSlotSize_eq slots here, ok_bind,
        isSlotDeleted_eq slots here, ok_bind]
      cases deleted : (slotAt page slotId.toNat).deleted with
      | false =>
          obtain ⟨page', run, edits⟩ := ih slots later
          have kept : liveAmong page (slotId :: rest) = slotId :: liveAmong page rest :=
            List.filter_cons_of_pos (by rw [deleted]; rfl)
          rw [emptied_cons_live deleted, kept]
          refine ⟨page', ?_, edits⟩
          simp only [Bool.false_eq_true, if_false]
          rw [run, ok_bind]
          rfl
      | true =>
          obtain ⟨emptied, emptyRun, emptyEdits⟩ := setSlotSize_edits slots here 0
          obtain ⟨page', run, edits⟩ := ih (slots.edits emptyEdits) later
          have dropped : liveAmong page (slotId :: rest) = liveAmong page rest :=
            List.filter_cons_of_neg (by rw [deleted]; exact Bool.false_ne_true)
          have slot : slotAt emptied = Function.update (slotAt page) slotId.toNat
              { slotAt page slotId.toNat with size := 0 } :=
            congrArg Directory.slot emptyEdits.decoded
          -- the slot that was emptied is not live, so no queue entry changes
          have entries : (liveAmong emptied rest).map (entryOf emptied)
              = (liveAmong page rest).map (entryOf page) := by
            have flags : ∀ index, (slotAt emptied index).deleted = (slotAt page index).deleted := by
              intro index
              rw [slot]
              by_cases same : index = slotId.toNat
              · rw [same, Function.update_self]
              · rw [Function.update_of_ne same]
            have lists : liveAmong emptied rest = liveAmong page rest :=
              List.filter_congr fun other _ => congrArg not (flags other.toNat)
            rw [lists]
            refine List.map_congr_left fun other member => ?_
            have live := (List.mem_filter.mp member).2
            have different : other.toNat ≠ slotId.toNat := by
              intro same
              rw [same, deleted] at live
              cases live
            rw [entryOf, slot, Function.update_of_ne different]
            rfl
          have same : (directory page).emptied (slotId :: rest) = _ :=
            emptied_cons_deleted deleted rest
          rw [emptyEdits.decoded] at edits
          rw [dropped, ← entries]
          refine ⟨page', ?_, same ▸ emptyEdits.trans edits⟩
          simp only [if_true]
          rw [emptyRun, ok_bind, run]

/-! ### The second loop -/

def VacuumEntry.extent (entry : VacuumEntry) : Extent := ⟨entry.offset.toNat, entry.size.toNat⟩

/-- The entry is in the queue of this page: it is what the slot's entry says. -/
def Queued (page : FullPage) (entry : VacuumEntry) : Prop :=
  slotAt page entry.slotId.toNat = ⟨false, entry.offset, entry.size⟩

/-- What is left to move: distinct slots, each queued, the highest first, between `lower` and the
end of the free space, apart from each other. -/
structure ToMove (page : FullPage) (count lower : Nat) (freespaceEnd : Offset)
    (queue : List VacuumEntry) : Prop where
  below : ∀ entry ∈ queue, entry.slotId.toNat < count
  distinct : (queue.map VacuumEntry.slotId).Nodup
  queued : ∀ entry ∈ queue, Queued page entry
  inside : ∀ entry ∈ queue, entry.extent.Inside lower freespaceEnd.toNat
  highest : queue.Pairwise fun entry other => other.offset ≤ entry.offset
  apart : queue.Pairwise fun entry other => entry.extent.Apart other.extent

/-- What the second loop did. -/
structure Compacted (page page' : FullPage) (count : Nat) (freespaceEnd freespaceEnd' : Offset)
    (queue : List VacuumEntry) : Prop where
  numTuples : getNumTuples page' = getNumTuples page
  freeStart : getStartFreeSpace page' = getStartFreeSpace page
  others : ∀ index, index < count → (∀ entry ∈ queue, entry.slotId.toNat ≠ index) →
    slotAt page' index = slotAt page index
  live : ∀ entry ∈ queue, (slotAt page' entry.slotId.toNat).deleted = false
  size : ∀ entry ∈ queue, (slotAt page' entry.slotId.toNat).size = entry.size
  inside : ∀ entry ∈ queue, ((directory page').extent entry.slotId.toNat).Inside
    freespaceEnd'.toNat freespaceEnd.toNat
  apart : queue.Pairwise fun entry other =>
    ((directory page').extent entry.slotId.toNat).Apart ((directory page').extent other.slotId.toNat)
  records : ∀ entry ∈ queue, record page' entry.slotId.toNat = record page entry.slotId.toNat
  agree : Agree page page' freespaceEnd.toNat pageSize
  total : freespaceEnd'.toNat + (queue.map fun entry => entry.size.toNat).sum = freespaceEnd.toNat

/-- **One record moved up**: its slot has the new offset and its bytes are there, and what is left
to move is as it was. -/
theorem moveRecord_spec (slots : (directory page).HasSlots count) {lower : Nat}
    (atLeast : entryAt count ≤ lower) {freespaceEnd : Offset} (fits : freespaceEnd.toNat ≤ pageSize)
    (order : lower ≤ freespaceEnd.toNat) {entry : VacuumEntry} {rest : List VacuumEntry}
    (todo : ToMove page count lower freespaceEnd (entry :: rest)) :
    ∃ page', setSlotOffset (moveBytes page (freespaceEnd - entry.size).toNat entry.offset.toNat
        entry.size.toNat) entry.slotId (freespaceEnd - entry.size) = .ok page' ∧
      ToMove page' count lower (freespaceEnd - entry.size) rest ∧
      Compacted page page' count freespaceEnd (freespaceEnd - entry.size) [entry] ∧
      ∀ other ∈ rest, record page' other.slotId.toNat = record page other.slotId.toNat := by
  have below := todo.below entry List.mem_cons_self
  have inside := todo.inside entry List.mem_cons_self
  have room := inside.size_le order
  have target : (freespaceEnd - entry.size).toNat = freespaceEnd.toNat - entry.size.toNat :=
    UInt16.toNat_sub_of_le _ _ (UInt16.le_iff_toNat_le.mpr room.2)
  have sizeLe : entry.size.toNat ≤ freespaceEnd.toNat := room.2
  have lowerLe : lower ≤ freespaceEnd.toNat - entry.size.toNat := room.1
  generalize freespaceEnd - entry.size = freespaceEnd' at *
  generalize isMoved : moveBytes page freespaceEnd'.toNat entry.offset.toNat entry.size.toNat = moved
  have outside : ∀ position, position < freespaceEnd'.toNat ∨ freespaceEnd.toNat ≤ position →
      byteAt moved position = byteAt page position := by
    intro position apart
    rw [← isMoved]
    exact byteAt_moveBytes_outside page (by omega)
  have same : SameDirectory page moved count :=
    sameDirectory_of_agree fun position _ small => outside position (by omega)
  have movedSlots : (directory moved).HasSlots count :=
    ⟨(congrArg UInt16.toNat same.freeStart).trans slots.start, slots.inside⟩
  obtain ⟨page', run, edits⟩ := setSlotOffset_edits movedSlots below freespaceEnd'
  have slot : slotAt page' entry.slotId.toNat = ⟨false, freespaceEnd', entry.size⟩ := by
    rw [slotAt_setSlot edits, same.slot _ below, todo.queued entry List.mem_cons_self]
  have others : ∀ index, index < count → index ≠ entry.slotId.toNat →
      slotAt page' index = slotAt page index := by
    intro index small different
    have kept : slotAt page' index = slotAt moved index :=
      (congrFun (congrArg Directory.slot edits.decoded) index).trans
        (Function.update_of_ne different _ _)
    rw [kept, same.slot index small]
  have restDifferent : ∀ other ∈ rest, other.slotId.toNat ≠ entry.slotId.toNat := by
    intro other member equal
    have distinct := (List.nodup_cons.mp todo.distinct).1
    exact distinct (List.mem_map.mpr ⟨other, member, UInt16.toNat.inj equal⟩)
  have restQueued : ∀ other ∈ rest, Queued page' other := by
    intro other member
    have later := List.mem_cons_of_mem entry member
    exact (others _ (todo.below other later) (restDifferent other member)).trans
      (todo.queued other later)
  have restInside : ∀ other ∈ rest, other.extent.Inside lower freespaceEnd'.toNat := by
    intro other member
    rw [target]
    exact inside.slide (todo.inside other (List.mem_cons_of_mem entry member))
      ((List.pairwise_cons.mp todo.apart).1 other member)
      (UInt16.le_iff_toNat_le.mp ((List.pairwise_cons.mp todo.highest).1 other member))
  have newInside : Extent.Inside ⟨freespaceEnd'.toNat, entry.size.toNat⟩ freespaceEnd'.toNat
      freespaceEnd.toNat := Or.inr ⟨Nat.le_refl _, by simp only; omega⟩
  refine ⟨page', run, ?_, ?_, fun other member => ?_⟩
  · exact ⟨fun other member => todo.below other (List.mem_cons_of_mem entry member),
      (List.nodup_cons.mp todo.distinct).2, restQueued, restInside,
      (List.pairwise_cons.mp todo.highest).2, (List.pairwise_cons.mp todo.apart).2⟩
  · have only : ∀ other, other ∈ [entry] → other = entry := fun other => List.mem_singleton.mp
    have extents : (directory page').extent entry.slotId.toNat
        = ⟨freespaceEnd'.toNat, entry.size.toNat⟩ := congrArg Slot.extent slot
    refine ⟨?_, ?_, fun index small different => ?_, fun other member => ?_, fun other member => ?_,
      fun other member => ?_, List.pairwise_singleton _ _, fun other member => ?_, ?_, ?_⟩
    · exact (congrArg Directory.numTuples edits.decoded).trans same.numTuples
    · exact (congrArg Directory.freeStart edits.decoded).trans same.freeStart
    · exact others index small (different entry List.mem_cons_self).symm
    · rw [only other member, slot]
    · rw [only other member, slot]
    · rw [only other member, extents]
      exact newInside
    · have before : (directory page).extent entry.slotId.toNat = entry.extent :=
        congrArg Slot.extent (todo.queued entry List.mem_cons_self)
      rw [only other member, record, record, extents, before]
      rw [Extent.read_agree (newInside.mono (by omega) fits) edits.agree, ← isMoved]
      exact Extent.read_slide page entry.extent (by show _ + entry.size.toNat ≤ _; omega)
    · intro position above small
      rw [edits.agree position (by omega) small]
      exact outside position (Or.inr above)
    · simp only [List.map_cons, List.map_nil, List.sum_cons, List.sum_nil]
      omega
  · have later := List.mem_cons_of_mem entry member
    have extents : (directory page').extent other.slotId.toNat = other.extent :=
      congrArg Slot.extent (restQueued other member)
    have before : (directory page).extent other.slotId.toNat = other.extent :=
      congrArg Slot.extent (todo.queued other later)
    rw [record, record, extents, before]
    rw [Extent.read_agree ((restInside other member).mono atLeast (by omega)) edits.agree, ← isMoved]
    exact Extent.read_slide_apart page entry.extent
      ((restInside other member).apart newInside).symm

/-- One record moved, and then the rest. -/
theorem Compacted.cons {middle : FullPage} {freespaceEnd freespaceEnd₁ freespaceEnd₂ : Offset}
    {entry : VacuumEntry} {rest : List VacuumEntry} (fits : freespaceEnd.toNat ≤ pageSize)
    (below : entry.slotId.toNat < count)
    (distinct : ∀ other ∈ rest, other.slotId.toNat ≠ entry.slotId.toNat)
    (first : Compacted page middle count freespaceEnd freespaceEnd₁ [entry])
    (kept : ∀ other ∈ rest, record middle other.slotId.toNat = record page other.slotId.toNat)
    (second : Compacted middle page' count freespaceEnd₁ freespaceEnd₂ rest) :
    Compacted page page' count freespaceEnd freespaceEnd₂ (entry :: rest) := by
  have firstTotal := first.total
  have secondTotal := second.total
  simp only [List.map_cons, List.map_nil, List.sum_cons, List.sum_nil, Nat.add_zero] at firstTotal
  have here : entry ∈ [entry] := List.mem_cons_self
  have slot : slotAt page' entry.slotId.toNat = slotAt middle entry.slotId.toNat :=
    second.others _ below distinct
  have extents : (directory page').extent entry.slotId.toNat
      = (directory middle).extent entry.slotId.toNat := congrArg Slot.extent slot
  have firstInside := first.inside entry here
  refine ⟨second.numTuples.trans first.numTuples, second.freeStart.trans first.freeStart,
    fun index small different => ?_, ?_, ?_, ?_, ?_, ?_, fun position above small => ?_, ?_⟩
  · rw [second.others index small fun other member =>
      different other (List.mem_cons_of_mem entry member)]
    refine first.others index small fun other member => ?_
    rw [List.mem_singleton.mp member]
    exact different entry List.mem_cons_self
  · rw [List.forall_mem_cons, slot]
    exact ⟨first.live entry here, second.live⟩
  · rw [List.forall_mem_cons, slot]
    exact ⟨first.size entry here, second.size⟩
  · rw [List.forall_mem_cons, extents]
    refine ⟨firstInside.mono (by omega) (Nat.le_refl _), fun other member => ?_⟩
    exact (second.inside other member).mono (Nat.le_refl _) (by omega)
  · rw [List.pairwise_cons, extents]
    exact ⟨fun other member => ((second.inside other member).apart firstInside).symm, second.apart⟩
  · rw [List.forall_mem_cons]
    constructor
    · rw [← first.records entry here, record, record, extents]
      exact Extent.read_agree (firstInside.mono (Nat.le_refl _) fits) second.agree
    · intro other member
      rw [second.records other member, kept other member]
  · rw [second.agree position (by omega) small, first.agree position above small]
  · rw [List.map_cons, List.sum_cons]
    omega

/-- **The second loop** moves every record up, and loses none. -/
theorem compactRecords_spec (slots : (directory page).HasSlots count) {lower : Nat}
    (atLeast : entryAt count ≤ lower) {freespaceEnd : Offset} (fits : freespaceEnd.toNat ≤ pageSize)
    (order : lower ≤ freespaceEnd.toNat) {queue : List VacuumEntry}
    (todo : ToMove page count lower freespaceEnd queue) :
    ∃ freespaceEnd' page', compactRecords page freespaceEnd queue = .ok (freespaceEnd', page') ∧
      lower ≤ freespaceEnd'.toNat ∧ Compacted page page' count freespaceEnd freespaceEnd' queue := by
  induction queue generalizing page freespaceEnd with
  | nil =>
      exact ⟨freespaceEnd, page, rfl, order, rfl, rfl, fun _ _ _ => rfl, nofun, nofun, nofun,
        List.Pairwise.nil, nofun, fun _ _ _ => rfl, rfl⟩
  | cons entry rest ih =>
      obtain ⟨middle, run, todoRest, first, kept⟩ :=
        moveRecord_spec slots atLeast fits order todo
      have room := (todo.inside entry List.mem_cons_self).size_le order
      have sizeLe : entry.size.toNat ≤ freespaceEnd.toNat := room.2
      have lowerLe : lower ≤ freespaceEnd.toNat - entry.size.toNat := room.1
      have target : (freespaceEnd - entry.size).toNat = freespaceEnd.toNat - entry.size.toNat :=
        UInt16.toNat_sub_of_le _ _ (UInt16.le_iff_toNat_le.mpr sizeLe)
      have middleSlots : (directory middle).HasSlots count :=
        ⟨(congrArg UInt16.toNat first.freeStart).trans slots.start, slots.inside⟩
      obtain ⟨freespaceEnd', page', runRest, lowerRest, second⟩ :=
        ih middleSlots (by omega) (by omega) todoRest
      have distinct : ∀ other ∈ rest, other.slotId.toNat ≠ entry.slotId.toNat := by
        intro other member equal
        refine (List.nodup_cons.mp todo.distinct).1 (List.mem_map.mpr ⟨other, member, ?_⟩)
        exact UInt16.toNat.inj equal
      refine ⟨freespaceEnd', page', ?_, lowerRest, first.cons fits
        (todo.below entry List.mem_cons_self) distinct kept second⟩
      rw [compactRecords, run, ok_bind, runRest]

/-! ### The whole call -/

instance (rank : SlotId → Nat) : Std.Total (popsBefore rank) where
  total entry other := by
    by_cases same : entry.offset = other.offset
    · rcases Nat.le_total (rank entry.slotId) (rank other.slotId) with first | second
      · exact Or.inl (Or.inr ⟨same.symm, first⟩)
      · exact Or.inr (Or.inr ⟨same, second⟩)
    · rcases UInt16.lt_or_lt_of_ne same with less | more
      · exact Or.inr (Or.inl less)
      · exact Or.inl (Or.inl more)

instance (rank : SlotId → Nat) : IsTrans VacuumEntry (popsBefore rank) where
  trans first second third := by
    rintro (less | ⟨same, ranks⟩) (less' | ⟨same', ranks'⟩)
    · exact Or.inl (UInt16.lt_trans less' less)
    · exact Or.inl (same' ▸ less)
    · exact Or.inl (same ▸ less')
    · exact Or.inr ⟨same'.trans same, ranks.trans ranks'⟩

theorem popsBefore.offset_le {rank : SlotId → Nat} {entry other : VacuumEntry}
    (before : popsBefore rank entry other) : other.offset ≤ entry.offset := by
  rcases before with less | ⟨same, _⟩
  · exact UInt16.le_of_lt less
  · exact UInt16.le_of_eq same

/-- The queue of the slots of the page, in the order in which they leave it. -/
def vacuumQueue (page : FullPage) (rank : SlotId → Nat) : List VacuumEntry :=
  ((liveAmong page (slotIds (getPageCapacity page))).map (entryOf page)).insertionSort
    (popsBefore rank)

/-- The live records lie between the directory and the top of the page, apart from each other; what
the deleted slots say does not matter. -/
structure Directory.LiveWf (dir : Directory) (count top : Nat) : Prop where
  hasSlots : dir.HasSlots count
  order : entryAt count ≤ top
  inside : top ≤ pageSize
  packed : Packed (fun index => index ∈ dir.liveSlots count) dir.extent (entryAt count) top

theorem Directory.Wf.liveWf {dir : Directory} (wf : dir.Wf count top) : dir.LiveWf count top where
  hasSlots := wf.hasSlots
  order := wf.order.trans wf.below
  inside := wf.inside
  packed := wf.packed.mono (fun _ live => (Directory.mem_liveSlots.mp live).1) wf.order

theorem Directory.LiveWf.count_lt {dir : Directory} (wf : dir.LiveWf count top) : count < 2 ^ 16 := by
  have inside := wf.hasSlots.inside
  unfold entryAt pageSize at inside
  omega

section Vacuum

variable (wf : (directory page).LiveWf count top) (rank : SlotId → Nat)
include wf

theorem mem_vacuumQueue {entry : VacuumEntry} : entry ∈ vacuumQueue page rank ↔
    entry.slotId.toNat ∈ (directory page).liveSlots count ∧ entryOf page entry.slotId = entry := by
  have capacity := getPageCapacity_toNat wf.hasSlots
  rw [vacuumQueue, (List.perm_insertionSort _ _).mem_iff, List.mem_map, Directory.mem_liveSlots]
  constructor
  · rintro ⟨slotId, member, rfl⟩
    obtain ⟨inside, live⟩ := List.mem_filter.mp member
    rw [mem_slotIds, capacity] at inside
    have live : (slotAt page slotId.toNat).deleted = false := by simpa using live
    exact ⟨⟨inside, live⟩, rfl⟩
  · rintro ⟨⟨below, live⟩, same⟩
    have live : (slotAt page entry.slotId.toNat).deleted = false := live
    refine ⟨entry.slotId, List.mem_filter.mpr ⟨?_, ?_⟩, same⟩
    · rw [mem_slotIds, capacity]
      exact below
    · rw [live]
      rfl

omit wf in
theorem slotIds_nodup (capacity : UInt16) : (slotIds capacity).Nodup := by
  refine List.Nodup.map_on (fun first firstMember second secondMember same => ?_) List.nodup_range
  have bound : capacity.toNat < 2 ^ 16 := capacity.toNat_lt
  have firstBelow := List.mem_range.mp firstMember
  have secondBelow := List.mem_range.mp secondMember
  have numbers := congrArg UInt16.toNat same
  rw [UInt16.toNat_ofNat', UInt16.toNat_ofNat'] at numbers
  omega

omit wf in
theorem vacuumQueue_slotIds : ((vacuumQueue page rank).map VacuumEntry.slotId).Perm
    (liveAmong page (slotIds (getPageCapacity page))) := by
  refine ((List.perm_insertionSort _ _).map VacuumEntry.slotId).trans ?_
  rw [List.map_map]
  exact (List.map_id _).symm ▸ List.Perm.refl _

omit wf in
theorem vacuumQueue_distinct : ((vacuumQueue page rank).map VacuumEntry.slotId).Nodup :=
  (vacuumQueue_slotIds rank).nodup_iff.mpr ((slotIds_nodup _).filter _)

/-- After the first loop the queue is what is left to move. -/
theorem toMove_vacuumQueue {freespaceEnd : Offset} (ends : freespaceEnd.toNat = top)
    {ids : List SlotId} (edits : Edits page page' ((directory page).emptied ids) (entryAt count)) :
    ToMove page' count (entryAt count) freespaceEnd (vacuumQueue page rank) := by
  have live : ∀ entry ∈ vacuumQueue page rank,
      entry.slotId.toNat ∈ (directory page).liveSlots count :=
    fun entry member => ((mem_vacuumQueue wf rank).mp member).1
  have same : ∀ entry ∈ vacuumQueue page rank, entryOf page entry.slotId = entry :=
    fun entry member => ((mem_vacuumQueue wf rank).mp member).2
  have extents : ∀ entry ∈ vacuumQueue page rank,
      (directory page).extent entry.slotId.toNat = entry.extent :=
    fun entry member => congrArg VacuumEntry.extent (same entry member)
  refine ⟨fun entry member => (Directory.mem_liveSlots.mp (live entry member)).1,
    vacuumQueue_distinct rank, fun entry member => ?_, fun entry member => ?_, ?_, ?_⟩
  · have notDeleted := (Directory.mem_liveSlots.mp (live entry member)).2
    have slot : slotAt page' entry.slotId.toNat = slotAt page entry.slotId.toNat := by
      refine (congrFun (congrArg Directory.slot edits.decoded) _).trans (if_neg fun both => ?_)
      exact Bool.noConfusion (notDeleted.symm.trans both.1)
    rw [Queued, slot]
    conv_rhs => rw [← same entry member]
    exact Slot.ext notDeleted rfl rfl
  · rw [← extents entry member, ends]
    exact wf.packed.inside _ (live entry member)
  · exact (List.pairwise_insertionSort _ _).imp popsBefore.offset_le
  · refine List.Nodup.pairwise_of_forall_ne (List.Nodup.of_map _ (vacuumQueue_distinct rank)) ?_
    intro entry member other otherMember different
    rw [← extents entry member, ← extents other otherMember]
    refine wf.packed.apart _ _ (live entry member) (live other otherMember) fun equal =>
      different ?_
    rw [← same entry member, ← same other otherMember, UInt16.toNat.inj equal]

end Vacuum

/-- What `VacuumPage` does to the live records: they are packed at the end of the page. -/
structure Reclaimed (page page' : FullPage) (count top : Nat) : Prop where
  freeStart : getStartFreeSpace page' = getStartFreeSpace page
  numTuples : getNumTuples page' = getNumTuples page
  liveSlots : (directory page').liveSlots count = (directory page).liveSlots count
  records : ∀ index ∈ (directory page).liveSlots count, record page' index = record page index
  emptied : ∀ index, index < count → index ∉ (directory page).liveSlots count →
    (slotAt page' index).size = 0
  total : (getEndFreeSpace page').toNat
    + ∑ index ∈ (directory page).liveSlots count, (slotAt page index).size.toNat = top
  above : entryAt count ≤ (getEndFreeSpace page').toNat
  packed : Packed (fun index => index < count) (directory page').extent
    (getEndFreeSpace page').toNat top

/-- What `VacuumPage` does. -/
structure Vacuumed (page page' : FullPage) (count top : Nat) : Prop where
  wf : (directory page').Wf count top
  freeStart : getStartFreeSpace page' = getStartFreeSpace page
  numTuples : getNumTuples page' = getNumTuples page
  liveSlots : (directory page').liveSlots count = (directory page).liveSlots count
  records : ∀ index ∈ (directory page).liveSlots count, record page' index = record page index
  emptied : ∀ index, index < count → index ∉ (directory page).liveSlots count →
    (slotAt page' index).size = 0
  total : (getEndFreeSpace page').toNat
    + ∑ index ∈ (directory page).liveSlots count, (slotAt page index).size.toNat = top

section Call

variable (wf : (directory page).LiveWf count pageSize) (rank : SlotId → Nat)
include wf

/-- The entry of a live slot in the queue. -/
theorem exists_entry {index : Nat} (live : index ∈ (directory page).liveSlots count) :
    ∃ entry ∈ vacuumQueue page rank, entry.slotId.toNat = index ∧
      entry.size = (slotAt page index).size := by
  have small := wf.count_lt
  have below := (Directory.mem_liveSlots.mp live).1
  have number : (UInt16.ofNat index).toNat = index := by
    rw [UInt16.toNat_ofNat']
    omega
  refine ⟨entryOf page (UInt16.ofNat index), (mem_vacuumQueue wf rank).mpr ⟨?_, rfl⟩, number, ?_⟩
  · show (UInt16.ofNat index).toNat ∈ _
    rw [number]
    exact live
  · show (slotAt page (UInt16.ofNat index).toNat).size = _
    rw [number]

/-- The sizes in the queue are those of the live slots. -/
theorem vacuumQueue_sum : ((vacuumQueue page rank).map fun entry => entry.size.toNat).sum
    = ∑ index ∈ (directory page).liveSlots count, (slotAt page index).size.toNat := by
  have sizes : ∀ entry ∈ vacuumQueue page rank,
      entry.size.toNat = (slotAt page entry.slotId.toNat).size.toNat := by
    intro entry member
    have same := ((mem_vacuumQueue wf rank).mp member).2
    exact congrArg (fun entry => entry.size.toNat) same.symm
  have numbers : ((vacuumQueue page rank).map fun entry => entry.slotId.toNat).Nodup := by
    have distinct : ((vacuumQueue page rank).map VacuumEntry.slotId).Nodup :=
      vacuumQueue_distinct rank
    have mapped := distinct.map fun _ _ => UInt16.toNat.inj
    rwa [List.map_map] at mapped
  have slots : ((vacuumQueue page rank).map fun entry => entry.slotId.toNat).toFinset
      = (directory page).liveSlots count := by
    ext index
    rw [List.mem_toFinset, List.mem_map]
    constructor
    · rintro ⟨entry, member, rfl⟩
      exact ((mem_vacuumQueue wf rank).mp member).1
    · intro live
      obtain ⟨entry, member, same, _⟩ := exists_entry wf rank live
      exact ⟨entry, member, same⟩
  rw [List.map_congr_left sizes, ← slots, List.sum_toFinset _ numbers, List.map_map]
  rfl

section Compacted

variable {emptied compacted : FullPage} {freespaceEnd freespaceEnd' : Offset}
  (ends : freespaceEnd.toNat = pageSize)
  (emptyEdits : Edits page emptied ((directory page).emptied (slotIds (getPageCapacity page)))
    (entryAt count))
  (done : Compacted emptied compacted count freespaceEnd freespaceEnd' (vacuumQueue page rank))
include emptyEdits done

/-- A slot that is not live lost its bytes in the first loop. -/
theorem compacted_dead {index : Nat} (below : index < count)
    (notLive : index ∉ (directory page).liveSlots count) :
    slotAt compacted index = { slotAt page index with size := 0 } := by
  have capacity := getPageCapacity_toNat wf.hasSlots
  have deleted : (slotAt page index).deleted = true := by
    by_contra live
    exact notLive (Directory.mem_liveSlots.mpr ⟨below, Bool.eq_false_of_not_eq_true live⟩)
  have small := wf.count_lt
  have listed : ∃ slotId ∈ slotIds (getPageCapacity page), slotId.toNat = index := by
    have number : (UInt16.ofNat index).toNat = index := by
      rw [UInt16.toNat_ofNat']
      omega
    refine ⟨UInt16.ofNat index, mem_slotIds.mpr ?_, number⟩
    rw [capacity, number]
    exact below
  rw [done.others index below fun entry member same =>
    notLive (same ▸ ((mem_vacuumQueue wf rank).mp member).1)]
  exact (congrFun (congrArg Directory.slot emptyEdits.decoded) index).trans
    (if_pos ⟨deleted, listed⟩)

/-- A live slot stays live, and the same slots are. -/
theorem compacted_liveSlots :
    (directory compacted).liveSlots count = (directory page).liveSlots count := by
  ext index
  rw [Directory.mem_liveSlots]
  show index < count ∧ (slotAt compacted index).deleted = false ↔ _
  by_cases isLive : index ∈ (directory page).liveSlots count
  · obtain ⟨entry, member, rfl, _⟩ := exists_entry wf rank isLive
    exact iff_of_true ⟨(Directory.mem_liveSlots.mp isLive).1, done.live entry member⟩ isLive
  · refine iff_of_false (fun both => ?_) isLive
    rw [compacted_dead wf rank emptyEdits done both.1 isLive] at both
    exact isLive (Directory.mem_liveSlots.mpr both)

omit emptyEdits in
include ends in
/-- A live record is at the end of the page, as long as it was, with its bytes. -/
theorem compacted_live {index : Nat} (isLive : index ∈ (directory page).liveSlots count) :
    ((directory compacted).extent index).Inside freespaceEnd'.toNat pageSize ∧
      record compacted index = record emptied index := by
  obtain ⟨entry, member, rfl, _⟩ := exists_entry wf rank isLive
  exact ⟨ends ▸ done.inside entry member, done.records entry member⟩

/-- The slots of the page are apart from each other in the end. -/
theorem compacted_apart {index other : Nat} (below : index < count) (otherBelow : other < count)
    (different : index ≠ other) :
    ((directory compacted).extent index).Apart ((directory compacted).extent other) := by
  have empty : ∀ {index}, index < count → index ∉ (directory page).liveSlots count →
      (slotAt compacted index).size.toNat = 0 := fun below isDead =>
    congrArg (fun slot => slot.size.toNat) (compacted_dead wf rank emptyEdits done below isDead)
  by_cases isLive : index ∈ (directory page).liveSlots count
  · by_cases otherLive : other ∈ (directory page).liveSlots count
    · obtain ⟨entry, member, rfl, _⟩ := exists_entry wf rank isLive
      obtain ⟨otherEntry, otherMember, rfl, _⟩ := exists_entry wf rank otherLive
      have symmetric : Std.Symm fun entry other : VacuumEntry =>
          ((directory compacted).extent entry.slotId.toNat).Apart
            ((directory compacted).extent other.slotId.toNat) := ⟨fun _ _ => Extent.Apart.symm⟩
      refine done.apart.forall member otherMember ?_
      rintro rfl
      exact different rfl
    · exact Or.inr (Or.inl (empty otherBelow otherLive))
  · exact Or.inl (empty below isLive)

omit done in
/-- The first loop leaves the live records alone. -/
theorem emptied_record {index : Nat} (isLive : index ∈ (directory page).liveSlots count) :
    record emptied index = record page index := by
  have same : slotAt emptied index = slotAt page index := by
    refine (congrFun (congrArg Directory.slot emptyEdits.decoded) index).trans (if_neg fun both => ?_)
    exact Bool.noConfusion ((Directory.mem_liveSlots.mp isLive).2.symm.trans both.1)
  have sameExtent : (directory emptied).extent index = (directory page).extent index :=
    congrArg Slot.extent same
  rw [record, sameExtent]
  exact Extent.read_agree (wf.packed.inside index isLive) emptyEdits.agree

include ends

/-- What both loops and the new end of the free space come to. -/
theorem reclaimed_of_compacted (lower : entryAt count ≤ freespaceEnd'.toNat) :
    Reclaimed page (setEndFreeSpace compacted freespaceEnd') count pageSize := by
  have edits := edits_setEndFreeSpace compacted freespaceEnd' count
  have slot : slotAt (setEndFreeSpace compacted freespaceEnd') = slotAt compacted :=
    congrArg Directory.slot edits.decoded
  have total := done.total
  have live : ∀ index ∈ (directory page).liveSlots count,
      ((directory compacted).extent index).Inside freespaceEnd'.toNat pageSize ∧
        record compacted index = record emptied index :=
    fun _ isLive => compacted_live wf rank ends done isLive
  have dead : ∀ index, index < count → index ∉ (directory page).liveSlots count →
      (slotAt compacted index).size = 0 := by
    intro index below isDead
    rw [compacted_dead wf rank emptyEdits done below isDead]
  have freeStart : getStartFreeSpace (setEndFreeSpace compacted freespaceEnd')
      = getStartFreeSpace page :=
    (congrArg Directory.freeStart edits.decoded).trans
      (done.freeStart.trans (congrArg Directory.freeStart emptyEdits.decoded))
  have numTuples : getNumTuples (setEndFreeSpace compacted freespaceEnd') = getNumTuples page :=
    (congrArg Directory.numTuples edits.decoded).trans
      (done.numTuples.trans (congrArg Directory.numTuples emptyEdits.decoded))
  have freeEnd : getEndFreeSpace (setEndFreeSpace compacted freespaceEnd') = freespaceEnd' :=
    congrArg Directory.freeEnd edits.decoded
  have liveSlots : (directory (setEndFreeSpace compacted freespaceEnd')).liveSlots count
      = (directory compacted).liveSlots count := by
    ext index
    rw [Directory.mem_liveSlots, Directory.mem_liveSlots]
    show index < count ∧ (slotAt _ index).deleted = false ↔ _
    rw [slot]
    rfl
  have extents : (directory (setEndFreeSpace compacted freespaceEnd')).extent
      = (directory compacted).extent := funext fun index => congrArg Slot.extent (congrFun slot index)
  have sum := vacuumQueue_sum wf rank
  refine ⟨freeStart, numTuples, liveSlots.trans (compacted_liveSlots wf rank emptyEdits done), ?_, ?_,
    ?_, lower.trans (congrArg UInt16.toNat freeEnd).ge, ?_, ?_⟩
  · intro index isLive
    rw [record, extents, Extent.read_agree ((live index isLive).1.mono lower (Nat.le_refl _))
      edits.agree]
    exact (live index isLive).2.trans (emptied_record wf emptyEdits isLive)
  · intro index below isDead
    rw [slot]
    exact dead index below isDead
  · rw [freeEnd, ← sum, total, ends]
  · intro index below
    rw [extents]
    by_cases isLive : index ∈ (directory page).liveSlots count
    · exact (live index isLive).1.mono (congrArg UInt16.toNat freeEnd).le (Nat.le_refl _)
    · exact Or.inl (congrArg UInt16.toNat (dead index below isLive))
  · intro index other below otherBelow different
    rw [extents]
    exact compacted_apart wf rank emptyEdits done below otherBelow different

end Compacted

/-- **`VacuumPage` reclaims what no live record uses.** -/
theorem vacuumPage_reclaims : ∃ page', vacuumPage page rank = .ok page' ∧
    Reclaimed page page' count pageSize := by
  have capacity := getPageCapacity_toNat wf.hasSlots
  have ends : (UInt16.ofNat pageSize).toNat = pageSize := rfl
  obtain ⟨emptied, emptyRun, emptyEdits⟩ := queueSlots_spec wf.hasSlots
    (slotIds (getPageCapacity page)) fun slotId member => by rwa [mem_slotIds, capacity] at member
  have slots : (directory emptied).HasSlots count := by
    rw [emptyEdits.decoded]
    exact ⟨wf.hasSlots.start, wf.hasSlots.inside⟩
  have todo := toMove_vacuumQueue wf rank ends emptyEdits
  obtain ⟨freespaceEnd, compacted, run, lower, done⟩ :=
    compactRecords_spec slots (Nat.le_refl _) ends.le (ends ▸ wf.order) todo
  refine ⟨setEndFreeSpace compacted freespaceEnd, ?_,
    reclaimed_of_compacted wf rank ends emptyEdits done lower⟩
  rw [vacuumPage, emptyRun, ok_bind]
  simp only
  rw [show List.insertionSort (popsBefore rank) _ = vacuumQueue page rank from rfl, run, ok_bind]
  rfl

end Call

/-- On a page where the directory is all in order, it stays so. -/
theorem Reclaimed.vacuumed (wf : (directory page).Wf count pageSize)
    (done : Reclaimed page page' count pageSize) : Vacuumed page page' count pageSize := by
  have total := done.total
  have inOrder : (directory page').Wf count pageSize := by
    refine ⟨(congrArg UInt16.toNat done.freeStart).trans wf.start, done.above, ?_, Nat.le_refl _, ?_,
      done.packed⟩
    · show (getEndFreeSpace page').toNat ≤ pageSize
      omega
    · rw [done.liveSlots]
      exact (congrArg UInt16.toNat done.numTuples).trans wf.tuples
  exact ⟨inOrder, done.freeStart, done.numTuples, done.liveSlots, done.records, done.emptied,
    done.total⟩

/-- **`VacuumPage` compacts the records and loses none.** -/
theorem vacuumPage_spec (wf : (directory page).Wf count pageSize) (rank : SlotId → Nat) :
    ∃ page', vacuumPage page rank = .ok page' ∧ Vacuumed page page' count pageSize := by
  obtain ⟨page', run, done⟩ := vacuumPage_reclaims wf.liveWf rank
  exact ⟨page', run, done.vacuumed wf⟩

end Page

end Yadb
