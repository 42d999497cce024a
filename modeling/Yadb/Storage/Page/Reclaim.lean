/-
**`VacuumPage` reclaims everything that no live record uses.**

What the calls on a page come to is in `Page.Vacuum`; here are the moves one by one, what the page
looks like from the end of its free space on, and a second call.

* `vacuumMoves`: the `memmove`s of a call, each to where it was computed from the queue.
* `movesSafely`: a record moves up or stays, and onto no record that is still to be moved.
* `FullyReclaimed.of_reclaimed`: the live records fill the page from the end of the free space on.
* `vacuumPage_fullyReclaims`: all of this for every page whose live records are apart.
-/

import Yadb.Storage.Page.Refinement
import Yadb.Storage.Page.Vacuum

namespace Yadb

open Foundation

namespace Page

variable {page page' : FullPage} {count : Nat}

/-! ### The moves -/

/-- A `memmove` of `VacuumPage`: the queue entry, and where its record goes. -/
structure VacuumMove where
  entry : VacuumEntry
  target : Offset
  deriving DecidableEq

/-- The extent that the move writes. -/
def VacuumMove.written (move : VacuumMove) : Extent := ⟨move.target.toNat, move.entry.size.toNat⟩

/-- The moves for a queue, from this end of the free space down. -/
def vacuumMoves (freespaceEnd : Offset) : List VacuumEntry → List VacuumMove
  | [] => []
  | entry :: rest =>
      ⟨entry, freespaceEnd - entry.size⟩ :: vacuumMoves (freespaceEnd - entry.size) rest

/-- A move, with the new offset of its slot. -/
def performMove (page : FullPage) (move : VacuumMove) : Except PageAssertion FullPage :=
  setSlotOffset
    (moveBytes page move.target.toNat move.entry.offset.toNat move.entry.size.toNat)
    move.entry.slotId move.target

def performMoves (page : FullPage) : List VacuumMove → Except PageAssertion FullPage
  | [] => .ok page
  | move :: rest => do performMoves (← performMove page move) rest

/-- The end of the free space after the moves. -/
def endAfter (freespaceEnd : Offset) : List VacuumMove → Offset
  | [] => freespaceEnd
  | move :: rest => endAfter move.target rest

/-- **The second loop is its moves.** -/
theorem compactRecords_eq_moves (page : FullPage) (freespaceEnd : Offset) (queue : List VacuumEntry) :
    compactRecords page freespaceEnd queue = (do
      let page ← performMoves page (vacuumMoves freespaceEnd queue)
      return (endAfter freespaceEnd (vacuumMoves freespaceEnd queue), page)) := by
  induction queue generalizing page freespaceEnd with
  | nil => rfl
  | cons entry rest ih =>
      rw [compactRecords, vacuumMoves, performMoves, performMove]
      cases moved : setSlotOffset (moveBytes page (freespaceEnd - entry.size).toNat
          entry.offset.toNat entry.size.toNat) entry.slotId (freespaceEnd - entry.size) with
      | error failure => rfl
      | ok page' =>
          rw [ok_bind, ih, ok_bind]
          rfl

/-- No move goes down, and no move writes a byte of a record that is still to be moved. -/
structure MovesSafely (moves : List VacuumMove) : Prop where
  up : ∀ move ∈ moves, move.entry.offset ≤ move.target
  apart : moves.Pairwise fun move later => move.written.Apart later.entry.extent

/-- **The moves of a queue are safe**: the entries left are below the end of the free space, and the
highest of them moves first. -/
theorem movesSafely {lower : Nat} {freespaceEnd : Offset} {queue : List VacuumEntry}
    (order : lower ≤ freespaceEnd.toNat)
    (starts : ∀ entry ∈ queue, entry.offset.toNat ≤ freespaceEnd.toNat)
    (inside : ∀ entry ∈ queue, entry.extent.Inside lower freespaceEnd.toNat)
    (highest : queue.Pairwise fun entry other => other.offset ≤ entry.offset)
    (apart : queue.Pairwise fun entry other => entry.extent.Apart other.extent) :
    MovesSafely (vacuumMoves freespaceEnd queue) := by
  induction queue generalizing freespaceEnd with
  | nil => exact ⟨nofun, List.Pairwise.nil⟩
  | cons entry rest ih =>
      obtain ⟨highestHere, highestLater⟩ := List.pairwise_cons.mp highest
      obtain ⟨apartHere, apartLater⟩ := List.pairwise_cons.mp apart
      have insideHere := inside entry List.mem_cons_self
      have startHere := starts entry List.mem_cons_self
      have room := insideHere.size_le order
      have sizeLe : entry.size.toNat ≤ freespaceEnd.toNat := room.2
      have target : (freespaceEnd - entry.size).toNat = freespaceEnd.toNat - entry.size.toNat :=
        UInt16.toNat_sub_of_le _ _ (UInt16.le_iff_toNat_le.mpr sizeLe)
      have goesUp : entry.offset.toNat ≤ (freespaceEnd - entry.size).toNat := by
        have bounds : entry.size.toNat = 0 ∨
            lower ≤ entry.offset.toNat ∧ entry.offset.toNat + entry.size.toNat
              ≤ freespaceEnd.toNat := insideHere
        omega
      have insideLater : ∀ other ∈ rest,
          other.extent.Inside lower (freespaceEnd - entry.size).toNat := by
        intro other member
        rw [target]
        exact insideHere.slide (inside other (List.mem_cons_of_mem _ member))
          (apartHere other member) (UInt16.le_iff_toNat_le.mp (highestHere other member))
      have startsLater : ∀ other ∈ rest,
          other.offset.toNat ≤ (freespaceEnd - entry.size).toNat := by
        intro other member
        exact (UInt16.le_iff_toNat_le.mp (highestHere other member)).trans goesUp
      have later := ih (target ▸ room.1) startsLater insideLater highestLater apartLater
      have sources : ∀ {freespaceEnd : Offset} {queue : List VacuumEntry} {move : VacuumMove},
          move ∈ vacuumMoves freespaceEnd queue → move.entry ∈ queue := by
        intro freespaceEnd queue move member
        induction queue generalizing freespaceEnd with
        | nil => cases member
        | cons first others ih =>
            rcases List.mem_cons.mp member with rfl | tail
            · exact List.mem_cons_self
            · exact List.mem_cons_of_mem _ (ih tail)
      have written : (VacuumMove.mk entry (freespaceEnd - entry.size)).written.Inside
          (freespaceEnd - entry.size).toNat freespaceEnd.toNat :=
        Or.inr ⟨Nat.le_refl _, by
          show (freespaceEnd - entry.size).toNat + entry.size.toNat ≤ freespaceEnd.toNat
          omega⟩
      refine ⟨?_, ?_⟩
      · rw [vacuumMoves, List.forall_mem_cons]
        exact ⟨UInt16.le_iff_toNat_le.mpr goesUp, later.up⟩
      · rw [vacuumMoves, List.pairwise_cons]
        exact ⟨fun move member => ((insideLater _ (sources member)).apart written).symm,
          later.apart⟩

/-! ### The page after a call -/

/-- The layout that `VacuumPage` needs: live records apart, and no live slot that points behind the
page. -/
structure Vacuumable (page : FullPage) (count : Nat) : Prop where
  layout : (directory page).LiveWf count pageSize
  starts : ∀ index ∈ (directory page).liveSlots count, (slotAt page index).offset.toNat ≤ pageSize

/-- What a live slot's record occupies. -/
def Occupies (page : FullPage) (index position : Nat) : Prop :=
  (slotAt page index).offset.toNat ≤ position ∧
    position < (slotAt page index).offset.toNat + (slotAt page index).size.toNat

/-- The records, the header and the flags after a call, and where the live records are. -/
structure FullyReclaimed (page page' : FullPage) (count : Nat) : Prop where
  records : ∀ index ∈ (directory page).liveSlots count, record page' index = record page index
  freeEnd : (getEndFreeSpace page').toNat
    = pageSize - ∑ index ∈ (directory page).liveSlots count, (slotAt page index).size.toNat
  fits : ∑ index ∈ (directory page).liveSlots count, (slotAt page index).size.toNat ≤ pageSize
  within : ∀ index ∈ (directory page).liveSlots count, ∀ position, Occupies page' index position →
    (getEndFreeSpace page').toNat ≤ position ∧ position < pageSize
  /-- No gap, and no overlap. -/
  covered : ∀ position, (getEndFreeSpace page').toNat ≤ position → position < pageSize →
    ∃ index ∈ (directory page).liveSlots count, Occupies page' index position ∧
      ∀ other ∈ (directory page).liveSlots count, Occupies page' other position → other = index
  freeStart : getStartFreeSpace page' = getStartFreeSpace page
  numTuples : getNumTuples page' = getNumTuples page
  flags : ∀ index, index < count →
    (slotAt page' index).deleted = (slotAt page index).deleted

/-- The sizes of the live slots are those of their records. -/
theorem Reclaimed.sizes (done : Reclaimed page page' count pageSize) {index : Nat}
    (live : index ∈ (directory page).liveSlots count) :
    (slotAt page' index).size = (slotAt page index).size := by
  have same := congrArg List.length (done.records index live)
  rw [length_record, length_record] at same
  exact UInt16.toNat.inj same

theorem Reclaimed.flags (done : Reclaimed page page' count pageSize) {index : Nat}
    (below : index < count) : (slotAt page' index).deleted = (slotAt page index).deleted := by
  have both : index ∈ (directory page').liveSlots count
      ↔ index ∈ (directory page).liveSlots count := by rw [done.liveSlots]
  rw [Directory.mem_liveSlots, Directory.mem_liveSlots, and_iff_right below,
    and_iff_right below] at both
  exact Bool.eq_iff_iff.mpr (by
    rw [← not_iff_not, Bool.not_eq_true, Bool.not_eq_true]
    exact both)

theorem FullyReclaimed.of_reclaimed (done : Reclaimed page page' count pageSize) :
    FullyReclaimed page page' count := by
  have total := done.total
  have isUsed : ∀ {index}, index ∈ (directory page).liveSlots count → index < count :=
    fun live => (Directory.mem_liveSlots.mp live).1
  have packed : Packed (fun index => index ∈ (directory page).liveSlots count)
      (directory page').extent (getEndFreeSpace page').toNat pageSize :=
    done.packed.mono (fun _ live => isUsed live) (Nat.le_refl _)
  have sum : (getEndFreeSpace page').toNat + ∑ index ∈ (directory page).liveSlots count,
      ((directory page').extent index).size = pageSize := by
    rw [← total]
    congr 1
    exact Finset.sum_congr rfl fun index live => congrArg UInt16.toNat (done.sizes live)
  refine ⟨done.records, by omega, by omega, ?_, ?_, done.freeStart, done.numTuples,
    fun index => done.flags⟩
  · rintro index live position ⟨above, below⟩
    have bounds : (slotAt page' index).size.toNat = 0 ∨
        (getEndFreeSpace page').toNat ≤ (slotAt page' index).offset.toNat ∧
          (slotAt page' index).offset.toNat + (slotAt page' index).size.toNat ≤ pageSize :=
      packed.inside index live
    omega
  · intro position above below
    obtain ⟨index, live, occupies, only⟩ := packed.covers sum above below
    exact ⟨index, live, occupies, fun other otherLive both => only other otherLive both.1 both.2⟩

/-- The page after a call can be vacuumed again. -/
theorem Reclaimed.liveWf (wf : (directory page).LiveWf count pageSize)
    (done : Reclaimed page page' count pageSize) : (directory page').LiveWf count pageSize where
  hasSlots := ⟨(congrArg UInt16.toNat done.freeStart).trans wf.hasSlots.start, wf.hasSlots.inside⟩
  order := wf.order
  inside := wf.inside
  packed := done.packed.mono (fun _ live => (Directory.mem_liveSlots.mp live).1) done.above

/-- A second call frees nothing more and leaves the records. -/
theorem Reclaimed.again {page'' : FullPage} (first : Reclaimed page page' count pageSize)
    (second : Reclaimed page' page'' count pageSize) :
    getEndFreeSpace page'' = getEndFreeSpace page' ∧
      ∀ index ∈ (directory page).liveSlots count, record page'' index = record page' index := by
  have firstTotal := first.total
  have secondTotal := second.total
  have same : ∑ index ∈ (directory page').liveSlots count, (slotAt page' index).size.toNat
      = ∑ index ∈ (directory page).liveSlots count, (slotAt page index).size.toNat := by
    rw [first.liveSlots]
    exact Finset.sum_congr rfl fun index live => congrArg UInt16.toNat (first.sizes live)
  refine ⟨UInt16.toNat.inj (by omega), fun index live => second.records index ?_⟩
  rw [first.liveSlots]
  exact live

/-- **`VacuumPage` reclaims everything reclaimable.** For every page whose live records are apart,
every order in which the queue pops entries of one offset: what the call leaves, that its moves are
safe, and that a second call changes nothing. -/
theorem vacuumPage_fullyReclaims (ready : Vacuumable page count) (rank : SlotId → Nat) :
    ∃ page', vacuumPage page rank = .ok page' ∧ FullyReclaimed page page' count ∧
      (vacuumPage page rank = (do
          let (_, emptied) ← queueSlots page (slotIds (getPageCapacity page))
          let moves := vacuumMoves (UInt16.ofNat pageSize) (vacuumQueue page rank)
          let moved ← performMoves emptied moves
          return setEndFreeSpace moved (endAfter (UInt16.ofNat pageSize) moves))) ∧
      MovesSafely (vacuumMoves (UInt16.ofNat pageSize) (vacuumQueue page rank)) ∧
      ∀ rank', ∃ page'', vacuumPage page' rank' = .ok page'' ∧
        getEndFreeSpace page'' = getEndFreeSpace page' ∧
        ∀ index ∈ (directory page).liveSlots count, record page'' index = record page' index := by
  have wf := ready.layout
  have capacity := getPageCapacity_toNat wf.hasSlots
  obtain ⟨page', run, done⟩ := vacuumPage_reclaims wf rank
  obtain ⟨emptied, emptyRun, emptyEdits⟩ := queueSlots_spec wf.hasSlots
    (slotIds (getPageCapacity page)) fun slotId member => by rwa [mem_slotIds, capacity] at member
  have ends : (UInt16.ofNat pageSize).toNat = pageSize := rfl
  have todo := toMove_vacuumQueue wf rank ends emptyEdits
  refine ⟨page', run, .of_reclaimed done, ?_, ?_, fun rank' => ?_⟩
  · rw [vacuumPage, emptyRun, ok_bind, ok_bind]
    simp only
    rw [show List.insertionSort (popsBefore rank) _ = vacuumQueue page rank from rfl,
      compactRecords_eq_moves]
    cases performMoves emptied (vacuumMoves (UInt16.ofNat pageSize) (vacuumQueue page rank)) with
    | error failure => rfl
    | ok moved => rfl
  · refine movesSafely wf.order (fun entry member => ?_) todo.inside todo.highest todo.apart
    obtain ⟨live, same⟩ := (mem_vacuumQueue wf rank).mp member
    have start := ready.starts _ live
    rw [← same]
    exact start
  · obtain ⟨page'', runAgain, doneAgain⟩ := vacuumPage_reclaims (done.liveWf wf) rank'
    exact ⟨page'', runAgain, done.again doneAgain⟩

/-- Records of three bytes, none, four and one, between which a deleted one of two bytes is
reclaimed. -/
theorem vacuumPage_fullyReclaims_example :
    ∃ page', vacuumPage mixedPage (fun _ => 0) = .ok page' ∧ FullyReclaimed mixedPage page' 5 ∧
      getEndFreeSpace mixedPage = 4086 ∧ getEndFreeSpace page' = 4088 := by
  have starts : ∀ index ∈ (directory mixedPage).liveSlots 5,
      (slotAt mixedPage index).offset.toNat ≤ pageSize := by
    rw [mixedPage_records.1]
    decide +kernel
  obtain ⟨page', run, reclaimed, _⟩ :=
    vacuumPage_fullyReclaims ⟨mixedPage_wf.liveWf, starts⟩ fun _ => 0
  refine ⟨page', run, reclaimed, by decide +kernel, UInt16.toNat.inj ?_⟩
  rw [reclaimed.freeEnd, mixedPage_records.1]
  decide +kernel

end Page

end Yadb
