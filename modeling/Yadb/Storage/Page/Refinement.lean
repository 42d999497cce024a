/-
**The slotted page refines a map from slots to bytes.**

`pageMachine` runs the page functions and the writes of clients on one page. `SlotMapStep` says what
the same calls do to a map from slot ids to byte strings, with no offsets, entries or free space; a
new record holds some bytes of the length asked for.

* `refine_step`: one call from related states is a step of the map with the same answer.
* `slottedPage_refines`: over every run from `page::InitPage` in which clients keep to live slots
  and slices, no call asserts, every answer is the map's and every record reads back; the layout is
  in order in every state; and each allocation fails exactly when there is no room.
-/

import Yadb.Foundation.Machine
import Yadb.Storage.Page.Vacuum

namespace Yadb

open Foundation

inductive PageOp
  | allocateSlot (size : UInt64)
  | allocateSlotOrReuseSlot (size : UInt64)
  | readRecord (slotId : SlotId)
  | write (slotId : SlotId) (position : Nat) (bytes : List UInt8)
  | deleteSlot (slotId : SlotId)
  | vacuumPage (rank : SlotId → Nat)

inductive PageAnswer
  | slot (slotId : Option SlotId)
  | record (bytes : List UInt8)
  | done
  | failed (assertion : PageAssertion)
  deriving DecidableEq

namespace Page

/-- One call, which can assert; `write` is a client's write inside the slice that `WriteRecord`
returns. -/
def call (page : FullPage) : PageOp → Except PageAssertion (PageAnswer × FullPage)
  | .allocateSlot size => do
      let (slotId, page) ← allocateSlot page size
      return (.slot slotId, page)
  | .allocateSlotOrReuseSlot size => do
      let (slotId, page) ← allocateSlotOrReuseSlot page size
      return (.slot slotId, page)
  | .readRecord slotId => do
      return (.record (← readRecord page slotId), page)
  | .write slotId position bytes => do
      return (.done, (← writeRecord page slotId).write page position bytes)
  | .deleteSlot slotId => do
      return (.done, ← deleteSlot page slotId)
  | .vacuumPage rank => do
      return (.done, ← vacuumPage page rank)

def step (page : FullPage) (op : PageOp) : PageAnswer × FullPage :=
  match call page op with
  | .ok result => result
  | .error assertion => (.failed assertion, page)

end Page

def pageMachine : Machine FullPage PageOp PageAnswer := ⟨Page.step⟩

/-! ### What a page is for -/

abbrev SlotMap := SlotId → Option (List UInt8)

/-- What one call does to the records. -/
inductive SlotMapStep (slots : SlotMap) : PageOp → PageAnswer → SlotMap → Prop
  | allocated {size : UInt64} {slotId : SlotId} {bytes : List UInt8} : slots slotId = none →
      bytes.length = size.toNat → SlotMapStep slots (.allocateSlot size) (.slot (some slotId))
        (Function.update slots slotId (some bytes))
  | full {size : UInt64} : SlotMapStep slots (.allocateSlot size) (.slot none) slots
  | reused {size : UInt64} {slotId : SlotId} {bytes : List UInt8} : slots slotId = none →
      bytes.length = size.toNat →
      SlotMapStep slots (.allocateSlotOrReuseSlot size) (.slot (some slotId))
        (Function.update slots slotId (some bytes))
  | noReuse {size : UInt64} : SlotMapStep slots (.allocateSlotOrReuseSlot size) (.slot none) slots
  | read {slotId : SlotId} {bytes : List UInt8} : slots slotId = some bytes →
      SlotMapStep slots (.readRecord slotId) (.record bytes) slots
  | wrote {slotId : SlotId} {position : Nat} {bytes written : List UInt8} :
      slots slotId = some bytes → position + written.length ≤ bytes.length →
      SlotMapStep slots (.write slotId position written) .done
        (Function.update slots slotId (some (overwrite bytes position written)))
  | deleted {slotId : SlotId} {bytes : List UInt8} : slots slotId = some bytes →
      SlotMapStep slots (.deleteSlot slotId) .done (Function.update slots slotId none)
  | vacuumed {rank : SlotId → Nat} : SlotMapStep slots (.vacuumPage rank) .done slots

namespace Page

/-- The slot is in the directory and not deleted. -/
def isLive (page : FullPage) (slotId : SlotId) : Bool :=
  isSlotDeleted page slotId == .ok false

/-- Clients read, write and delete live slots only, write inside the slice, and ask for sizes below
`2 ^ 63`. -/
def Allowed (page : FullPage) : PageOp → Prop
  | .allocateSlot size => size.toNat < 2 ^ 63
  | .allocateSlotOrReuseSlot size => size.toNat < 2 ^ 63
  | .readRecord slotId => isLive page slotId = true
  | .write slotId position bytes => isLive page slotId = true ∧
      ∃ slice, writeRecord page slotId = .ok slice ∧ position + bytes.length ≤ slice.size.toNat
  | .deleteSlot slotId => isLive page slotId = true
  | .vacuumPage _ => True

/-- Whether a write stays inside the slice can be computed. -/
instance decidableFits (result : Except PageAssertion Slice) (needed : Nat) :
    Decidable (∃ slice, result = .ok slice ∧ needed ≤ slice.size.toNat) :=
  match result with
  | .error _ => .isFalse nofun
  | .ok slice => decidable_of_iff (needed ≤ slice.size.toNat)
      ⟨fun fits => ⟨slice, rfl, fits⟩, fun ⟨_, same, fits⟩ => Except.ok.inj same ▸ fits⟩

instance decidableAllowed (page : FullPage) : ∀ op, Decidable (Allowed page op)
  | .allocateSlot size => inferInstanceAs (Decidable (size.toNat < 2 ^ 63))
  | .allocateSlotOrReuseSlot size => inferInstanceAs (Decidable (size.toNat < 2 ^ 63))
  | .readRecord slotId => inferInstanceAs (Decidable (isLive page slotId = true))
  | .write slotId position bytes => inferInstanceAs (Decidable (isLive page slotId = true ∧
      ∃ slice, writeRecord page slotId = .ok slice ∧ position + bytes.length ≤ slice.size.toNat))
  | .deleteSlot slotId => inferInstanceAs (Decidable (isLive page slotId = true))
  | .vacuumPage _ => .isTrue trivial

theorem entry_fits {size : UInt64} (small : size.toNat < 2 ^ 63) : 5 + size.toNat < 2 ^ 64 := by
  omega

/-- The page shows these records. -/
structure Shows (page : FullPage) (slots : SlotMap) : Prop where
  live : ∀ slotId, isLive page slotId = (slots slotId).isSome
  records : ∀ slotId bytes, slots slotId = some bytes → readRecord page slotId = .ok bytes

/-- The position lies in the slice. -/
def Slice.Covers (slice : Slice) (position : Nat) : Prop :=
  slice.offset.toNat ≤ position ∧ position < slice.offset.toNat + slice.size.toNat

/-- The layout of the page is in order. -/
structure InOrder (page : FullPage) : Prop where
  start : header.size.toNat + slotEntry.size.toNat * (getPageCapacity page).toNat
    = (getStartFreeSpace page).toNat
  order : (getStartFreeSpace page).toNat ≤ (getEndFreeSpace page).toNat
  inside : ∀ slotId slice position, writeRecord page slotId = .ok slice → slice.Covers position →
    (getEndFreeSpace page).toNat ≤ position ∧ position < pageSize
  apart : ∀ slotId slotId' slice slice' position, writeRecord page slotId = .ok slice →
    writeRecord page slotId' = .ok slice' → slice.Covers position → slice'.Covers position →
    slotId = slotId'
  tuples : (getNumTuples page).toNat
    = ((slotIds (getPageCapacity page)).filter (isLive page)).length

/-- An allocation finds nothing exactly when there is no room, and then leaves the page alone. -/
def AllocatesExactly (page : FullPage) : PageOp → Prop
  | .allocateSlot size =>
      ((step page (.allocateSlot size)).1 = .slot none ↔ freeSpace page < 5 + size.toNat) ∧
        ((step page (.allocateSlot size)).1 = .slot none →
          (step page (.allocateSlot size)).2 = page)
  | .allocateSlotOrReuseSlot size =>
      ((step page (.allocateSlotOrReuseSlot size)).1 = .slot none ↔
        freeSpace page < 5 + size.toNat ∧ ∀ slotId recorded,
          isSlotDeleted page slotId = .ok true → getSlotSize page slotId = .ok recorded →
            recorded.toNat < size.toNat ∧ freeSpace page < size.toNat) ∧
        ((step page (.allocateSlotOrReuseSlot size)).1 = .slot none →
          (step page (.allocateSlotOrReuseSlot size)).2 = page)
  | _ => True

variable {page page' : FullPage} {count top : Nat} {slots : SlotMap}

/-! ### Live slots -/

theorem isLive_iff (wf : (directory page).Wf count top) {slotId : SlotId} :
    isLive page slotId = true ↔ slotId.toNat ∈ (directory page).liveSlots count := by
  rw [Directory.mem_liveSlots, isLive, beq_iff_eq]
  by_cases below : slotId.toNat < count
  · rw [isSlotDeleted_eq wf.hasSlots below, Except.ok.injEq]
    exact (and_iff_right below).symm
  · refine iff_of_false (fun same => ?_) fun both => below both.1
    rw [isSlotDeleted, checkSlot_outOfRange wf.hasSlots (Nat.not_lt.mp below)] at same
    cases same

/-- The page is well formed and shows these records. -/
structure Holds (page : FullPage) (slots : SlotMap) (count top : Nat) : Prop where
  wf : (directory page).Wf count top
  live : ∀ slotId, (slots slotId).isSome ↔ slotId.toNat ∈ (directory page).liveSlots count
  records : ∀ slotId bytes, slots slotId = some bytes → record page slotId.toNat = bytes

namespace Holds

theorem isSome (holds : Holds page slots count top) {slotId : SlotId}
    (live : isLive page slotId = true) : slots slotId = some (record page slotId.toNat) := by
  obtain ⟨bytes, found⟩ := Option.isSome_iff_exists.mp
    ((holds.live slotId).mpr ((isLive_iff holds.wf).mp live))
  rw [found, holds.records slotId bytes found]

theorem shows (holds : Holds page slots count top) : Shows page slots where
  live slotId := by
    rw [Bool.eq_iff_iff, isLive_iff holds.wf, holds.live slotId]
  records slotId bytes found := by
    have live := (holds.live slotId).mp (Option.isSome_iff_exists.mpr ⟨bytes, found⟩)
    rw [readRecord_live holds.wf.hasSlots live, holds.records slotId bytes found]

/-- A record was placed. -/
theorem placed (holds : Holds page slots count top) {slotId : SlotId} {size : Nat}
    (placed : Placed page page' count top slotId.toNat size) :
    slots slotId = none ∧ (record page' slotId.toNat).length = size ∧
      Holds page' (Function.update slots slotId (some (record page' slotId.toNat)))
        (max count (slotId.toNat + 1)) top := by
  have absent : slots slotId = none := by
    rw [← Option.not_isSome_iff_eq_none, holds.live]
    exact placed.notLive
  refine ⟨absent, (length_record _ _).trans placed.size, placed.wf, fun other => ?_,
    fun other bytes found => ?_⟩
  · rw [placed.liveSlots, Finset.mem_insert]
    by_cases same : other = slotId
    · rw [same, Function.update_self]
      exact iff_of_true rfl (Or.inl rfl)
    · rw [Function.update_of_ne same, holds.live]
      exact (or_iff_right fun equal => same (UInt16.toNat.inj equal)).symm
  · by_cases same : other = slotId
    · rw [same, Function.update_self] at found
      rw [same]
      exact Option.some.inj found
    · rw [Function.update_of_ne same] at found
      have live := (holds.live other).mp (Option.isSome_iff_exists.mpr ⟨bytes, found⟩)
      rw [placed.record holds.wf live, holds.records other bytes found]

/-- A client wrote inside the slice of a live slot. -/
theorem wrote (holds : Holds page slots count top) {slotId : SlotId} {position : Nat}
    {bytes : List UInt8} (live : slotId.toNat ∈ (directory page).liveSlots count)
    (wrote : Wrote page page' count top slotId.toNat position bytes) :
    Holds page' (Function.update slots slotId
      (some (overwrite (record page slotId.toNat) position bytes))) count top := by
  have sameLive : (directory page').liveSlots count = (directory page).liveSlots count :=
    Directory.liveSlots_congr wrote.same.slot
  refine ⟨wrote.keeps_wf holds.wf, fun other => ?_, fun other found isFound => ?_⟩
  · rw [sameLive]
    by_cases same : other = slotId
    · rw [same, Function.update_self]
      exact iff_of_true rfl live
    · rw [Function.update_of_ne same]
      exact holds.live other
  · by_cases same : other = slotId
    · rw [same, Function.update_self] at isFound
      rw [same, wrote.written]
      exact Option.some.inj isFound
    · rw [Function.update_of_ne same] at isFound
      have otherLive := (holds.live other).mp (Option.isSome_iff_exists.mpr ⟨found, isFound⟩)
      rw [wrote.others _ otherLive fun equal => same (UInt16.toNat.inj equal),
        holds.records other found isFound]

/-- A live slot was deleted. -/
theorem deleted (holds : Holds page slots count top) {slotId : SlotId}
    (live : slotId.toNat ∈ (directory page).liveSlots count)
    (edits : Edits page page' ((directory page).delete slotId.toNat) (entryAt count)) :
    Holds page' (Function.update slots slotId none) count top := by
  refine ⟨edits.decoded ▸ holds.wf.delete live, fun other => ?_, fun other bytes found => ?_⟩
  · rw [edits.decoded, Directory.liveSlots_delete, Finset.mem_erase]
    by_cases same : other = slotId
    · rw [same, Function.update_self]
      exact iff_of_false nofun fun both => both.1 rfl
    · rw [Function.update_of_ne same, holds.live]
      exact (and_iff_right fun equal => same (UInt16.toNat.inj equal)).symm
  · by_cases same : other = slotId
    · rw [same, Function.update_self] at found
      cases found
    · rw [Function.update_of_ne same] at found
      have otherLive := (holds.live other).mp (Option.isSome_iff_exists.mpr ⟨bytes, found⟩)
      rw [← holds.records other bytes found]
      refine record_agree holds.wf otherLive ?_ edits.agree holds.wf.order
      exact (congrFun (congrArg Directory.slot edits.decoded) _).trans
        (Function.update_of_ne (fun equal => same (UInt16.toNat.inj equal)) _ _)

/-- Only the bytes below `top` matter. -/
theorem agree (holds : Holds page slots count top) (agree : Agree page page' 0 top) :
    Holds page' slots count top := by
  have order := holds.wf.order.trans holds.wf.below
  have same : SameDirectory page page' count :=
    sameDirectory_of_agree fun place above below => agree place above (below.trans_le order)
  have sameLive : (directory page').liveSlots count = (directory page).liveSlots count :=
    Directory.liveSlots_congr same.slot
  refine ⟨holds.wf.congr same.numTuples same.freeStart same.freeEnd same.slot, fun slotId => ?_,
    fun slotId bytes found => ?_⟩
  · rw [sameLive]
    exact holds.live slotId
  · have live := (holds.live slotId).mp (Option.isSome_iff_exists.mpr ⟨bytes, found⟩)
    have sameExtent : (directory page').extent slotId.toNat = (directory page).extent slotId.toNat :=
      congrArg Slot.extent (same.slot _ (Directory.mem_liveSlots.mp live).1)
    rw [record, sameExtent, ← holds.records slotId bytes found]
    exact Extent.read_agree ((extent_inside holds.wf live).mono (Nat.zero_le _) (Nat.le_refl top))
      agree

/-- The page was compacted. -/
theorem vacuumed (holds : Holds page slots count top) (done : Vacuumed page page' count top) :
    Holds page' slots count top where
  wf := done.wf
  live slotId := by
    rw [done.liveSlots]
    exact holds.live slotId
  records slotId bytes found := by
    have live := (holds.live slotId).mp (Option.isSome_iff_exists.mpr ⟨bytes, found⟩)
    rw [done.records _ live, holds.records slotId bytes found]

end Holds

/-- **One call does to the records what it does to the map.** -/
theorem refine_step (holds : Holds page slots count pageSize) (op : PageOp)
    (allowed : Allowed page op) : ∃ slots' count', SlotMapStep slots op (step page op).1 slots' ∧
      Holds (step page op).2 slots' count' pageSize := by
  cases op with
  | allocateSlot size =>
      rcases allocateSlot_spec holds.wf size (entry_fits allowed) with
        ⟨_, run⟩ | ⟨_, slotId, page', run, _, placed⟩
      · rw [step, call, run]
        exact ⟨slots, count, .full, holds⟩
      · obtain ⟨absent, length, holds'⟩ := holds.placed placed
        rw [step, call, run]
        exact ⟨_, _, .allocated absent length, holds'⟩
  | allocateSlotOrReuseSlot size =>
      rcases allocateSlotOrReuseSlot_spec holds.wf size (entry_fits allowed) with
        ⟨_, run⟩ | ⟨_, slotId, page', run, placed, _⟩
      · rw [step, call, run]
        exact ⟨slots, count, .noReuse, holds⟩
      · obtain ⟨absent, length, holds'⟩ := holds.placed placed
        rw [step, call, run]
        exact ⟨_, _, .reused absent length, holds'⟩
  | readRecord slotId =>
      have live := (isLive_iff holds.wf).mp allowed
      rw [step, call, readRecord_live holds.wf.hasSlots live]
      exact ⟨slots, count, .read (holds.isSome allowed), holds⟩
  | write slotId position bytes =>
      obtain ⟨isLive, slice, isSlice, fits⟩ := allowed
      have live := (isLive_iff holds.wf).mp isLive
      have found := holds.isSome isLive
      have wrote := writeSlice_spec holds.wf live isSlice fits
      have length : position + bytes.length ≤ (record page slotId.toNat).length := by
        rw [length_record]
        have isExtent := (recordSlice_live holds.wf.hasSlots live).symm.trans isSlice
        cases isExtent
        exact fits
      rw [step, call, isSlice]
      exact ⟨_, count, .wrote found length, holds.wrote live wrote⟩
  | deleteSlot slotId =>
      have live := (isLive_iff holds.wf).mp allowed
      obtain ⟨page', run, edits⟩ := deleteSlot_spec holds.wf live
      rw [step, call, run]
      exact ⟨_, count, .deleted (holds.isSome allowed), holds.deleted live edits⟩
  | vacuumPage rank =>
      obtain ⟨page', run, done⟩ := vacuumPage_spec holds.wf rank
      rw [step, call, run]
      exact ⟨slots, count, .vacuumed, holds.vacuumed done⟩

/-! ### The layout, as the program sees it -/

section Layout

variable (wf : (directory page).Wf count top)
include wf

/-- A slot with a slice is live, and its slice is its extent. -/
theorem writeRecord_ok {slotId : SlotId} {slice : Slice} (isSlice : writeRecord page slotId = .ok slice) :
    slotId.toNat ∈ (directory page).liveSlots count ∧
      slice = ⟨(slotAt page slotId.toNat).offset, (slotAt page slotId.toNat).size⟩ := by
  have live : slotId.toNat ∈ (directory page).liveSlots count := by
    by_cases below : slotId.toNat < count
    · rw [Directory.mem_liveSlots]
      refine ⟨below, ?_⟩
      by_contra deleted
      have deleted : (slotAt page slotId.toNat).deleted = true := Bool.eq_true_of_not_eq_false deleted
      rw [writeRecord, recordSlice, checkSlot_ok wf.hasSlots below, ok_bind,
        isSlotDeleted_eq wf.hasSlots below, ok_bind, deleted] at isSlice
      cases isSlice
    · rw [writeRecord, recordSlice, checkSlot_outOfRange wf.hasSlots (Nat.not_lt.mp below)] at isSlice
      cases isSlice
  exact ⟨live, Except.ok.inj (isSlice.symm.trans (recordSlice_live wf.hasSlots live))⟩

/-- A position in a slice is a position in the extent. -/
theorem covers_extent {slotId : SlotId} {slice : Slice} {position : Nat}
    (isSlice : writeRecord page slotId = .ok slice) (covers : slice.Covers position) :
    ((directory page).extent slotId.toNat).start ≤ position ∧
      position < ((directory page).extent slotId.toNat).start
        + ((directory page).extent slotId.toNat).size := by
  obtain ⟨_, rfl⟩ := writeRecord_ok wf isSlice
  exact covers

theorem tuples_eq : (getNumTuples page).toNat
    = ((slotIds (getPageCapacity page)).filter (isLive page)).length := by
  have capacity := getPageCapacity_toNat wf.hasSlots
  have distinct : (((slotIds (getPageCapacity page)).filter (isLive page)).map UInt16.toNat).Nodup :=
    ((slotIds_nodup _).filter _).map fun _ _ => UInt16.toNat.inj
  have same : (((slotIds (getPageCapacity page)).filter (isLive page)).map UInt16.toNat).toFinset
      = (directory page).liveSlots count := by
    ext index
    rw [List.mem_toFinset, List.mem_map]
    constructor
    · rintro ⟨slotId, member, rfl⟩
      exact (isLive_iff wf).mp (List.mem_filter.mp member).2
    · intro live
      have below := (Directory.mem_liveSlots.mp live).1
      have small := wf.count_lt
      have number : (UInt16.ofNat index).toNat = index := by
        rw [UInt16.toNat_ofNat']
        omega
      refine ⟨UInt16.ofNat index, List.mem_filter.mpr ⟨mem_slotIds.mpr ?_, ?_⟩, number⟩
      · rw [capacity, number]
        exact below
      · rw [isLive_iff wf, number]
        exact live
  rw [← List.length_map UInt16.toNat, ← List.toFinset_card_of_nodup distinct, same]
  exact wf.tuples

theorem inOrder : InOrder page where
  start := by
    rw [getPageCapacity_toNat wf.hasSlots]
    exact wf.start.symm
  order := wf.start.trans_le wf.order
  inside slotId slice position isSlice covers := by
    have live := (writeRecord_ok wf isSlice).1
    obtain ⟨above, below⟩ := covers_extent wf isSlice covers
    have inside := wf.inside
    have ends : (getEndFreeSpace page).toNat = (directory page).freeEnd.toNat := rfl
    rcases extent_inside wf live with empty | ⟨lower, upper⟩
    · omega
    · exact ⟨by omega, by omega⟩
  apart slotId slotId' slice slice' position isSlice isSlice' covers covers' := by
    by_contra different
    have live := Directory.mem_liveSlots.mp (writeRecord_ok wf isSlice).1
    have live' := Directory.mem_liveSlots.mp (writeRecord_ok wf isSlice').1
    have inside := covers_extent wf isSlice covers
    have inside' := covers_extent wf isSlice' covers'
    have apart := wf.packed.apart _ _ live.1 live'.1 fun equal => different (UInt16.toNat.inj equal)
    unfold Extent.Apart at apart
    omega
  tuples := tuples_eq wf

theorem allocatesExactly (op : PageOp) (allowed : Allowed page op) : AllocatesExactly page op := by
  cases op with
  | allocateSlot size =>
      rcases allocateSlot_spec wf size (entry_fits allowed) with
        ⟨full, run⟩ | ⟨room, slotId, page', run, _⟩
      · rw [AllocatesExactly, step, call, run]
        exact ⟨iff_of_true rfl full, fun _ => rfl⟩
      · rw [AllocatesExactly, step, call, run]
        exact ⟨iff_of_false nofun (by omega), nofun⟩
  | allocateSlotOrReuseSlot size =>
      have tooSmall : (∀ slotId recorded, isSlotDeleted page slotId = .ok true →
          getSlotSize page slotId = .ok recorded →
            recorded.toNat < size.toNat ∧ freeSpace page < size.toNat) ↔
          ∀ slotId, slotId.toNat < count → TooSmall page slotId size := by
        constructor
        · intro all slotId below deleted
          refine all slotId _ ?_ (getSlotSize_eq wf.hasSlots below)
          rw [isSlotDeleted_eq wf.hasSlots below, deleted]
        · intro all slotId recorded deleted size
          by_cases below : slotId.toNat < count
          · rw [isSlotDeleted_eq wf.hasSlots below, Except.ok.injEq] at deleted
            rw [getSlotSize_eq wf.hasSlots below, Except.ok.injEq] at size
            rw [← size]
            exact all slotId below deleted
          · rw [isSlotDeleted, checkSlot_outOfRange wf.hasSlots (Nat.not_lt.mp below)] at deleted
            cases deleted
      rw [AllocatesExactly, tooSmall]
      rcases allocateSlotOrReuseSlot_spec wf size (entry_fits allowed) with
        ⟨full, run⟩ | ⟨room, slotId, page', run, _⟩
      · rw [step, call, run]
        exact ⟨iff_of_true rfl full, fun _ => rfl⟩
      · rw [step, call, run]
        exact ⟨iff_of_false nofun room, nofun⟩
  | _ => trivial

end Layout

/-! ### Runs -/

theorem directory_initPage (page : FullPage) (pageType : PageType) :
    directory (initPage page pageType)
      = { directory page with numTuples := 0, freeStart := 15, freeEnd := UInt16.ofNat pageSize } := by
  rw [initPage, directory_setEndFreeSpace, directory_setStartFreeSpace, directory_setNumTuples,
    directory_setPageType]
  rfl

/-- A page that was just initialised has no slots. -/
theorem initPage_wf (page : FullPage) (pageType : PageType) :
    (directory (initPage page pageType)).Wf 0 pageSize := by
  rw [directory_initPage]
  exact Directory.wf_empty rfl rfl rfl (by decide) (Nat.le_refl pageSize)

/-- A page with no slots shows no records. -/
theorem holds_empty (wf : (directory page).Wf 0 top) : Holds page (fun _ => none) 0 top := by
  refine ⟨wf, fun slotId => ?_, nofun⟩
  rw [Directory.mem_liveSlots]
  exact iff_of_false nofun fun live => Nat.not_lt_zero _ live.1

/-- Every step of a run that is allowed keeps the layout of the page. -/
theorem holds_step (page : FullPage) (op : PageOp)
    (held : ∃ slots count, Holds page slots count pageSize) (allowed : Allowed page op) :
    ∃ slots count, Holds (pageMachine.next page op) slots count pageSize := by
  obtain ⟨slots, count, holds⟩ := held
  obtain ⟨slots', count', _, holds'⟩ := refine_step holds op allowed
  exact ⟨slots', count', holds'⟩

/-- The page after a run is laid out well. -/
theorem wf_of_run (page : FullPage) (pageType : PageType) (ops : List PageOp)
    (allowed : pageMachine.Along Allowed (initPage page pageType) ops) :
    ∃ count, (directory (pageMachine.exec (initPage page pageType) ops)).Wf count pageSize := by
  have start : ∃ slots count, Holds (initPage page pageType) slots count pageSize :=
    ⟨_, 0, holds_empty (initPage_wf page pageType)⟩
  obtain ⟨_, count, holds⟩ :=
    (Machine.always_of_step holds_step start allowed).last
  exact ⟨count, holds.wf⟩

/-- **The slotted page refines a map from slots to bytes.** -/
theorem slottedPage_refines (page : FullPage) (pageType : PageType) (ops : List PageOp)
    (allowed : pageMachine.Along Allowed (initPage page pageType) ops) :
    (∃ slots, Machine.SpecRun SlotMapStep (fun _ => none)
        (pageMachine.trace (initPage page pageType) ops) slots ∧
      Shows (pageMachine.exec (initPage page pageType) ops) slots) ∧
    pageMachine.Always InOrder (initPage page pageType) ops ∧
    pageMachine.Along AllocatesExactly (initPage page pageType) ops := by
  have start : ∃ count, Holds (initPage page pageType) (fun _ => none) count pageSize :=
    ⟨0, holds_empty (initPage_wf page pageType)⟩
  have step : ∀ (page : FullPage) (slots : SlotMap) (op : PageOp),
      (∃ count, Holds page slots count pageSize) → Allowed page op →
      ∃ slots', SlotMapStep slots op (step page op).1 slots' ∧
        ∃ count, Holds (Page.step page op).2 slots' count pageSize := by
    rintro page slots op ⟨count, holds⟩ allowed
    obtain ⟨slots', count', transition, holds'⟩ := refine_step holds op allowed
    exact ⟨slots', transition, count', holds'⟩
  refine ⟨?_, ?_, ?_⟩
  · obtain ⟨slots, run, count, holds⟩ := Machine.simulation step start allowed
    exact ⟨slots, run, holds.shows⟩
  · refine (Machine.always_of_step holds_step ⟨_, start⟩ allowed).imp ?_
    rintro page ⟨slots, count, holds⟩
    exact inOrder holds.wf
  · refine Machine.along_of_step holds_step ?_ ⟨_, start⟩ allowed
    rintro page op ⟨slots, count, holds⟩ allowed
    exact allocatesExactly holds.wf op allowed

/-- Two records are written, the first deleted, the page compacted, and the slot taken again. -/
def deleteAndVacuum : List PageOp :=
  [.allocateSlot 2, .write 0 0 [7, 8], .allocateSlot 3, .write 1 1 [9], .deleteSlot 0,
    .vacuumPage fun _ => 0, .allocateSlotOrReuseSlot 4, .readRecord 1]

example : pageMachine.answer (pageMachine.exec (initPage (fun _ => 0) .data) deleteAndVacuum)
    (.readRecord 1) = .record [0, 9, 0] := by decide +kernel

theorem deleteAndVacuum_refines :
    (∃ slots, Machine.SpecRun SlotMapStep (fun _ => none)
        (pageMachine.trace (initPage (fun _ => 0) .data) deleteAndVacuum) slots ∧
      Shows (pageMachine.exec (initPage (fun _ => 0) .data) deleteAndVacuum) slots) ∧
    pageMachine.Always InOrder (initPage (fun _ => 0) .data) deleteAndVacuum ∧
    pageMachine.Along AllocatesExactly (initPage (fun _ => 0) .data) deleteAndVacuum :=
  slottedPage_refines (fun _ => 0) .data deleteAndVacuum (by decide +kernel)

/-- Records of three bytes, none, four and one, and a slot that was deleted. -/
def mixedRecords : List PageOp :=
  [.allocateSlot 3, .write 0 0 [5, 1, 1], .allocateSlot 2, .write 1 0 [9, 9], .allocateSlot 0,
    .allocateSlot 4, .write 3 0 [2, 7, 7, 7], .allocateSlot 1, .write 4 0 [2], .deleteSlot 1]

def mixedPage : FullPage := pageMachine.exec (initPage (fun _ => 0) .data) mixedRecords

theorem mixedPage_wf : (directory mixedPage).Wf 5 pageSize := by
  obtain ⟨count, wf⟩ := wf_of_run (fun _ => 0) .data mixedRecords (by decide +kernel)
  have capacity : getPageCapacity mixedPage = 5 := by decide +kernel
  have same := getPageCapacity_toNat wf.hasSlots
  rw [← mixedPage, capacity] at same
  rw [mixedPage, show 5 = count from same]
  exact wf

theorem mixedPage_records : (directory mixedPage).liveSlots 5 = {0, 2, 3, 4} ∧
    [0, 2, 3, 4].map (record mixedPage) = [[5, 1, 1], [], [2, 7, 7, 7], [2]] := by
  decide +kernel

end Page

end Yadb
