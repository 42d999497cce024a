/-
**The links of a heap page.**

The last eight bytes of a heap page hold its links. `heap_page::InitPage` keeps them out of the free
space by lowering its end; the functions of the slotted page know nothing of them.

* `LinksKept`: the links are the ids last set, no record reaches into them, and setting them changes
  no record.
* `Linked`: the layout under which this holds: the records end below the links, or every slot is
  empty. `Linked.kept` is the first, `pageStep_linked` what one call on the slots does to it.
* `vacuumPage_agree`: a compaction of empty records moves no byte; any other starts from the end of
  the page, over the links.
* `heapLinks_kept_iff`: the links and the records stay apart exactly through the runs that keep away
  from this.
-/

import Yadb.Storage.Heap.HeapPage

namespace Yadb

open Foundation

/-- The calls on a heap page: those on its slots, and the setters of its links. -/
inductive HeapOp
  | slots (op : PageOp)
  | setNextPage (pageId : PageId)
  | setPrevPage (pageId : PageId)

namespace HeapPage

def step (page : FullPage) : HeapOp → PageAnswer × FullPage
  | .slots op => Page.step page op
  | .setNextPage pageId => (.done, setNextPage page pageId)
  | .setPrevPage pageId => (.done, setPrevPage page pageId)

/-- The page ids last set. -/
structure Links where
  next : PageId
  prev : PageId

def Links.set (links : Links) (op : HeapOp) (_ : PageAnswer) : Links :=
  match op with
  | .slots _ => links
  | .setNextPage pageId => { links with next := pageId }
  | .setPrevPage pageId => { links with prev := pageId }

/-- The links that `heap_page::InitPage` sets. -/
def Links.fresh : Links := ⟨nullPageId, nullPageId⟩

end HeapPage

/-- A heap page, with the page ids last set beside it. -/
def heapMachine : Machine (FullPage × HeapPage.Links) HeapOp PageAnswer :=
  Machine.withReplay ⟨HeapPage.step⟩ HeapPage.Links.set

namespace HeapPage

/-- The links are those last set, no live record covers a byte of them, and setting one changes no
record. -/
structure LinksKept (state : FullPage × Links) : Prop where
  next : getNextPage state.1 = state.2.next
  prev : getPrevPage state.1 = state.2.prev
  clear : ∀ slotId slice position, Page.writeRecord state.1 slotId = .ok slice →
    slice.Covers position → position < recordsEnd
  settingNext : ∀ pageId slotId, Page.readRecord (setNextPage state.1 pageId) slotId
    = Page.readRecord state.1 slotId
  settingPrev : ∀ pageId slotId, Page.readRecord (setPrevPage state.1 pageId) slotId
    = Page.readRecord state.1 slotId

/-- Clients ask for records that can be in memory, write inside the span of a live slot and delete
live slots. -/
def Asked (state : FullPage × Links) : HeapOp → Prop
  | .slots (.allocateSlot size) | .slots (.allocateSlotOrReuseSlot size) => 5 + size.toNat < 2 ^ 64
  | .slots (.write slotId position bytes) =>
      ∃ slice, Page.writeRecord state.1 slotId = .ok slice ∧
        position + bytes.length ≤ slice.size.toNat
  | .slots (.deleteSlot slotId) => Page.isLive state.1 slotId = true
  | _ => True

/-- The free space ends below the links, or the record is empty and its entry ends below them. -/
def TakesBelow (page : FullPage) (size : UInt64) : Prop :=
  (Page.getEndFreeSpace page).toNat ≤ recordsEnd ∨
    size.toNat = 0 ∧ (Page.getStartFreeSpace page).toNat + 5 ≤ recordsEnd

/-- No deleted slot can be taken again. -/
def AllTooSmall (page : FullPage) (size : UInt64) : Prop :=
  ∀ slotId < Page.getPageCapacity page, Page.TooSmall page slotId size

/-- An allocation takes its room from below the links, takes a slot again for an empty record, or
finds no room, and a compaction has no live bytes to move. -/
def KeepsClear (state : FullPage × Links) : HeapOp → Prop
  | .slots (.allocateSlot size) =>
      TakesBelow state.1 size ∨ Page.freeSpace state.1 < 5 + size.toNat
  | .slots (.allocateSlotOrReuseSlot size) => TakesBelow state.1 size ∨
      (AllTooSmall state.1 size ∧ Page.freeSpace state.1 < 5 + size.toNat) ∨
      (¬ AllTooSmall state.1 size ∧ size.toNat = 0)
  | .slots (.vacuumPage _) => ∀ slotId < Page.getPageCapacity state.1,
      ∀ slice, Page.writeRecord state.1 slotId = .ok slice → slice.size = 0
  | _ => True

instance (state : FullPage × Links) : DecidablePred (Asked state)
  | .slots (.allocateSlot _) | .slots (.allocateSlotOrReuseSlot _) =>
      inferInstanceAs (Decidable (_ < _))
  | .slots (.write _ position bytes) => Page.decidableFits _ (position + bytes.length)
  | .slots (.deleteSlot _) => inferInstanceAs (Decidable (_ = true))
  | .slots (.readRecord _) | .slots (.vacuumPage _) | .setNextPage _ | .setPrevPage _ =>
      .isTrue trivial

/-- A condition on the slots below a capacity can be computed. -/
instance decidableSlots (capacity : UInt16) (P : SlotId → Prop) [DecidablePred P] :
    Decidable (∀ slotId < capacity, P slotId) :=
  @decidable_of_iff _ (∀ slotId ∈ Page.slotIds capacity, P slotId)
    (forall_congr' fun _ => by rw [Page.mem_slotIds, UInt16.lt_iff_toNat_lt])
    (List.decidableBAll P (Page.slotIds capacity))

instance decidableEmpty (result : Except PageAssertion Page.Slice) :
    Decidable (∀ slice, result = .ok slice → slice.size = 0) :=
  match result with
  | .error _ => .isTrue nofun
  | .ok slice => decidable_of_iff (slice.size = 0)
      ⟨fun empty _ same => Except.ok.inj same ▸ empty, fun all => all slice rfl⟩

instance (page : FullPage) (size : UInt64) : Decidable (TakesBelow page size) :=
  inferInstanceAs (Decidable (_ ∨ _))

instance (page : FullPage) (size : UInt64) : Decidable (AllTooSmall page size) :=
  decidableSlots _ _

instance (state : FullPage × Links) : DecidablePred (KeepsClear state)
  | .slots (.allocateSlot _) | .slots (.allocateSlotOrReuseSlot _) =>
      inferInstanceAs (Decidable (_ ∨ _))
  | .slots (.vacuumPage _) => decidableSlots _ _
  | .slots (.write _ _ _) | .slots (.deleteSlot _) | .slots (.readRecord _) | .setNextPage _
  | .setPrevPage _ => .isTrue trivial

variable {page page' : FullPage} {count top : Nat}

/-! ### The layout -/

/-- The slots of a page whose records stay out of the links: they end below them, or all of them are
empty. -/
structure Linked (page : FullPage) (count top : Nat) : Prop where
  wf : (Page.directory page).Wf count top
  entries : Page.entryAt count ≤ recordsEnd
  below : top = recordsEnd ∨
    top = pageSize ∧ ∀ index, index < count → (Page.slotAt page index).size = 0

theorem linked_of_wf (wf : (Page.directory page).Wf count recordsEnd) : Linked page count recordsEnd :=
  ⟨wf, wf.order.trans wf.below, Or.inl rfl⟩

namespace Linked

variable (linked : Linked page count top)
include linked

/-- A page of empty slots whose free space ends below the links. -/
theorem lowered (ends : (Page.getEndFreeSpace page).toNat ≤ recordsEnd) :
    (Page.directory page).Wf count recordsEnd := by
  rcases linked.below with rfl | ⟨_, empty⟩
  · exact linked.wf
  · have sizes : ∀ index, index < count → ((Page.directory page).extent index).size = 0 :=
      fun index inside => congrArg UInt16.toNat (empty index inside)
    exact ⟨linked.wf.start, linked.wf.order, ends, by decide, linked.wf.tuples,
      fun index inside => Or.inl (sizes index inside),
      fun index _ inside _ _ => Or.inl (sizes index inside)⟩

/-- A record lies between the entries and the links. -/
theorem inside {index : Nat} (live : index ∈ (Page.directory page).liveSlots count) :
    ((Page.directory page).extent index).Inside (Page.entryAt count) recordsEnd := by
  rcases linked.below with rfl | ⟨_, empty⟩
  · exact (Page.extent_inside linked.wf live).mono linked.wf.order (Nat.le_refl _)
  · exact Or.inl (congrArg UInt16.toNat (empty index (Page.Directory.mem_liveSlots.mp live).1))

/-- What agrees below the links has the same layout. -/
theorem agree (agree : Agree page page' 0 recordsEnd) : Linked page' count top := by
  have same : Page.SameDirectory page page' count := Page.sameDirectory_of_agree
    fun position above below => agree position above (below.trans_le linked.entries)
  refine ⟨linked.wf.congr same.numTuples same.freeStart same.freeEnd same.slot, linked.entries, ?_⟩
  refine linked.below.imp_right fun ⟨isTop, empty⟩ => ⟨isTop, fun index inside => ?_⟩
  rw [same.slot index inside]
  exact empty index inside

/-- What agrees below the links has the same records. -/
theorem readRecord_agree (agree : Agree page page' 0 recordsEnd) (slotId : SlotId) :
    Page.readRecord page' slotId = Page.readRecord page slotId := by
  have same : Page.SameDirectory page page' count := Page.sameDirectory_of_agree
    fun position above below => agree position above (below.trans_le linked.entries)
  have slots := linked.wf.hasSlots
  have slots' := (linked.agree agree).wf.hasSlots
  have capacity : Page.getPageCapacity page' = Page.getPageCapacity page :=
    congrArg Page.entriesBefore same.freeStart
  by_cases inside : slotId.toNat < count
  · cases deleted : (Page.slotAt page slotId.toNat).deleted with
    | true =>
        have deleted' : (Page.slotAt page' slotId.toNat).deleted = true := by
          rw [same.slot _ inside, deleted]
        rw [Page.readRecord, Page.recordSlice, Page.checkSlot_ok slots' inside, ok_bind,
          Page.isSlotDeleted_eq slots' inside, ok_bind, deleted', Page.readRecord, Page.recordSlice,
          Page.checkSlot_ok slots inside, ok_bind, Page.isSlotDeleted_eq slots inside, ok_bind,
          deleted]
        rfl
    | false =>
        have live : slotId.toNat ∈ (Page.directory page).liveSlots count :=
          Page.Directory.mem_liveSlots.mpr ⟨inside, deleted⟩
        have live' : slotId.toNat ∈ (Page.directory page').liveSlots count :=
          Page.Directory.mem_liveSlots.mpr
            ⟨inside, (congrArg Page.Slot.deleted (same.slot _ inside)).trans deleted⟩
        have extent : (Page.directory page').extent slotId.toNat
            = (Page.directory page).extent slotId.toNat :=
          congrArg Page.Slot.extent (same.slot _ inside)
        rw [Page.readRecord_live slots' live', Page.readRecord_live slots live, Page.record, extent]
        exact congrArg Except.ok (Extent.read_agree ((linked.inside live).mono (Nat.zero_le _)
          (Nat.le_refl _)) agree)
  · have outside := Nat.not_lt.mp inside
    rw [Page.readRecord, Page.recordSlice, Page.checkSlot_outOfRange slots' outside, Page.readRecord,
      Page.recordSlice, Page.checkSlot_outOfRange slots outside, capacity]
    rfl

omit linked in
/-- A slot that has a slice is live, and the slice is its extent. -/
theorem slice_eq (wf : (Page.directory page).Wf count top) {slotId : SlotId} {slice : Page.Slice}
    (isSlice : Page.writeRecord page slotId = .ok slice) :
    slotId.toNat ∈ (Page.directory page).liveSlots count ∧
      slice = ⟨(Page.slotAt page slotId.toNat).offset, (Page.slotAt page slotId.toNat).size⟩ := by
  have inside : slotId.toNat < count := by
    by_contra outside
    rw [Page.writeRecord, Page.recordSlice,
      Page.checkSlot_outOfRange wf.hasSlots (Nat.not_lt.mp outside)] at isSlice
    cases isSlice
  cases deleted : (Page.slotAt page slotId.toNat).deleted with
  | true =>
      rw [Page.writeRecord, Page.recordSlice, Page.checkSlot_ok wf.hasSlots inside, ok_bind,
        Page.isSlotDeleted_eq wf.hasSlots inside, ok_bind, deleted] at isSlice
      cases isSlice
  | false =>
      have live : slotId.toNat ∈ (Page.directory page).liveSlots count :=
        Page.Directory.mem_liveSlots.mpr ⟨inside, deleted⟩
      have isExtent := (Page.recordSlice_live wf.hasSlots live).symm.trans isSlice
      exact ⟨live, (Except.ok.inj isExtent).symm⟩

/-- **The layout keeps the records out of the links.** -/
theorem kept {links : Links} (next : getNextPage page = links.next)
    (prev : getPrevPage page = links.prev) : LinksKept (page, links) where
  next := next
  prev := prev
  clear slotId slice position isSlice covers := by
    obtain ⟨live, rfl⟩ := slice_eq linked.wf isSlice
    obtain ⟨above, below⟩ := covers
    have above : (Page.slotAt page slotId.toNat).offset.toNat ≤ position := above
    have below : position < (Page.slotAt page slotId.toNat).offset.toNat
      + (Page.slotAt page slotId.toNat).size.toNat := below
    rcases linked.inside live with empty | ⟨_, upper⟩
    · have empty : (Page.slotAt page slotId.toNat).size.toNat = 0 := empty
      omega
    · have upper : (Page.slotAt page slotId.toNat).offset.toNat
        + (Page.slotAt page slotId.toNat).size.toNat ≤ recordsEnd := upper
      omega
  settingNext pageId := linked.readRecord_agree (agree_setNextPage page pageId)
  settingPrev pageId := linked.readRecord_agree (agree_setPrevPage page pageId)

end Linked

theorem getPrevPage_setNextPage (page : FullPage) (pageId : PageId) :
    getPrevPage (setNextPage page pageId) = getPrevPage page :=
  getU32_setU32_apart page (by decide) pageId

theorem getPrevPage_agree (agree : Agree page page' recordsEnd pageSize) :
    getPrevPage page' = getPrevPage page := by
  rw [getPrevPage, getU32, readBytes_agree agree (by decide) (by decide), getPrevPage, getU32]

/-! ### A compaction of empty records -/

/-- Moving nothing. -/
theorem moveBytes_zero (page : FullPage) (target source : Nat) :
    Agree page (moveBytes page target source 0) 0 pageSize :=
  fun position _ _ => byteAt_moveBytes_outside page (by omega)

/-- The second loop over empty records changes slot entries only. -/
theorem compactRecords_agree (slots : (Page.directory page).HasSlots count)
    (freespaceEnd : Offset) {queue : List Page.VacuumEntry}
    (below : ∀ entry ∈ queue, entry.slotId.toNat < count) (empty : ∀ entry ∈ queue, entry.size = 0) :
    ∃ page', Page.compactRecords page freespaceEnd queue = .ok (freespaceEnd, page') ∧
      Agree page page' (Page.entryAt count) pageSize := by
  induction queue generalizing page with
  | nil => exact ⟨page, rfl, fun _ _ _ => rfl⟩
  | cons entry rest ih =>
      have none := empty entry List.mem_cons_self
      have same : freespaceEnd - entry.size = freespaceEnd := by
        rw [none]
        exact UInt16.toNat.inj (UInt16.toNat_sub_of_le _ _ (UInt16.le_iff_toNat_le.mpr
          (Nat.zero_le _)))
      have zero : entry.size.toNat = 0 := congrArg UInt16.toNat none
      have moved := moveBytes_zero page freespaceEnd.toNat entry.offset.toNat
      have kept : Page.SameDirectory page _ count := Page.sameDirectory_of_agree
        fun position above under => moved position above (under.trans_le slots.inside)
      have movedSlots : (Page.directory (moveBytes page freespaceEnd.toNat entry.offset.toNat
          0)).HasSlots count := ⟨(congrArg UInt16.toNat kept.freeStart).trans slots.start, slots.inside⟩
      obtain ⟨written, run, edits⟩ := Page.setSlotOffset_edits movedSlots
        (below entry List.mem_cons_self) freespaceEnd
      obtain ⟨page', restRun, agree⟩ := ih (movedSlots.edits edits)
        (fun other member => below other (List.mem_cons_of_mem entry member))
        fun other member => empty other (List.mem_cons_of_mem entry member)
      refine ⟨page', ?_, fun position above inside => ?_⟩
      · rw [Page.compactRecords, same, zero, run, ok_bind, restRun]
      · rw [agree position above inside, edits.agree position above inside]
        exact moved position (Nat.zero_le _) inside

/-- **A compaction of empty records moves no byte.** -/
theorem vacuumPage_agree (wf : (Page.directory page).Wf count pageSize) (rank : SlotId → Nat)
    (empty : ∀ index ∈ (Page.directory page).liveSlots count, (Page.slotAt page index).size = 0) :
    ∃ page', Page.vacuumPage page rank = .ok page' ∧
      Agree page page' (Page.entryAt count) pageSize := by
  have capacity := Page.getPageCapacity_toNat wf.hasSlots
  obtain ⟨emptied, emptyRun, emptyEdits⟩ := Page.queueSlots_spec wf.hasSlots
    (Page.slotIds (Page.getPageCapacity page)) fun slotId member => by
      rwa [Page.mem_slotIds, capacity] at member
  have slots : (Page.directory emptied).HasSlots count := by
    rw [emptyEdits.decoded]
    exact ⟨wf.hasSlots.start, wf.hasSlots.inside⟩
  have queued : ∀ entry ∈ Page.vacuumQueue page rank, entry.slotId.toNat < count ∧ entry.size = 0 := by
    intro entry member
    obtain ⟨live, isEntry⟩ := (Page.mem_vacuumQueue wf.liveWf rank).mp member
    refine ⟨(Page.Directory.mem_liveSlots.mp live).1, ?_⟩
    rw [← isEntry]
    exact empty _ live
  obtain ⟨compacted, run, agree⟩ := compactRecords_agree slots (UInt16.ofNat pageSize)
    (fun entry member => (queued entry member).1) fun entry member => (queued entry member).2
  refine ⟨Page.setEndFreeSpace compacted (UInt16.ofNat pageSize), ?_, fun position above inside => ?_⟩
  · rw [Page.vacuumPage, emptyRun, ok_bind]
    simp only
    rw [show List.insertionSort (Page.popsBefore rank) _ = Page.vacuumQueue page rank from rfl, run,
      ok_bind]
    rfl
  · have header := (Page.edits_setEndFreeSpace compacted (UInt16.ofNat pageSize) count).agree
    rw [header position above inside, agree position above inside,
      emptyEdits.agree position above inside]

/-! ### One call on the slots -/

theorem wf_pageSize (wf : (Page.directory page).Wf count recordsEnd) :
    (Page.directory page).Wf count pageSize where
  start := wf.start
  order := wf.order
  below := wf.below.trans (by decide)
  inside := Nat.le_refl _
  tuples := wf.tuples
  packed := ⟨fun index inside => (wf.packed.inside index inside).mono (Nat.le_refl _) (by decide),
    wf.packed.apart⟩

/-- The slot ids can count the slots. -/
theorem toNat_slotId (wf : (Page.directory page).Wf count top) {index : Nat}
    (live : index ∈ (Page.directory page).liveSlots count) :
    (UInt16.ofNat index).toNat = index := by
  have small := wf.count_lt
  have inside := (Page.Directory.mem_liveSlots.mp live).1
  rw [UInt16.toNat_ofNat']
  omega

/-- The page is still laid out so, and its links are the same. -/
def StaysLinked (page page' : FullPage) : Prop :=
  (∃ count top, Linked page' count top) ∧ Agree page page' recordsEnd pageSize

/-- A record placed in room from below the links, or an empty one. -/
theorem Linked.placed (linked : Linked page count top) {size : UInt64} {index : Nat}
    (upTo : index ≤ count) (takes : TakesBelow page size ∨ size.toNat = 0 ∧ index < count)
    (place : ∀ top, (Page.directory page).Wf count top →
      Page.Placed page page' count top index size.toNat) : StaysLinked page page' := by
  have start := linked.wf.start
  have below := linked.entries
  rcases or_assoc.mp takes with ends | takes
  · have placed := place recordsEnd (linked.lowered ends)
    have after := linked_of_wf placed.wf
    exact ⟨⟨_, _, after⟩, fun position above inside =>
      placed.agree position (after.entries.trans above) inside⟩
  · have placed := place top linked.wf
    obtain ⟨empty, room⟩ : size.toNat = 0 ∧
        ((Page.getStartFreeSpace page).toNat + 5 ≤ recordsEnd ∨ index < count) :=
      takes.elim (fun both => ⟨both.1, Or.inl both.2⟩) fun both => ⟨both.1, Or.inr both.2⟩
    have entries : Page.entryAt (max count (index + 1)) ≤ recordsEnd := by
      have start : (Page.getStartFreeSpace page).toNat = Page.entryAt count := start
      unfold Page.entryAt at *
      omega
    refine ⟨⟨_, top, placed.wf, entries, ?_⟩, fun position above inside =>
      placed.agree position (entries.trans above) inside⟩
    refine linked.below.imp_right fun ⟨isTop, sizes⟩ => ⟨isTop, fun other inside => ?_⟩
    by_cases same : other = index
    · apply UInt16.toNat.inj
      rw [same, placed.size, empty]
      rfl
    · rw [placed.others other same]
      exact sizes other (by omega)

theorem stays (linked : Linked page count top) : StaysLinked page page :=
  ⟨⟨count, top, linked⟩, fun _ _ _ => rfl⟩

/-- The records end where the page does, or below. -/
theorem Linked.pageSized (linked : Linked page count top) :
    (Page.directory page).Wf count pageSize := by
  rcases linked.below with rfl | ⟨rfl, _⟩
  · exact wf_pageSize linked.wf
  · exact linked.wf

/-- **A compaction of empty records.** -/
theorem Linked.vacuumed (linked : Linked page count top) (rank : SlotId → Nat)
    (empty : ∀ index ∈ (Page.directory page).liveSlots count, (Page.slotAt page index).size = 0) :
    ∃ page', Page.vacuumPage page rank = .ok page' ∧ StaysLinked page page' := by
  have wf := linked.pageSized
  obtain ⟨page', run, done⟩ := Page.vacuumPage_spec wf rank
  obtain ⟨same, run', agree⟩ := vacuumPage_agree wf rank empty
  obtain rfl := Except.ok.inj (run.symm.trans run')
  refine ⟨page', run, ⟨count, pageSize, done.wf, linked.entries, Or.inr ⟨rfl, fun index inside => ?_⟩⟩,
    fun position above inside => agree position (linked.entries.trans above) inside⟩
  by_cases live : index ∈ (Page.directory page).liveSlots count
  · have lengths := congrArg List.length (done.records index live)
    rw [Page.length_record, Page.length_record, empty index live] at lengths
    exact UInt16.toNat.inj lengths
  · exact done.emptied index inside live

/-- Bytes are written into a live record. -/
theorem Linked.written (linked : Linked page count top) {slotId : SlotId} {slice : Page.Slice}
    {position : Nat} {bytes : List UInt8} (isSlice : Page.writeRecord page slotId = .ok slice)
    (fits : position + bytes.length ≤ slice.size.toNat) :
    StaysLinked page (slice.write page position bytes) := by
  obtain ⟨live, isExtent⟩ := slice_eq linked.wf isSlice
  have wrote := Page.writeSlice_spec linked.wf live isSlice fits
  rcases linked.below with rfl | ⟨_, sizes⟩
  · exact ⟨⟨_, _, linked_of_wf (wrote.keeps_wf linked.wf)⟩, wrote.agree⟩
  · -- nothing can be written into an empty record
    have zero : slice.size.toNat = 0 := by
      rw [isExtent]
      exact congrArg UInt16.toNat (sizes _ (Page.Directory.mem_liveSlots.mp live).1)
    have none : bytes = [] := List.length_eq_zero_iff.mp (by omega)
    subst none
    rw [Page.Slice.write, writeBytes_nil]
    exact stays linked

/-- A live record is deleted. -/
theorem Linked.deleted (linked : Linked page count top) {slotId : SlotId}
    (live : slotId.toNat ∈ (Page.directory page).liveSlots count) :
    ∃ page', Page.deleteSlot page slotId = .ok page' ∧ StaysLinked page page' := by
  obtain ⟨page', run, edits⟩ := Page.deleteSlot_spec linked.wf live
  refine ⟨page', run, ⟨count, top, edits.decoded ▸ linked.wf.delete live, linked.entries, ?_⟩,
    fun position above inside => edits.agree position (linked.entries.trans above) inside⟩
  refine linked.below.imp_right fun ⟨isTop, sizes⟩ => ⟨isTop, fun index inside => ?_⟩
  have extent := congrFun (Page.Directory.extent_delete (Page.directory page) slotId.toNat) index
  rw [← edits.decoded] at extent
  have size : (Page.slotAt page' index).size.toNat = (Page.slotAt page index).size.toNat :=
    congrArg Extent.size extent
  rw [sizes index inside] at size
  exact UInt16.toNat.inj size

/-- The live records are empty where no live record has bytes that a call could write. -/
theorem Linked.empty_of_slices (linked : Linked page count top)
    (empty : ∀ slotId < Page.getPageCapacity page, ∀ slice,
      Page.writeRecord page slotId = .ok slice → slice.size = 0) :
    ∀ index ∈ (Page.directory page).liveSlots count, (Page.slotAt page index).size = 0 := by
  intro index live
  have number := toNat_slotId linked.wf live
  have below : UInt16.ofNat index < Page.getPageCapacity page := by
    rw [UInt16.lt_iff_toNat_lt, number, Page.getPageCapacity_toNat linked.wf.hasSlots]
    exact (Page.Directory.mem_liveSlots.mp live).1
  have zero := empty _ below _ (Page.recordSlice_live linked.wf.hasSlots (number.symm ▸ live))
  rwa [number] at zero

theorem Linked.allTooSmall_iff (linked : Linked page count top) (size : UInt64) :
    (∀ slotId : SlotId, slotId.toNat < count → Page.TooSmall page slotId size) ↔
      AllTooSmall page size := by
  refine forall_congr' fun slotId => ?_
  rw [UInt16.lt_iff_toNat_lt, Page.getPageCapacity_toNat linked.wf.hasSlots]

/-- **One call on the slots.** -/
theorem pageStep_linked (linked : Linked page count top) {links : Links} {op : PageOp}
    (asked : Asked (page, links) (.slots op)) (keeps : KeepsClear (page, links) (.slots op)) :
    StaysLinked page (Page.step page op).2 := by
  cases op with
  | allocateSlot size =>
      have small : 5 + size.toNat < 2 ^ 64 := asked
      have takes : TakesBelow page size ∨ Page.freeSpace page < 5 + size.toNat := keeps
      rcases Page.allocateSlot_spec linked.wf size small with
        ⟨_, run⟩ | ⟨room, slotId, page', run, isNext, _⟩
      · rw [Page.step, Page.call, run]
        exact stays linked
      · have takes : TakesBelow page size := takes.resolve_right (Nat.not_lt.mpr room)
        rw [Page.step, Page.call, run]
        refine linked.placed isNext.le (Or.inl takes) fun other wf => ?_
        rcases Page.allocateSlot_spec wf size small with
          ⟨full, _⟩ | ⟨_, slotId', page'', run', _, placed⟩
        · omega
        · cases Except.ok.inj (run.symm.trans run')
          exact placed
  | allocateSlotOrReuseSlot size =>
      have small : 5 + size.toNat < 2 ^ 64 := asked
      rcases Page.allocateSlotOrReuseSlot_spec linked.wf size small with
        ⟨_, run⟩ | ⟨room, slotId, page', run, placed, isNew⟩
      · rw [Page.step, Page.call, run]
        exact stays linked
      · rw [linked.allTooSmall_iff] at room isNew
        have takes : TakesBelow page size ∨ size.toNat = 0 ∧ slotId.toNat < count := by
          rcases keeps with takes | ⟨all, full⟩ | ⟨some_, empty⟩
          · exact Or.inl takes
          · exact absurd ⟨full, all⟩ room
          · exact Or.inr ⟨empty, placed.upTo.lt_of_ne (mt isNew.mp some_)⟩
        rw [Page.step, Page.call, run]
        refine linked.placed placed.upTo takes fun other wf => ?_
        rcases Page.allocateSlotOrReuseSlot_spec wf size small with
          ⟨full, _⟩ | ⟨_, slotId', page'', run', placed', _⟩
        · exact absurd (full.imp_right (linked.allTooSmall_iff size).mp) room
        · cases Except.ok.inj (run.symm.trans run')
          exact placed'
  | readRecord slotId =>
      cases run : Page.readRecord page slotId with
      | error failure =>
          rw [Page.step, Page.call, run]
          exact stays linked
      | ok bytes =>
          rw [Page.step, Page.call, run]
          exact stays linked
  | write slotId position bytes =>
      obtain ⟨slice, isSlice, fits⟩ := asked
      rw [Page.step, Page.call, isSlice]
      exact linked.written isSlice fits
  | deleteSlot slotId =>
      obtain ⟨page', run, stay⟩ := linked.deleted ((Page.isLive_iff linked.wf).mp asked)
      rw [Page.step, Page.call, run]
      exact stay
  | vacuumPage rank =>
      obtain ⟨page', run, stay⟩ := linked.vacuumed rank (linked.empty_of_slices keeps)
      rw [Page.step, Page.call, run]
      exact stay

/-! ### Runs -/

/-- The page is laid out so, and its links are those last set. -/
def Tracked (state : FullPage × Links) : Prop :=
  (∃ count top, Linked state.1 count top) ∧
    getNextPage state.1 = state.2.next ∧ getPrevPage state.1 = state.2.prev

theorem Tracked.kept {state : FullPage × Links} (tracked : Tracked state) : LinksKept state := by
  obtain ⟨⟨count, top, linked⟩, next, prev⟩ := tracked
  exact linked.kept next prev

theorem Tracked.step {state : FullPage × Links} (tracked : Tracked state) {op : HeapOp}
    (asked : Asked state op) (keeps : KeepsClear state op) : Tracked (heapMachine.next state op) := by
  obtain ⟨page, links⟩ := state
  obtain ⟨⟨count, top, linked⟩, next, prev⟩ := tracked
  cases op with
  | slots op =>
      obtain ⟨layout, agree⟩ := pageStep_linked linked asked keeps
      exact ⟨layout, (getNextPage_agree agree).trans next, (getPrevPage_agree agree).trans prev⟩
  | setNextPage pageId =>
      exact ⟨⟨count, top, linked.agree (agree_setNextPage page pageId)⟩,
        getNextPage_setNextPage page pageId, (getPrevPage_setNextPage page pageId).trans prev⟩
  | setPrevPage pageId =>
      exact ⟨⟨count, top, linked.agree (agree_setPrevPage page pageId)⟩,
        (getNextPage_setPrevPage page pageId).trans next, getPrevPage_setPrevPage page pageId⟩

theorem tracked_initPage (page : FullPage) : Tracked (initPage page, Links.fresh) :=
  ⟨⟨0, recordsEnd, linked_of_wf (initPage_shows page).holds.wf⟩, (initPage_shows page).next,
    getPrevPage_initPage page⟩

/-! ### A compaction with bytes to move -/

/-- **A compaction with live bytes moves a record over the last byte of the page.** -/
theorem vacuumPage_covers (wf : (Page.directory page).Wf count pageSize) (rank : SlotId → Nat)
    {index : Nat} (live : index ∈ (Page.directory page).liveSlots count)
    (some : 0 < (Page.slotAt page index).size.toNat) :
    ∃ page' slotId slice, Page.vacuumPage page rank = .ok page' ∧
      Page.writeRecord page' slotId = .ok slice ∧ slice.Covers (pageSize - 1) := by
  obtain ⟨page', run, done⟩ := Page.vacuumPage_spec wf rank
  have sizes : ∀ other ∈ (Page.directory page).liveSlots count,
      ((Page.directory page').extent other).size = (Page.slotAt page other).size.toNat := by
    intro other otherLive
    have lengths := congrArg List.length (done.records other otherLive)
    rw [Page.length_record, Page.length_record] at lengths
    exact lengths
  have packed : Packed (fun other => other ∈ (Page.directory page).liveSlots count)
      (Page.directory page').extent (Page.getEndFreeSpace page').toNat pageSize :=
    done.wf.packed.mono (fun other otherLive => (Page.Directory.mem_liveSlots.mp otherLive).1)
      (Nat.le_refl _)
  have total := done.total
  have moved : (Page.slotAt page index).size.toNat
      ≤ ∑ other ∈ (Page.directory page).liveSlots count, (Page.slotAt page other).size.toNat :=
    Finset.single_le_sum (f := fun other => (Page.slotAt page other).size.toNat)
      (fun _ _ => Nat.zero_le _) live
  rw [← Finset.sum_congr rfl sizes] at total moved
  have free : (Page.getEndFreeSpace page').toNat ≤ pageSize - 1 := by omega
  obtain ⟨other, otherLive, ⟨above, below⟩, _⟩ := packed.covers total free (by decide)
  rw [← done.liveSlots] at otherLive
  have number := toNat_slotId done.wf otherLive
  have otherLive' : (UInt16.ofNat other).toNat ∈ (Page.directory page').liveSlots count :=
    number.symm ▸ otherLive
  have isSlice := Page.recordSlice_live done.wf.hasSlots otherLive'
  rw [number] at isSlice
  exact ⟨page', _, _, run, isSlice, above, below⟩

/-! ### What does not keep away -/

/-- Free space that ends above the links is found on pages of empty slots only. -/
theorem Linked.high (linked : Linked page count top)
    (high : recordsEnd < (Page.getEndFreeSpace page).toNat) :
    ∀ index, index < count → (Page.slotAt page index).size = 0 := by
  rcases linked.below with rfl | ⟨_, empty⟩
  · exact absurd linked.wf.below (Nat.not_le.mpr high)
  · exact empty

/-- A live slot whose size is in the links. -/
theorem size_setPrevPage {index : Nat} (size : Page.entryAt index + 3 = recordsEnd) :
    (Page.slotAt (setPrevPage page 1) index).size = 1 := by
  show getU16 _ (Page.entryAt index + 3) = 1
  have prefix_ : (readBytes (setPrevPage page 1) recordsEnd 4).take 2
      = readBytes (setPrevPage page 1) recordsEnd 2 := take_readBytes _ (by decide)
  have written : readBytes (setPrevPage page 1) recordsEnd 4 = leBytes 4 1 :=
    readBytes_writeBytes page (by decide)
  rw [size, getU16, ← prefix_, written]
  decide

/-- **An entry that reaches into the links** is changed by setting them. -/
theorem Linked.entryOver (linked : Linked page count top) {size : Nat}
    (placed : Page.Placed page page' count top count size) (empty : size = 0)
    (past : recordsEnd < (Page.getStartFreeSpace page).toNat + 5) :
    ∃ slotId, Page.readRecord (setPrevPage page' 1) slotId ≠ Page.readRecord page' slotId := by
  have start : (Page.getStartFreeSpace page).toNat = Page.entryAt count := linked.wf.start
  have below := linked.entries
  have isCount : count = 814 := by
    rw [start] at past
    unfold Page.entryAt recordsEnd at *
    omega
  subst isCount
  have same : Page.SameDirectory page' (setPrevPage page' 1) 814 := Page.sameDirectory_of_agree
    fun position above under =>
      agree_setPrevPage page' 1 position above (under.trans_le (by decide))
  have slots : (Page.directory page').HasSlots 815 := placed.wf.hasSlots
  have slots' : (Page.directory (setPrevPage page' 1)).HasSlots 815 :=
    ⟨(congrArg UInt16.toNat same.freeStart).trans slots.start, slots.inside⟩
  have number : (814 : SlotId).toNat = 814 := rfl
  have live : (814 : SlotId).toNat ∈ (Page.directory page').liveSlots 815 :=
    Page.Directory.mem_liveSlots.mpr ⟨by decide, placed.live⟩
  have kept : (Page.slotAt (setPrevPage page' 1) 814).deleted = (Page.slotAt page' 814).deleted :=
    congrArg (fun byte => decide (0 < byte))
      (agree_setPrevPage page' 1 (Page.entryAt 814) (Nat.zero_le _) (by decide))
  have live' : (814 : SlotId).toNat ∈ (Page.directory (setPrevPage page' 1)).liveSlots 815 :=
    Page.Directory.mem_liveSlots.mpr ⟨by decide, kept.trans placed.live⟩
  refine ⟨814, fun read => ?_⟩
  rw [Page.readRecord_live slots' live', Page.readRecord_live slots live, number] at read
  have lengths := congrArg List.length (Except.ok.inj read)
  rw [Page.length_record, Page.length_record, placed.size, empty,
    size_setPrevPage (by decide)] at lengths
  cases lengths

/-- **A record that is placed while the links are kept** is below them. -/
theorem Linked.takes_of_kept (linked : Linked page count top) {size : UInt64} {index : Nat}
    (placed : Page.Placed page page' count top index size.toNat) {links : Links}
    (kept : LinksKept (page', links)) : TakesBelow page size ∨ size.toNat = 0 ∧ index < count := by
  by_contra outside
  obtain ⟨above, notReused⟩ := not_or.mp outside
  obtain ⟨high, notBelow⟩ := not_or.mp above
  have empty := linked.high (Nat.not_le.mp high)
  have isSize : (Page.slotAt page' index).extent.size = size.toNat := placed.size
  by_cases zero : size.toNat = 0
  · have isNew : index = count := le_antisymm placed.upTo
      (Nat.not_lt.mp fun below => notReused ⟨zero, below⟩)
    subst isNew
    obtain ⟨slotId, changed⟩ := linked.entryOver placed zero
      (Nat.not_le.mp fun below => notBelow ⟨zero, below⟩)
    exact changed (kept.settingPrev 1 slotId)
  · have ends : (Page.slotAt page' index).extent.start + (Page.slotAt page' index).extent.size
        = (Page.getEndFreeSpace page).toNat := by
      refine placed.room.resolve_right fun ⟨below, small⟩ => zero ?_
      have none : (Page.slotAt page index).extent.size = 0 :=
        congrArg UInt16.toNat (empty index below)
      omega
    have live : index ∈ (Page.directory page').liveSlots (max count (index + 1)) :=
      Page.Directory.mem_liveSlots.mpr ⟨by omega, placed.live⟩
    have number := toNat_slotId placed.wf live
    have live' : (UInt16.ofNat index).toNat
        ∈ (Page.directory page').liveSlots (max count (index + 1)) := by
      rwa [number]
    have isSlice := Page.recordSlice_live placed.wf.hasSlots live'
    rw [number] at isSlice
    have high := Nat.not_le.mp high
    have clear := kept.clear _ _ ((Page.getEndFreeSpace page).toNat - 1) isSlice
      ⟨?_, ?_⟩
    · omega
    · show (Page.slotAt page' index).extent.start ≤ _
      omega
    · show _ < (Page.slotAt page' index).extent.start + (Page.slotAt page' index).extent.size
      omega

/-- **A call after which the links are kept** kept away from them. -/
theorem Linked.keepsClear (linked : Linked page count top) {links : Links} {op : HeapOp}
    (asked : Asked (page, links) op)
    (kept : LinksKept (heapMachine.next (page, links) op)) : KeepsClear (page, links) op := by
  cases op with
  | setNextPage pageId => trivial
  | setPrevPage pageId => trivial
  | slots op =>
      have kept : LinksKept ((Page.step page op).2, links) := kept
      cases op with
      | readRecord slotId => trivial
      | write slotId position bytes => trivial
      | deleteSlot slotId => trivial
      | allocateSlot size =>
          rcases Page.allocateSlot_spec linked.wf size asked with
            ⟨full, _⟩ | ⟨_, slotId, page', run, isNext, placed⟩
          · exact Or.inr full
          · rw [Page.step, Page.call, run] at kept
            exact Or.inl ((linked.takes_of_kept placed kept).resolve_right
              fun reused => isNext.not_lt reused.2)
      | allocateSlotOrReuseSlot size =>
          rcases Page.allocateSlotOrReuseSlot_spec linked.wf size asked with
            ⟨⟨full, all⟩, _⟩ | ⟨_, slotId, page', run, placed, isNew⟩
          · exact Or.inr (Or.inl ⟨(linked.allTooSmall_iff size).mp all, full⟩)
          · rw [Page.step, Page.call, run] at kept
            rw [linked.allTooSmall_iff] at isNew
            rcases linked.takes_of_kept placed kept with takes | ⟨empty, below⟩
            · exact Or.inl takes
            · exact Or.inr (Or.inr ⟨fun all => below.ne (isNew.mpr all), empty⟩)
      | vacuumPage rank =>
          intro slotId _ slice isSlice
          by_contra some_
          obtain ⟨live, rfl⟩ := Linked.slice_eq linked.wf isSlice
          have positive : 0 < (Page.slotAt page slotId.toNat).size.toNat :=
            Nat.pos_of_ne_zero fun zero => some_ (UInt16.toNat.inj zero)
          obtain ⟨page', other, slice, run, isSlice', covers⟩ :=
            vacuumPage_covers linked.pageSized rank live positive
          rw [Page.step, Page.call, run] at kept
          exact absurd (kept.clear other slice _ isSlice' covers) (by decide)

/-! ### Runs -/

/-- **The links and the records of a heap page stay apart exactly through the runs** whose
allocations take their room from below the links, or none, and whose compactions have no live bytes
to move. -/
theorem heapLinks_kept_iff (page : FullPage) (ops : List HeapOp)
    (asked : heapMachine.Along Asked (initPage page, Links.fresh) ops) :
    heapMachine.Always LinksKept (initPage page, Links.fresh) ops ↔
      heapMachine.Along KeepsClear (initPage page, Links.fresh) ops := by
  refine Machine.always_iff_along (J := Tracked)
    (fun _ _ tracked asked keeps => tracked.step asked keeps) (fun _ tracked => tracked.kept)
    (fun state op tracked asked kept => ?_) (tracked_initPage page) asked
  obtain ⟨⟨count, top, linked⟩, _⟩ := tracked
  exact linked.keepsClear asked kept

/-- Links set between records, an empty page compacted, and a slot taken again. -/
def linkedRun : List HeapOp :=
  [.slots (.allocateSlot 100), .setNextPage 3, .slots (.deleteSlot 0),
    .slots (.vacuumPage fun _ => 0), .setPrevPage 7, .slots (.allocateSlotOrReuseSlot 0)]

theorem linkedRun_kept :
    heapMachine.Always LinksKept (initPage fun _ => 0, Links.fresh) linkedRun :=
  (heapLinks_kept_iff (fun _ => 0) linkedRun (by decide +kernel)).mpr (by decide +kernel)

/-- A record of ten bytes is allocated on a fresh heap page, and the page is compacted. -/
theorem heapLinks_overwritten : ¬ ∀ (page : FullPage) (ops : List HeapOp),
    heapMachine.Along Asked (initPage page, Links.fresh) ops →
    heapMachine.Always LinksKept (initPage page, Links.fresh) ops := by
  intro all
  have kept := all (fun _ => 0) [.slots (.allocateSlot 10), .slots (.vacuumPage fun _ => 0)]
    (by decide +kernel)
  have wf := (initPage_shows fun _ => 0).holds.wf
  have room := freeSpace_initPage fun _ => 0
  generalize initPage (fun _ => 0) = page at *
  rcases Page.allocateSlot_spec wf 10 (by decide) with
    ⟨full, _⟩ | ⟨_, slotId, page₁, run, isFirst, placed⟩
  · have ten : (10 : UInt64).toNat = 10 := rfl
    omega
  have first : (Page.step page (.allocateSlot 10)).2 = page₁ := by
    rw [Page.step, Page.call, run]
    rfl
  have live : slotId.toNat ∈ (Page.directory page₁).liveSlots (max 0 (slotId.toNat + 1)) :=
    Page.Directory.mem_liveSlots.mpr ⟨Nat.lt_of_lt_of_le (Nat.lt_succ_self _) (Nat.le_max_right _ _),
      placed.live⟩
  have some : 0 < (Page.slotAt page₁ slotId.toNat).size.toNat := by
    rw [placed.size]
    decide
  obtain ⟨page₂, other, slice, compacted, isSlice, covers⟩ :=
    vacuumPage_covers (wf_pageSize placed.wf) (fun _ => 0) live some
  have second : (Page.step page₁ (.vacuumPage fun _ => 0)).2 = page₂ := by
    rw [Page.step, Page.call, compacted]
    rfl
  have last : LinksKept ((Page.step (Page.step page (.allocateSlot 10)).2
      (.vacuumPage fun _ => 0)).2, Links.fresh) := kept.last
  rw [first, second] at last
  exact absurd (last.clear other slice _ isSlice covers) (by decide)

end HeapPage

end Yadb
