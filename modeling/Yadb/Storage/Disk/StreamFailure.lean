/-
**A failed transfer stays with the stream.**

The manager keeps one stream for each open file and never clears its state bits. `streamOf` is that
stream; `StreamStep` is what one call does to it.

* `stream_step`: every call keeps the stream, opens it, drops it, or transfers through it; a failed
  transfer leaves it broken.
* `sound_iff_reopened`: from a broken stream, a run ends with a sound one exactly when the file is
  dropped on the way and no transfer fails after that.
* `transfer_succeeds`, `transfer_fails`: a transfer the device can make succeeds through a sound
  stream and fails through a broken one.
* `laterTransfer_iff`: what comes of a later transfer after a failed one.
-/

import Yadb.Storage.Disk.Offsets

namespace Yadb

open Foundation

/-- No call but one that drops the stream gets rid of these bits. -/
def Stream.broken (stream : Stream) : Bool := stream.failbit || stream.badbit

/-- The page that a read or a write is about. -/
def DiskOp.transfer : DiskOp → Option FilePageId
  | .writePage fpId _ _ => some fpId
  | .readPage fpId _ => some fpId
  | _ => none

/-- The call closes the stream of the file. -/
def DiskOp.Drops (fileId : FileId) : DiskOp → Prop
  | .deleteFile other _ => other = fileId
  | .reopen => True
  | _ => False

/-- What a file holds, whether it is open or not. -/
def DiskFile.content (file : DiskFile) : Nat × (Nat → UInt8) × List PageId :=
  (file.size, file.bytes, file.freePages)

namespace DiskManager

/-- The stream of a file, where the manager has it open. -/
def streamOf (manager : DiskManager) (fileId : FileId) : Option Stream :=
  (manager.files fileId).bind fun file => file.handle.map DatabaseFile.fileStream

def content (manager : DiskManager) (fileId : FileId) : Option (Nat × (Nat → UInt8) × List PageId) :=
  (manager.files fileId).map DiskFile.content

/-- A read or write of this file that ends with the error of its stream. -/
def StreamFails (fileId : FileId) (manager : DiskManager) (op : DiskOp) : Prop :=
  ∃ fpId, op.transfer = some fpId ∧ fpId.fileId = fileId ∧
    ((manager.step op).1 = .failed (.error (.pageReadError fpId "stream failure")) ∨
      (manager.step op).1 = .failed (.error (.pageWriteError fpId "stream failure")))

/-- A read or write of an allocated page of this file that the device can make. -/
def Ready (fileId : FileId) (manager : DiskManager) : DiskOp → Prop
  | .writePage fpId _ io => fpId.fileId = fileId ∧ manager.Allocated fpId ∧ io.opens = true ∧
      io.writeFault = none
  | .readPage fpId io => fpId.fileId = fileId ∧ manager.Allocated fpId ∧ io.opens = true ∧
      io.readFault = false
  | _ => False

/-- The transfer is answered with success and has the effect that the device gives it: a read
returns the bytes of the page and changes no file, a write changes the bytes of the page. -/
def Succeeds (manager : DiskManager) : DiskOp → Prop
  | .writePage fpId page io => ∃ file, manager.files fpId.fileId = some file ∧
      (manager.writePage fpId page io).1 = .done ∧
      (manager.writePage fpId page io).2.content = Function.update manager.content fpId.fileId
        (some (file.writeAt (getOffset fpId.pageId) page).content)
  | .readPage fpId io => ∃ file, manager.files fpId.fileId = some file ∧
      (manager.readPage fpId io).1 = .read (file.pageAt (getOffset fpId.pageId)) ∧
      (manager.readPage fpId io).2.content = manager.content
  | _ => False

/-- Some call of the run drops the stream of the file, and no transfer of the file fails after
it. -/
def Reopened (fileId : FileId) : DiskManager → List DiskOp → Prop
  | _, [] => False
  | manager, op :: ops =>
      (op.Drops fileId ∧ diskMachine.Along (fun manager op => ¬ StreamFails fileId manager op)
        (diskMachine.next manager op) ops) ∨
      Reopened fileId (diskMachine.next manager op) ops

/-- No failure stays with the stream of the file. -/
def Sound (fileId : FileId) (manager : DiskManager) : Prop :=
  ∀ stream, manager.streamOf fileId = some stream → stream.good = true

def Broken (fileId : FileId) (manager : DiskManager) : Prop :=
  ∃ stream, manager.streamOf fileId = some stream ∧ stream.broken = true

/-! ### One call -/

section Call

variable {manager : DiskManager} {fileId : FileId} {file : DiskFile}

theorem streamOf_present (present : manager.files fileId = some file) :
    manager.streamOf fileId = file.handle.map DatabaseFile.fileStream := by
  rw [streamOf, present]
  rfl

theorem streamOf_setFile (file : DiskFile) :
    (manager.setFile fileId (some file)).streamOf fileId
      = file.handle.map DatabaseFile.fileStream := streamOf_present (setFile_self _ _ _)

theorem streamOf_of_ne {other : FileId} (different : fileId ≠ other) (file : Option DiskFile) :
    (manager.setFile other file).streamOf fileId = manager.streamOf fileId := by
  rw [streamOf, setFile_of_ne _ different, streamOf]

/-- What one call does to the stream of a file. -/
inductive StreamStep (fileId : FileId) (manager : DiskManager) (op : DiskOp) (after : Option Stream) :
    Prop
  | kept : after = manager.streamOf fileId → StreamStep fileId manager op after
  | opened : manager.streamOf fileId = none → after = some {} → StreamStep fileId manager op after
  | dropped : op.Drops fileId → after = none → StreamStep fileId manager op after
  | transferred {stream : Stream} : after = some stream → stream.good = true →
      (∀ before, manager.streamOf fileId = some before → before.broken = false) →
      StreamStep fileId manager op after
  | failed {stream : Stream} : StreamFails fileId manager op → after = some stream →
      stream.broken = true → StreamStep fileId manager op after

/-- A file that is only opened. -/
theorem streamStep_opened (present : manager.files fileId = some file) (op : DiskOp) {file' : DiskFile}
    (handle : file'.handle.map DatabaseFile.fileStream
      = some (file.handle.getD {}).fileStream) (other : FileId) :
    StreamStep other manager op ((manager.setFile fileId (some file')).streamOf other) := by
  by_cases same : other = fileId
  · subst same
    have before := streamOf_present present
    rw [streamOf_setFile, handle]
    cases isOpen : file.handle with
    | none => exact .opened (by rw [before, isOpen]; rfl) rfl
    | some kept => exact .kept (by rw [before, isOpen]; rfl)
  · exact .kept (streamOf_of_ne same _)

/-- A file that is transferred to or from: the stream is good and was not broken, or it is broken
and the call fails. -/
theorem streamStep_transfer (present : manager.files fileId = some file) {op : DiskOp}
    {file' : DiskFile} {handle : DatabaseFile} (isOpen : file'.handle = some handle)
    (result : (handle.fileStream.good = true ∧ (file.handle.getD {}).fileStream.broken = false) ∨
      (StreamFails fileId manager op ∧ handle.fileStream.broken = true)) (other : FileId) :
    StreamStep other manager op ((manager.setFile fileId (some file')).streamOf other) := by
  by_cases same : other = fileId
  · subst same
    have after : (manager.setFile other (some file')).streamOf other = some handle.fileStream := by
      rw [streamOf_setFile, isOpen]
      rfl
    rcases result with ⟨good, notBroken⟩ | ⟨fails, broken⟩
    · refine .transferred after good fun before found => ?_
      rw [streamOf_present present] at found
      obtain ⟨kept, isKept, rfl⟩ := Option.map_eq_some_iff.mp found
      rw [isKept] at notBroken
      exact notBroken
    · exact .failed fails after broken
  · exact .kept (streamOf_of_ne same _)

theorem not_broken_of_good {stream : Stream} (good : stream.good = true) : stream.broken = false := by
  obtain ⟨eofbit, failbit, badbit⟩ := stream
  cases failbit <;> cases badbit <;> simp_all [Stream.good, Stream.broken]

theorem streamStep_write (fpId : FilePageId) (page : FullPage) (io : DiskIO) (other : FileId) :
    StreamStep other manager (.writePage fpId page io)
      ((manager.writePage fpId page io).2.streamOf other) := by
  have fails : ∀ {file' : DiskManager}, manager.writePage fpId page io
      = (.failed (.error (.pageWriteError fpId "stream failure")), file') →
      StreamFails fpId.fileId manager (.writePage fpId page io) :=
    fun run => ⟨fpId, rfl, rfl, Or.inr (congrArg Prod.fst run)⟩
  rcases manager.withPage_cases fpId io _ with
    ⟨error, run⟩ | ⟨file, present, _, run⟩ | ⟨file, present, _, run⟩
  · rw [writePage, run]
    exact .kept rfl
  · rw [writePage, run]
    exact streamStep_opened present _ rfl other
  · have ended : manager.writePage fpId page io = _ := run
    rw [ended]
    simp only at ended ⊢
    split at ended
    · rename_i notGood
      rw [if_pos notGood]
      exact streamStep_transfer present rfl (Or.inr ⟨fails ended, rfl⟩) other
    · rename_i good
      rw [if_neg good]
      have good : (file.handle.getD {}).fileStream.good = true := by simpa using good
      split at ended
      · rename_i torn fault
        exact streamStep_transfer present rfl (Or.inr ⟨fails ended, by exact Bool.or_true _⟩) other
      · rename_i fault
        exact streamStep_transfer present rfl (Or.inl ⟨good, not_broken_of_good good⟩) other

theorem streamStep_read (fpId : FilePageId) (io : DiskIO) (other : FileId) :
    StreamStep other manager (.readPage fpId io) ((manager.readPage fpId io).2.streamOf other) := by
  have fails : ∀ {file' : DiskManager}, manager.readPage fpId io
      = (.failed (.error (.pageReadError fpId "stream failure")), file') →
      StreamFails fpId.fileId manager (.readPage fpId io) :=
    fun run => ⟨fpId, rfl, rfl, Or.inl (congrArg Prod.fst run)⟩
  rcases manager.withPage_cases fpId io _ with
    ⟨error, run⟩ | ⟨file, present, _, run⟩ | ⟨file, present, _, run⟩
  · rw [readPage, run]
    exact .kept rfl
  · rw [readPage, run]
    exact streamStep_opened present _ rfl other
  · have ended : manager.readPage fpId io = _ := run
    rw [ended]
    simp only at ended ⊢
    split at ended
    · rename_i notGood
      rw [if_pos notGood]
      exact streamStep_transfer present rfl (Or.inr ⟨fails ended, rfl⟩) other
    · rename_i good
      rw [if_neg good]
      have good : (file.handle.getD {}).fileStream.seekg.good = true := by simpa using good
      split at ended
      · rename_i fault
        rw [if_pos fault]
        exact streamStep_transfer present rfl (Or.inr ⟨fails ended, by exact Bool.or_true _⟩) other
      · rename_i fault
        rw [if_neg fault]
        split at ended
        · rename_i short
          rw [if_pos short]
          exact streamStep_transfer present rfl (Or.inr ⟨fails ended, rfl⟩) other
        · rename_i long
          rw [if_neg long]
          have sound : (file.handle.getD {}).fileStream.seekg.broken = false := not_broken_of_good good
          exact streamStep_transfer present rfl (Or.inl ⟨good, sound⟩) other

theorem streamStep_allocate (allocated : FileId) (io : DiskIO) (other : FileId) :
    StreamStep other manager (.allocatePage allocated io)
      ((manager.allocatePage allocated io).2.streamOf other) := by
  have step := manager.allocatePage_step allocated io
  generalize manager.allocatePage allocated io = result at *
  obtain ⟨answer, after⟩ := result
  cases step with
  | notOpened error => exact .kept rfl
  | faulted file message present => exact streamStep_opened present _ rfl other
  | diverged file present _ _ => exact streamStep_opened present _ rfl other
  | grown file freePages present _ _ _ _ => exact streamStep_opened present _ rfl other
  | reused file pageId present _ => exact streamStep_opened present _ rfl other

theorem streamStep_delete (fpId : FilePageId) (io : DiskIO) (other : FileId) :
    StreamStep other manager (.deletePage fpId io) ((manager.deletePage fpId io).2.streamOf other) := by
  rcases manager.withPage_cases fpId io _ with
    ⟨error, run⟩ | ⟨file, present, _, run⟩ | ⟨file, present, _, run⟩
  · rw [deletePage, run]
    exact .kept rfl
  · rw [deletePage, run]
    exact streamStep_opened present _ rfl other
  · rw [deletePage, run]
    exact streamStep_opened present _ rfl other

/-- A file that did not exist is not open before nor after. -/
theorem streamOf_created {created : FileId} (absent : manager.files created = none) (other : FileId) :
    (manager.setFile created (some { size := 0, bytes := fun _ => 0, handle := none })).streamOf other
      = manager.streamOf other := by
  by_cases same : other = created
  · subst same
    rw [streamOf_setFile, streamOf, absent]
    rfl
  · exact streamOf_of_ne same _

theorem streamOf_createRandomFile (opens : Bool) (draws : List FileId) (other : FileId) :
    (manager.createRandomFile opens draws).2.streamOf other = manager.streamOf other := by
  induction draws with
  | nil => rfl
  | cons drawn draws ih =>
      unfold createRandomFile
      split
      · exact ih
      · rename_i fresh
        simp only [Bool.or_eq_true, not_or, Bool.not_eq_true, Option.isSome_eq_false_iff,
          Option.isNone_iff_eq_none] at fresh
        split
        · exact streamOf_created fresh.2 other
        · rfl

theorem streamStep_deleteFile (deleted : FileId) (fault : Option String) (other : FileId) :
    StreamStep other manager (.deleteFile deleted fault)
      ((manager.deleteFile deleted fault).2.streamOf other) := by
  by_cases same : other = deleted
  · subst same
    refine .dropped rfl ?_
    cases fault with
    | none =>
        show (manager.setFile other none).streamOf other = none
        rw [streamOf, setFile_self]
        rfl
    | some message =>
        show (manager.setFile other _).streamOf other = none
        rw [streamOf, setFile_self]
        cases manager.files other with
        | none => rfl
        | some file => rfl
  · cases fault with
    | none => exact .kept (streamOf_of_ne same _)
    | some message => exact .kept (streamOf_of_ne same _)

/-- **What one call does to the stream of a file.** -/
theorem stream_step (manager : DiskManager) (op : DiskOp) (fileId : FileId) :
    StreamStep fileId manager op ((diskMachine.next manager op).streamOf fileId) := by
  cases op with
  | createFile created opens =>
      refine .kept ?_
      show (manager.createFile created opens).2.streamOf fileId = _
      unfold createFile
      split
      · rfl
      · rename_i absent
        split
        · exact streamOf_created (by simpa using absent) fileId
        · rfl
  | createRandomFile draws opens => exact .kept (streamOf_createRandomFile opens _ fileId)
  | allocatePage allocated io => exact streamStep_allocate allocated io fileId
  | writePage fpId page io => exact streamStep_write fpId page io fileId
  | readPage fpId io => exact streamStep_read fpId io fileId
  | deletePage fpId io => exact streamStep_delete fpId io fileId
  | deleteFile deleted fault => exact streamStep_deleteFile deleted fault fileId
  | reopen =>
      refine .dropped trivial ?_
      show ((manager.files fileId).map fun file => { file with handle := none }).bind _ = none
      cases manager.files fileId with
      | none => rfl
      | some file => rfl

end Call

/-! ### What stays with the stream over a run -/

section Run

variable {manager : DiskManager} {fileId : FileId} {op : DiskOp}

/-- A broken stream is not sound. -/
theorem Broken.not_sound (broken : Broken fileId manager) : ¬ Sound fileId manager := by
  obtain ⟨stream, found, isBroken⟩ := broken
  intro sound
  exact Bool.noConfusion (isBroken.symm.trans (not_broken_of_good (sound stream found)))

/-- A call that does not drop the stream leaves it broken. -/
theorem Broken.step (broken : Broken fileId manager) (keeps : ¬ op.Drops fileId) :
    Broken fileId (diskMachine.next manager op) := by
  obtain ⟨stream, found, isBroken⟩ := broken
  cases manager.stream_step op fileId with
  | kept same => exact ⟨stream, same.trans found, isBroken⟩
  | opened none _ => exact absurd (found.symm.trans none) nofun
  | dropped drops _ => exact absurd drops keeps
  | transferred _ _ wasSound => exact Bool.noConfusion (isBroken.symm.trans (wasSound stream found))
  | failed _ after afterBroken => exact ⟨_, after, afterBroken⟩

/-- A call that ends with another error than that of opening the file acted on it. -/
theorem withPage_acts {fpId : FilePageId} {io : DiskIO}
    {act : DiskFile → DatabaseFile → DiskAnswer × DiskFile} {error : DiskError}
    (answer : (manager.withPage fpId io act).1 = .failed (.error error))
    (wasOpen : ∀ reason, error ≠ .openFileError fpId.fileId reason) :
    ∃ file, (act file (file.handle.getD {})).1 = .failed (.error error) ∧
      (manager.withPage fpId io act).2
        = manager.setFile fpId.fileId (some (act file (file.handle.getD {})).2) := by
  rcases manager.withPage_cases fpId io act with
    ⟨reason, run⟩ | ⟨file, _, _, run⟩ | ⟨file, _, _, run⟩
  · rw [run] at answer
    cases answer
    exact absurd rfl (wasOpen reason)
  · rw [run] at answer
    cases answer
  · rw [run] at answer ⊢
    exact ⟨file.opened, answer, rfl⟩

theorem broken_setFile {file : DiskFile} {handle : DatabaseFile} (isOpen : file.handle = some handle)
    (isBroken : handle.fileStream.broken = true) :
    Broken fileId (manager.setFile fileId (some file)) := by
  refine ⟨handle.fileStream, ?_, isBroken⟩
  rw [streamOf_setFile, isOpen]
  rfl

/-- A transfer that fails leaves the stream broken. -/
theorem broken_of_fails (fails : StreamFails fileId manager op) :
    Broken fileId (diskMachine.next manager op) := by
  obtain ⟨fpId, transfers, rfl, answer⟩ := fails
  have failed : ∃ error, (manager.step op).1 = .failed (.error error) ∧
      ∀ reason, error ≠ .openFileError fpId.fileId reason := by
    rcases answer with read | write
    · exact ⟨_, read, nofun⟩
    · exact ⟨_, write, nofun⟩
  obtain ⟨error, ended, wasOpen⟩ := failed
  cases op with
  | writePage written page io =>
      cases Option.some.inj transfers
      have ended : (manager.writePage fpId page io).1 = .failed (.error error) := ended
      show Broken fpId.fileId (manager.writePage fpId page io).2
      unfold writePage at ended ⊢
      obtain ⟨file, acted, after⟩ := withPage_acts ended wasOpen
      rw [after]
      split at acted
      · rename_i notGood
        rw [if_pos notGood]
        exact broken_setFile rfl rfl
      · rename_i good
        rw [if_neg good]
        split at acted
        · exact broken_setFile rfl (Bool.or_true _)
        · cases acted
  | readPage read io =>
      cases Option.some.inj transfers
      have ended : (manager.readPage fpId io).1 = .failed (.error error) := ended
      show Broken fpId.fileId (manager.readPage fpId io).2
      unfold readPage at ended ⊢
      obtain ⟨file, acted, after⟩ := withPage_acts ended wasOpen
      rw [after]
      simp only at acted ⊢
      split at acted
      · rename_i notGood
        rw [if_pos notGood]
        exact broken_setFile rfl rfl
      · rename_i good
        rw [if_neg good]
        split at acted
        · rename_i fault
          rw [if_pos fault]
          exact broken_setFile rfl (Bool.or_true _)
        · rename_i fault
          rw [if_neg fault]
          split at acted
          · rename_i short
            rw [if_pos short]
            exact broken_setFile rfl rfl
          · cases acted
  | createFile created opens => cases transfers
  | createRandomFile draws opens => cases transfers
  | allocatePage allocated io => cases transfers
  | deletePage deleted io => cases transfers
  | deleteFile deleted fault => cases transfers
  | reopen => cases transfers

/-- A call that does not fail leaves the stream sound. -/
theorem Sound.step (sound : Sound fileId manager) (passes : ¬ StreamFails fileId manager op) :
    Sound fileId (diskMachine.next manager op) := by
  intro stream found
  cases manager.stream_step op fileId with
  | kept same => exact sound stream (same.symm.trans found)
  | opened _ after =>
      cases Option.some.inj (after.symm.trans found)
      rfl
  | dropped _ closed => exact absurd (closed.symm.trans found) nofun
  | transferred after good _ =>
      cases Option.some.inj (after.symm.trans found)
      exact good
  | failed fails _ _ => exact absurd fails passes

/-- A call that drops the stream leaves none. -/
theorem sound_of_drops (drops : op.Drops fileId) : Sound fileId (diskMachine.next manager op) := by
  intro stream found
  cases op with
  | deleteFile deleted fault =>
      cases drops
      cases fault with
      | none =>
          have closed : (manager.setFile fileId none).streamOf fileId = some stream := found
          rw [streamOf, setFile_self] at closed
          cases closed
      | some message =>
          have closed : (manager.setFile fileId _).streamOf fileId = some stream := found
          rw [streamOf, setFile_self] at closed
          cases present : manager.files fileId with
          | none =>
              rw [present] at closed
              cases closed
          | some file =>
              rw [present] at closed
              cases closed
  | reopen =>
      have closed : ((manager.files fileId).map fun file => { file with handle := none }).bind
          (fun file => file.handle.map DatabaseFile.fileStream) = some stream := found
      cases present : manager.files fileId with
      | none =>
          rw [present] at closed
          cases closed
      | some file =>
          rw [present] at closed
          cases closed
  | createFile created opens => cases drops
  | createRandomFile draws opens => cases drops
  | allocatePage allocated io => cases drops
  | writePage fpId page io => cases drops
  | readPage fpId io => cases drops
  | deletePage fpId io => cases drops

/-- A sound stream stays sound as long as no transfer fails. -/
theorem Sound.run (sound : Sound fileId manager) {ops : List DiskOp}
    (passes : diskMachine.Along (fun manager op => ¬ StreamFails fileId manager op) manager ops) :
    Sound fileId (diskMachine.exec manager ops) :=
  (Machine.always_of_step (fun _ _ sound passes => Sound.step sound passes) sound passes).last

theorem Reopened.sound {ops : List DiskOp} (reopened : Reopened fileId manager ops) :
    Sound fileId (diskMachine.exec manager ops) := by
  induction ops generalizing manager with
  | nil => exact reopened.elim
  | cons op ops ih =>
      rcases reopened with ⟨drops, passes⟩ | later
      · exact (sound_of_drops drops).run passes
      · exact ih later

/-- A run that ends with a sound stream either starts with one and has no failure, or drops the
stream after the last failure. -/
theorem sound_run (ops : List DiskOp) (manager : DiskManager)
    (sound : Sound fileId (diskMachine.exec manager ops)) :
    (Broken fileId manager → Reopened fileId manager ops) ∧
      (diskMachine.Along (fun manager op => ¬ StreamFails fileId manager op) manager ops ∨
        Reopened fileId manager ops) := by
  induction ops generalizing manager with
  | nil => exact ⟨fun broken => broken.not_sound sound, Or.inl trivial⟩
  | cons op ops ih =>
      obtain ⟨fromBroken, passes | reopened⟩ := ih (diskMachine.next manager op) sound
      · by_cases fails : StreamFails fileId manager op
        · have reopened := fromBroken (broken_of_fails fails)
          exact ⟨fun _ => Or.inr reopened, Or.inr (Or.inr reopened)⟩
        · refine ⟨fun broken => ?_, Or.inl ⟨fails, passes⟩⟩
          by_cases drops : op.Drops fileId
          · exact Or.inl ⟨drops, passes⟩
          · exact Or.inr (fromBroken (broken.step drops))
      · exact ⟨fun _ => Or.inr reopened, Or.inr (Or.inr reopened)⟩

/-- **From a broken stream a run ends with a sound one exactly when the stream is dropped and no
transfer fails after that.** -/
theorem sound_iff_reopened (broken : Broken fileId manager) (ops : List DiskOp) :
    Sound fileId (diskMachine.exec manager ops) ↔ Reopened fileId manager ops :=
  ⟨fun sound => (sound_run ops manager sound).1 broken, Reopened.sound⟩

/-- After a transfer that failed the stream is sound or broken, never just at the end of the
file. -/
theorem sound_or_broken (ops : List DiskOp) (manager : DiskManager)
    (either : Sound fileId manager ∨ Broken fileId manager) :
    Sound fileId (diskMachine.exec manager ops) ∨ Broken fileId (diskMachine.exec manager ops) := by
  induction ops generalizing manager with
  | nil => exact either
  | cons op ops ih =>
      apply ih
      rcases either with sound | broken
      · by_cases fails : StreamFails fileId manager op
        · exact Or.inr (broken_of_fails fails)
        · exact Or.inl (sound.step fails)
      · by_cases drops : op.Drops fileId
        · exact Or.inl (sound_of_drops drops)
        · exact Or.inr (broken.step drops)

end Run

/-! ### A transfer that the device can make -/

section Transfer

variable {manager : DiskManager} {fileId : FileId}

theorem content_setFile (manager : DiskManager) (fileId : FileId) (file : DiskFile) :
    (manager.setFile fileId (some file)).content
      = Function.update manager.content fileId (some file.content) := by
  funext other
  rw [content]
  by_cases same : other = fileId
  · rw [same, setFile_self, Function.update_self]
    rfl
  · rw [setFile_of_ne _ same, Function.update_of_ne same]
    rfl

theorem Sound.present {file : DiskFile} (sound : Sound fileId manager)
    (present : manager.files fileId = some file) :
    (file.handle.getD {}).fileStream.good = true := by
  cases handle : file.handle with
  | none => rfl
  | some kept =>
      refine sound kept.fileStream ?_
      rw [streamOf_present present, handle]
      rfl

/-- **Through a sound stream it succeeds.** -/
theorem transfer_succeeds (sound : Sound fileId manager) {op : DiskOp}
    (ready : Ready fileId manager op) : Succeeds manager op := by
  cases op with
  | writePage fpId page io =>
      obtain ⟨rfl, ⟨file, present, index⟩, opens, noFault⟩ := ready
      have run := writePage_inUse present index (sound.present present) opens noFault page
      refine ⟨file, present, congrArg Prod.fst run, ?_⟩
      rw [run, content_setFile]
      rfl
  | readPage fpId io =>
      obtain ⟨rfl, ⟨file, present, index⟩, opens, noFault⟩ := ready
      have run := readPage_inUse present index (sound.present present) opens noFault
      refine ⟨file, present, congrArg Prod.fst run, ?_⟩
      have same : manager.content fpId.fileId = some file.content := by
        rw [content, present]
        rfl
      rw [run, content_setFile]
      exact Function.update_eq_iff.mpr ⟨same.symm, fun _ _ => rfl⟩
  | createFile created opens => exact ready.elim
  | createRandomFile draws opens => exact ready.elim
  | allocatePage allocated io => exact ready.elim
  | deletePage fpId io => exact ready.elim
  | deleteFile deleted fault => exact ready.elim
  | reopen => exact ready.elim

theorem not_good_of_broken {stream : Stream} (isBroken : stream.broken = true) :
    stream.good = false ∧ stream.seekg.good = false := by
  obtain ⟨eofbit, failbit, badbit⟩ := stream
  cases failbit <;> cases badbit <;> simp_all [Stream.good, Stream.seekg, Stream.broken]

/-- **Through a broken stream it fails.** -/
theorem transfer_fails (broken : Broken fileId manager) {op : DiskOp}
    (ready : Ready fileId manager op) : ¬ Succeeds manager op := by
  obtain ⟨stream, found, isBroken⟩ := broken
  obtain ⟨notGood, notGoodRead⟩ := not_good_of_broken isBroken
  have isStream : ∀ {file : DiskFile}, manager.files fileId = some file →
      (file.handle.getD {}).fileStream = stream := by
    intro file present
    rw [streamOf_present present] at found
    obtain ⟨handle, isOpen, rfl⟩ := Option.map_eq_some_iff.mp found
    rw [isOpen]
    rfl
  cases op with
  | writePage fpId page io =>
      obtain ⟨rfl, ⟨file, present, index⟩, opens, _⟩ := ready
      rintro ⟨_, _, done, _⟩
      have same : file.opened.inIndex fpId.pageId = true := index
      unfold writePage withPage at done
      rw [getFileHandle_present present opens] at done
      simp only [same, if_true, isStream present, notGood, Bool.not_false] at done
      cases done
  | readPage fpId io =>
      obtain ⟨rfl, ⟨file, present, index⟩, opens, _⟩ := ready
      rintro ⟨_, _, read, _⟩
      have same : file.opened.inIndex fpId.pageId = true := index
      unfold readPage withPage at read
      rw [getFileHandle_present present opens] at read
      simp only [same, if_true, isStream present, notGoodRead, Bool.not_false] at read
      cases read
  | createFile created opens => exact ready.elim
  | createRandomFile draws opens => exact ready.elim
  | allocatePage allocated io => exact ready.elim
  | deletePage fpId io => exact ready.elim
  | deleteFile deleted fault => exact ready.elim
  | reopen => exact ready.elim

end Transfer

/-- **One failed transfer and a later one.** A later transfer that the device can make succeeds
exactly when the stream was dropped in between, with no failure after that. -/
theorem laterTransfer_iff (manager : DiskManager) (fileId : FileId) (failing later : DiskOp)
    (middle : List DiskOp) (failed : StreamFails fileId manager failing)
    (ready : Ready fileId (diskMachine.exec manager (failing :: middle)) later) :
    Succeeds (diskMachine.exec manager (failing :: middle)) later ↔
      Reopened fileId (diskMachine.next manager failing) middle := by
  have broken := broken_of_fails failed
  rw [← sound_iff_reopened broken middle]
  constructor
  · intro succeeds
    rcases sound_or_broken middle _ (Or.inr broken) with sound | stillBroken
    · exact sound
    · exact absurd succeeds (transfer_fails stillBroken ready)
  · intro sound
    exact transfer_succeeds sound ready

/-- A read of page 0 of file 5 that the device cannot make. -/
def failingRead : DiskOp := .readPage ⟨5, 0⟩ { readFault := true }

theorem failingRead_fails : StreamFails 5 (.oneFile 2) failingRead :=
  ⟨⟨5, 0⟩, rfl, rfl, Or.inl rfl⟩

/-- The manager is made anew after the failed read, and the page is read. -/
theorem laterTransfer_reopened :
    Succeeds (diskMachine.exec (.oneFile 2) [failingRead, .reopen]) (.readPage ⟨5, 0⟩ {}) :=
  (laterTransfer_iff (.oneFile 2) 5 failingRead (.readPage ⟨5, 0⟩ {}) [.reopen] failingRead_fails
    ⟨rfl, ⟨_, rfl, by decide⟩, rfl, rfl⟩).mpr (Or.inl ⟨trivial, trivial⟩)

/-- After the failed read, page 1 cannot be read any more, though the device would deliver it. -/
theorem laterTransfer_poisoned : ¬ ∀ (manager : DiskManager) (fileId : FileId) (failing later : DiskOp)
    (middle : List DiskOp), StreamFails fileId manager failing →
    Ready fileId (diskMachine.exec manager (failing :: middle)) later →
    Succeeds (diskMachine.exec manager (failing :: middle)) later := by
  intro all
  have ready : Ready 5 (diskMachine.exec (.oneFile 2) [failingRead]) (.readPage ⟨5, 1⟩ {}) :=
    ⟨rfl, ⟨_, rfl, by decide⟩, rfl, rfl⟩
  exact transfer_fails (broken_of_fails failingRead_fails) ready
    (all (.oneFile 2) 5 failingRead (.readPage ⟨5, 1⟩ {}) [] failingRead_fails ready)

end DiskManager

end Yadb
