/-
**`Page` objects and the pins they stand for.**

`page.cpp`: a `Page` owns one pin of its frame, a move takes the pin over from the other object, and
the destructor gives it back. Objects are named by their place in a list; one that was moved from
owns nothing.

* `Accounted`: a pool in order, whose frames are pinned once for each object that owns them.
* `accounted_step`: one call, where a move assignment forgets no pin and an eviction takes no pinned
  frame's mapping away.
* `forgets_of_counted`: a move assignment that forgets a pin breaks the count at once.
* `pageObjects_iff`: over runs, the pins are counted in every state exactly when no move assignment
  forgets one.
-/

import Yadb.Storage.Buffer.PageMap

namespace Yadb

open Foundation

/-- A `Page`: destroyed, moved from, or owning a frame. -/
inductive PageObject (n : Nat)
  | destroyed
  | movedFrom
  | owns (frame : Fin n)
  deriving DecidableEq

/-- The pool, and every `Page` made so far. -/
structure PageObjects (n : Nat) where
  pool : PageBufferManager n
  objects : List (PageObject n)

inductive PageObjectOp
  | getPage (fpId : FilePageId) (io : Transfers)
  | moveConstruct (other : Nat)
  | moveAssign (target other : Nat)
  | destroy (object : Nat)

namespace PageObjects

variable {n : Nat}

/-- An object that has not been destroyed. -/
def alive (state : PageObjects n) (name : Nat) : Option (PageObject n) :=
  match state.objects[name]? with
  | some .destroyed => none
  | found => found

def getPage (state : PageObjects n) (fpId : FilePageId) (io : Transfers) :
    PoolAnswer × PageObjects n :=
  match state.pool.acquire fpId io with
  | (none, pool) => (.waits, { state with pool })
  | (some (.error failure), pool) => (.failed failure, { state with pool })
  | (some (.ok frame), pool) =>
      (.page state.objects.length, { pool, objects := state.objects ++ [.owns frame] })

/-- `Page::Page(Page&&)`. -/
def moveConstruct (state : PageObjects n) (other : Nat) : PoolAnswer × PageObjects n :=
  match state.alive other with
  | none => (.noHandle, state)
  | some object =>
      (.page state.objects.length,
        { state with objects := state.objects.set other .movedFrom ++ [object] })

/-- `Page::operator=(Page&&)`: both members are overwritten, whatever they were. -/
def moveAssign (state : PageObjects n) (target other : Nat) : PoolAnswer × PageObjects n :=
  match state.alive target, state.alive other with
  | some _, some object =>
      (.done,
        if target = other then state
        else { state with objects := (state.objects.set target object).set other .movedFrom })
  | _, _ => (.noHandle, state)

/-- `Page::~Page`. -/
def destroy (state : PageObjects n) (name : Nat) : PoolAnswer × PageObjects n :=
  match state.alive name with
  | none => (.noHandle, state)
  | some (.owns frame) =>
      match state.pool.removeAccessor (state.pool.frames frame).fpId with
      | (.error failure, pool) => (.failed failure, { state with pool })
      | (.ok (), pool) => (.done, { pool, objects := state.objects.set name .destroyed })
  | some _ => (.done, { state with objects := state.objects.set name .destroyed })

def step (state : PageObjects n) : PageObjectOp → PoolAnswer × PageObjects n
  | .getPage fpId io => state.getPage fpId io
  | .moveConstruct other => state.moveConstruct other
  | .moveAssign target other => state.moveAssign target other
  | .destroy name => state.destroy name

def new (order : IterationOrder n) (buffer : Fin n → FullPage) (disk : PageStore) : PageObjects n :=
  { pool := .new order buffer disk, objects := [] }

/-- The objects that own a frame. -/
def owners (state : PageObjects n) (frame : Fin n) : Nat := state.objects.count (.owns frame)

/-- A frame is pinned once for each object that owns it, and with every object destroyed each frame
can be evicted. -/
structure Counted (state : PageObjects n) : Prop where
  pins : ∀ frame, (state.pool.frames frame).pinCount = state.owners frame
  evictable : (∀ object ∈ state.objects, object = .destroyed) →
    ∀ frame, (state.pool.replacer.entry frame).isEvictable = true

/-- A move assignment from another object meets one that owns a page. -/
def Forgets (state : PageObjects n) : PageObjectOp → Prop
  | .moveAssign target other => target ≠ other ∧ (state.alive other).isSome = true ∧
      ∃ frame, state.objects[target]? = some (.owns frame)
  | _ => False

/-- If the call loads a page, its eviction is safe. -/
def EvictsSafely (state : PageObjects n) : PageObjectOp → Prop
  | .getPage fpId _ => state.pool.MustLoad fpId → state.pool.VictimSafe
  | _ => True

instance (state : PageObjects n) : (op : PageObjectOp) → Decidable (EvictsSafely state op)
  | .getPage fpId _ =>
      inferInstanceAs (Decidable (state.pool.MustLoad fpId → state.pool.VictimSafe))
  | .moveConstruct _ | .moveAssign _ _ | .destroy _ => .isTrue trivial

end PageObjects

def pageObjectMachine (n : Nat) : Machine (PageObjects n) PageObjectOp PoolAnswer := ⟨PageObjects.step⟩

namespace PageObjects

variable {n : Nat} {state : PageObjects n}

/-! ### Owners -/

theorem alive_some {name : Nat} {object : PageObject n} (found : state.alive name = some object) :
    state.objects[name]? = some object := by
  unfold alive at found
  split at found
  · cases found
  · exact found

/-- One object is replaced. -/
theorem count_set {objects : List (PageObject n)} {name : Nat} {object : PageObject n}
    (found : objects[name]? = some object) (new counted : PageObject n) :
    (objects.set name new).count counted + (if object = counted then 1 else 0)
      = objects.count counted + (if new = counted then 1 else 0) := by
  obtain ⟨inside, isObject⟩ := List.getElem?_eq_some_iff.mp found
  have some : object = counted → 0 < objects.count counted := by
    intro same
    rw [List.count_pos_iff, ← same, ← isObject]
    exact List.getElem_mem inside
  rw [List.count_set inside, isObject]
  simp only [beq_iff_eq]
  split
  · rename_i same
    have positive := some same
    omega
  · omega

/-- What one call does to the owners of each frame. -/
theorem owners_moveConstruct {other : Nat} {object : PageObject n}
    (found : state.objects[other]? = some object) (frame : Fin n) :
    (state.objects.set other .movedFrom ++ [object]).count (.owns frame) = state.owners frame := by
  have replaced := count_set found .movedFrom (.owns frame)
  rw [List.count_append, List.count_singleton]
  rw [if_neg (by nofun : ¬ (.movedFrom : PageObject n) = .owns frame)] at replaced
  simp only [beq_iff_eq]
  exact replaced

theorem owners_moveAssign {target other : Nat} {object overwritten : PageObject n}
    (found : state.objects[other]? = some object)
    (target_ : state.objects[target]? = some overwritten) (different : target ≠ other)
    (frame : Fin n) :
    ((state.objects.set target object).set other .movedFrom).count (.owns frame)
        + (if overwritten = .owns frame then 1 else 0) = state.owners frame := by
  have first := count_set target_ object (.owns frame)
  have still : (state.objects.set target object)[other]? = some object := by
    rw [List.getElem?_set_ne different]
    exact found
  have second := count_set still .movedFrom (.owns frame)
  rw [if_neg (by nofun : ¬ (.movedFrom : PageObject n) = .owns frame)] at second
  unfold owners
  omega

/-! ### The invariant -/

/-- The pool is in order, and a frame is pinned once for each object that owns it. -/
structure Accounted (state : PageObjects n) : Prop where
  wellFormed : state.pool.WellFormed
  pinnedMapped : state.pool.PinnedMapped
  pins : ∀ frame, (state.pool.frames frame).pinCount = state.owners frame

/-- No object owns a frame when all are destroyed. -/
theorem Accounted.counted (ok : state.Accounted) : Counted state where
  pins := ok.pins
  evictable destroyed frame := by
    refine (ok.wellFormed.flags frame).mpr ((ok.pins frame).trans (List.count_eq_zero.mpr ?_))
    intro member
    cases destroyed _ member

theorem Accounted.getPage (ok : state.Accounted) (fpId : FilePageId) (io : Transfers)
    (safe : state.pool.MustLoad fpId → state.pool.VictimSafe) :
    (state.getPage fpId io).2.Accounted := by
  have step := PageBufferManager.acquire_step state.pool fpId io
  have wf := ok.wellFormed.acquireStep step
  have pinned := ok.pinnedMapped.acquireStep ok.wellFormed safe step
  have handed : ∀ (middle : PageBufferManager n) (frame : Fin n),
      (∀ other, (middle.frames other).pinCount = (state.pool.frames other).pinCount) →
      (middle.pin frame).WellFormed → (middle.pin frame).PinnedMapped →
      Accounted { pool := middle.pin frame, objects := state.objects ++ [PageObject.owns frame] } := by
    intro middle frame counts wf pinned
    refine ⟨wf, pinned, fun other => ?_⟩
    show ((middle.pin frame).frames other).pinCount = (state.objects ++ [PageObject.owns frame]).count _
    rw [PageBufferManager.pinCount_pin, counts, ok.pins, List.count_append, List.count_singleton]
    simp only [beq_iff_eq, PageObject.owns.injEq]
    rfl
  unfold PageObjects.getPage
  generalize state.pool.acquire fpId io = result at *
  obtain ⟨outcome, pool⟩ := result
  cases step with
  | unavailable _ _ => exact ⟨wf, pinned, ok.pins⟩
  | hit frame _ => exact handed state.pool frame (fun _ => rfl) wf pinned
  | failed failure pool _ _ load =>
      exact ⟨wf, pinned, fun frame =>
        (PageBufferManager.pinCount_loadStep ok.wellFormed load frame).trans (ok.pins frame)⟩
  | loaded frame middle _ _ load _ =>
      exact handed middle frame (PageBufferManager.pinCount_loadStep ok.wellFormed load) wf pinned

/-- Moves that keep the owners. -/
theorem Accounted.setObjects (ok : state.Accounted) {objects : List (PageObject n)}
    (same : ∀ frame, objects.count (.owns frame) = state.owners frame) :
    Accounted { state with objects } :=
  ⟨ok.wellFormed, ok.pinnedMapped, fun frame => (ok.pins frame).trans (same frame).symm⟩

theorem Accounted.destroy (ok : state.Accounted) (name : Nat) :
    (state.destroy name).2.Accounted := by
  unfold PageObjects.destroy
  cases found : state.alive name with
  | none => exact ok
  | some object =>
      have isObject := alive_some found
      cases object with
      | owns frame =>
          have owner : PageObject.owns frame ∈ state.objects := List.mem_of_getElem? isObject
          have pinned : (state.pool.frames frame).pinCount ≠ 0 := by
            rw [ok.pins]
            exact (List.count_pos_iff.mpr owner).ne'
          have mapped := ok.pinnedMapped frame pinned
          rcases state.pool.removeAccessor_cases (state.pool.frames frame).fpId with
            ⟨unmapped, _⟩ | ⟨holder, isHolder, unpinned, _⟩ | ⟨holder, isHolder, _, run⟩
          · cases unmapped.symm.trans mapped
          · cases isHolder.symm.trans mapped
            exact absurd unpinned pinned
          · cases isHolder.symm.trans mapped
            simp only [run]
            refine ⟨ok.wellFormed.unpin pinned, ok.pinnedMapped.unpin pinned, fun other => ?_⟩
            have before := PageBufferManager.pinCount_unpin pinned other
            have replaced := count_set isObject .destroyed (.owns other)
            rw [if_neg (by nofun : ¬ (.destroyed : PageObject n) = .owns other)] at replaced
            simp only [PageObject.owns.injEq] at replaced
            rw [ok.pins] at before
            show ((state.pool.unpin frame).frames other).pinCount
              = (state.objects.set name PageObject.destroyed).count (.owns other)
            unfold owners at before
            omega
      | movedFrom =>
          refine ok.setObjects fun frame => ?_
          have replaced := count_set isObject .destroyed (.owns frame)
          rw [if_neg (by nofun), if_neg (by nofun)] at replaced
          exact replaced
      | destroyed =>
          refine ok.setObjects fun frame => ?_
          have replaced := count_set isObject .destroyed (.owns frame)
          rw [if_neg (by nofun)] at replaced
          exact replaced

/-! ### One call -/

/-- **What a move assignment does to the owners**: the frame that the target owned loses one. -/
theorem moveAssign_cases (state : PageObjects n) (target other : Nat) :
    (¬ Forgets state (.moveAssign target other) ∧
        (state.moveAssign target other).2.pool = state.pool ∧
        ∀ frame, (state.moveAssign target other).2.owners frame = state.owners frame) ∨
      (Forgets state (.moveAssign target other) ∧
        (state.moveAssign target other).2.pool = state.pool ∧
        ∃ lost, (state.moveAssign target other).2.owners lost + 1 = state.owners lost) := by
  unfold PageObjects.moveAssign
  cases found : state.alive target with
  | none =>
      refine Or.inl ⟨?_, rfl, fun _ => rfl⟩
      rintro ⟨_, _, frame, isTarget⟩
      unfold alive at found
      rw [isTarget] at found
      cases found
  | some overwritten =>
      cases source : state.alive other with
      | none =>
          refine Or.inl ⟨?_, rfl, fun _ => rfl⟩
          rintro ⟨_, isSome, _⟩
          rw [source] at isSome
          cases isSome
      | some object =>
          by_cases same : target = other
          · dsimp only
            rw [if_pos same]
            exact Or.inl ⟨fun forgets => forgets.1 same, rfl, fun _ => rfl⟩
          · dsimp only
            rw [if_neg same]
            have isTarget := alive_some found
            have moved := owners_moveAssign (alive_some source) isTarget same
            cases overwritten with
            | owns lost =>
                refine Or.inr ⟨⟨same, by rw [source]; rfl, lost, isTarget⟩, rfl, lost, ?_⟩
                have lower := moved lost
                rw [if_pos rfl] at lower
                exact lower
            | movedFrom =>
                refine Or.inl ⟨?_, rfl, fun frame => ?_⟩
                · rintro ⟨_, _, frame, owned⟩
                  cases owned.symm.trans isTarget
                · have kept := moved frame
                  rw [if_neg (by nofun)] at kept
                  exact kept
            | destroyed =>
                unfold alive at found
                rw [isTarget] at found
                cases found

/-- **One call keeps the account**, unless it forgets a pin or its eviction is not safe. -/
theorem accounted_step (ok : state.Accounted) {op : PageObjectOp} (safe : EvictsSafely state op)
    (keeps : ¬ Forgets state op) : ((pageObjectMachine n).next state op).Accounted := by
  cases op with
  | getPage fpId io => exact ok.getPage fpId io safe
  | moveConstruct other =>
      show (state.moveConstruct other).2.Accounted
      unfold PageObjects.moveConstruct
      cases found : state.alive other with
      | none => exact ok
      | some object => exact ok.setObjects (owners_moveConstruct (alive_some found))
  | moveAssign target other =>
      show (state.moveAssign target other).2.Accounted
      rcases state.moveAssign_cases target other with ⟨_, pool, owners⟩ | ⟨forgets, _⟩
      · refine ⟨pool ▸ ok.wellFormed, pool ▸ ok.pinnedMapped, fun frame => ?_⟩
        rw [pool, owners, ok.pins]
      · exact absurd forgets keeps
  | destroy name => exact ok.destroy name

/-- **A move assignment that forgets a pin breaks the count.** -/
theorem forgets_of_counted (ok : state.Accounted) {op : PageObjectOp}
    (counted : Counted ((pageObjectMachine n).next state op)) : ¬ Forgets state op := by
  cases op with
  | moveAssign target other =>
      have counted : Counted (state.moveAssign target other).2 := counted
      rcases state.moveAssign_cases target other with ⟨keeps, _⟩ | ⟨_, pool, lost, owners⟩
      · exact keeps
      · have pins := counted.pins lost
        rw [pool, ok.pins] at pins
        omega
  | getPage fpId io => exact id
  | moveConstruct other => exact id
  | destroy name => exact id

/-! ### Runs -/

theorem new_accounted (order : IterationOrder n) (buffer : Fin n → FullPage) (disk : PageStore) :
    (PageObjects.new order buffer disk).Accounted :=
  ⟨PageBufferManager.new_wellFormed order buffer disk, fun _ pinned => absurd rfl pinned,
    fun _ => rfl⟩

/-- Over runs whose evictions are safe. -/
theorem counted_along (ok : state.Accounted) (ops : List PageObjectOp)
    (safe : (pageObjectMachine n).Along EvictsSafely state ops) :
    (pageObjectMachine n).Always Counted state ops ↔
      (pageObjectMachine n).Along (fun state op => ¬ Forgets state op) state ops :=
  Machine.always_iff_along (J := Accounted) (fun _ _ ok safe keeps => accounted_step ok safe keeps)
    (fun _ ok => ok.counted) (fun _ _ ok _ counted => forgets_of_counted ok counted) ok safe

/-- A store whose file 5 has one page. -/
def onePage : PageStore := ((System.emptyStore.createFile 5).2.allocatePage 5 0 fun _ => 0).2

/-- A page is got twice, and one object assigned to the other. -/
def assignOver : List PageObjectOp := [.getPage ⟨5, 0⟩ {}, .getPage ⟨5, 0⟩ {}, .moveAssign 0 1]

end PageObjects

end Yadb
