/-
Threads on the buffer pool (`MemoryBufferPool` in `crates/buffer/src/pool.rs`).

Every operation of every thread is a task, and so is every guard; a thread that holds two
guards has two tasks. A step of a task is what it does under one hold of the pool lock, of
a frame's latch or of its metadata, or one call of the page store. A task that has to wait
or to retry has no step. The latch of a frame is held by the tasks that read or write it.

A page is written and read as a whole; what a crash can do to a write is the subject of
`Saguaro.Recovery`. Every call of the store and of the flush policy can fail (`World.fail`), and
a write that fails may leave anything in the page. A writer's changes appear at once, with
`publish_position`, since nobody can read the page before that. `latest` is not part of
the program: it is the last content published for a page, at first what is on disk.
-/

import Saguaro.Buffer.Pool
import Saguaro.Lib.Transition

namespace Saguaro.Buffer

open Wal (WalPosition)

variable {π : Type}

inductive Access where
  | read
  | write

/-- What `with_room` tries: the insertion of a loaded page, or the allocation of a new one. -/
inductive Attempt (π : Type) where
  | insert (access : Access) (key : PageKey) (data : π)
  | allocate (fileId : FileId)

inductive Task (π : Type) where
  | finished
  | lookup (access : Access) (key : PageKey)
  | load (access : Access) (key : PageKey)
  | seed (fileId : FileId)
  | withRoom (attempt : Attempt π)
  | makeRoom (attempt : Attempt π)
  | steal (attempt : Attempt π) (id : Nat)
  | stealWrite (attempt : Attempt π) (id : Nat) (image : π)
  | stealFinish (attempt : Attempt π) (id : Nat)
  /-- A steal that has failed still has its pin. -/
  | stealAbort (id : Nat)
  | pinned (access : Access) (id : Nat)
  | reading (id : Nat)
  | writing (id : Nat)
  -- `flush_checkpoint_batch`
  | batch (candidates : List PageKey)
  | capture (reserved : List Nat) (captured : List (Nat × π))
  | flush (pending written : List (Nat × π))
  | settle (todo captured : List (Nat × π))
  -- `flush_dirty_pages_for_files`
  | files (fileIds : List FileId)
  | copy (fileIds : List FileId) (todo : List Nat) (written : List (Nat × π))
  | record (fileIds : List FileId) (id : Nat) (image : π) (todo : List Nat) (written : List (Nat × π))
  | writeHome (fileIds : List FileId) (id : Nat) (image : π) (todo : List Nat)
      (written : List (Nat × π))
  | finishFiles (fileIds : List FileId) (written : List (Nat × π))

namespace Task

def reads (id : Nat) : Task π → Bool
  | .reading id' => id' = id
  | _ => false

def writes (id : Nat) : Task π → Bool
  | .writing id' => id' = id
  | _ => false

end Task

structure World (π : Type) where
  pool : PoolState π
  disk : PageKey → Option π
  /-- `page_count` of the store. -/
  extent : FileId → UInt32
  tasks : List (Task π)
  latest : PageKey → Option π

namespace World

variable (w : World π)

def become (i : Nat) (t : Task π) : World π := { w with tasks := w.tasks.set i t }

def withPool (pool : PoolState π) : World π := { w with pool }

def updateFrame (id : Nat) (change : Frame π → Frame π) : World π :=
  w.withPool (w.pool.updateFrame id change)

def updateFrames (ids : List Nat) (change : Frame π → Frame π) : World π :=
  ids.foldl (fun w id => w.updateFrame id change) w

/-- `write_page` of the store. -/
def writePage (key : PageKey) (image : π) : World π := { w with
    disk := Function.update w.disk key (some image)
    extent := Function.update w.extent key.1
      (max (w.extent key.1) (PoolState.saturatingSucc key.2)) }

/-- A `write_page` that fails, with the bytes that it leaves in the page if it changes them. -/
def leavePage (key : PageKey) (left : Option π) : World π := left.elim w (w.writePage key)

/-- The frame with the key that it is found under. -/
def entry (id : Nat) : Option (PageKey × Frame π) := w.pool.heap[id]?

def writeLatched (id : Nat) : Bool := w.tasks.any (·.writes id)

def latched (id : Nat) : Bool := w.tasks.any fun t => t.reads id || t.writes id

/-! ### Reservations that are made under one hold of the pool lock -/

/-- A candidate of `flush_checkpoint_batch`. -/
def reserveCandidate (i : Nat) (reserved : List Nat) (key : PageKey) : List Nat × World π :=
  match w.pool.frames.lookup key with
  | none => (reserved, w)
  | some id =>
    if (w.pool.frame id).any fun f => f.evicting || f.checkpointFlushing then (reserved, w)
    else (reserved ++ [id],
      (w.updateFrame id fun f => { f with checkpointFlushing := true }).become i
        (.capture (reserved ++ [id]) []))

/-- All candidates, in order. -/
def reserveCandidates (i : Nat) : List Nat → List PageKey → World π → World π
  | _, [], w => w
  | reserved, key :: rest, w =>
    let (reserved, w) := w.reserveCandidate i reserved key
    reserveCandidates i reserved rest w

/-- The dirty frames of some files. -/
def dirtyOf (fileIds : List FileId) : List Nat := (w.pool.frames.entries.filter fun e =>
    e.1.1 ∈ fileIds && (w.pool.frame e.2).any (·.dirty)).map (·.2)

/-- `abort_bulk_flush_for_files`. -/
def abortFiles (fileIds : List FileId) : World π :=
  w.updateFrames ((w.pool.frames.entries.filter (·.1.1 ∈ fileIds)).map (·.2)) (·.clearBulk)

/-- `finish_bulk_flush_for_files`: an error ends it. -/
def finishFiles (fileIds : List FileId) : List (Sigma fun _ : PageKey => Nat) → World π → World π
  | [], w => w
  | ⟨key, id⟩ :: rest, w =>
    if key.1 ∈ fileIds then
      match w.pool.frame id with
      | none => w
      | some f =>
        match f.finishBulkFlush with
        | .error _ => w
        | .ok g => finishFiles fileIds rest (w.updateFrame id fun _ => g)
    else finishFiles fileIds rest w

end World

variable (config : PoolConfig) (empty : π)

/-- The next step of a task. -/
def World.advance (w : World π) (i : Nat) : Option (World π) := do
  match ← w.tasks[i]? with
  | .finished | .reading _ | .writing _ => none
  | .lookup access key =>
    match w.pool.frames.lookup key with
    | none => some (w.become i (.load access key))
    | some id =>
      if (w.pool.frame id).any (·.evicting) then none
      else some ((w.updateFrame id (·.pin)).become i (.pinned access id))
  | .load access key =>
    match w.disk key with
    | none => some (w.become i .finished)
    | some data => some (w.become i (.withRoom (.insert access key data)))
  | .seed fileId =>
    some ((w.withPool (w.pool.ensureExtentSeeded fileId (w.extent fileId))).become i
      (.withRoom (.allocate fileId)))
  | .withRoom (.insert access key data) =>
    match w.pool.getOrInsertClean config.frameCount key data with
    | none => some (w.become i (.makeRoom (.insert access key data)))
    | some (id, pool) =>
      some (((w.withPool (pool.advanceNextPageNum key.1 key.2)).updateFrame id (·.pin)).become i
        (.pinned access id))
  | .withRoom (.allocate fileId) =>
    if config.frameCount ≤ w.pool.frames.keys.length then
      some (w.become i (.makeRoom (.allocate fileId)))
    else
      let pageNum := w.pool.nextPageNum fileId
      match w.pool.insertFreshFrame empty (fileId, pageNum) with
      | .error _ => some (w.become i .finished)
      | .ok (id, pool) =>
        some (((w.withPool (pool.advanceNextPageNum fileId pageNum)).updateFrame id (·.pin)).become
          i (.pinned .write id))
  | .makeRoom attempt =>
    if w.pool.frames.keys.length < config.frameCount then some (w.become i (.withRoom attempt))
    else match w.pool.reclaimVictim config with
      | (.freedClean, pool) => some ((w.withPool pool).become i (.withRoom attempt))
      | (.reservedDirty id, pool) => some ((w.withPool pool).become i (.steal attempt id))
      | (.noVictim, pool) => some ((w.withPool pool).become i .finished)
  | .steal attempt id => do
      let f ← w.pool.frame id
      if w.writeLatched id then none else some (w.become i (.stealWrite attempt id f.data))
  | .stealWrite attempt id image => do
      let (key, _) ← w.entry id
      some ((w.writePage key image).become i (.stealFinish attempt id))
  | .stealFinish attempt id => do
      let (key, f) ← w.entry id
      let w := w.updateFrame id (·.unpin)
      if f.unpin.pinCount = 0 then
        some (((w.updateFrame id (·.markClean)).withPool
          ((w.updateFrame id (·.markClean)).pool.removeFrame key)).become i (.withRoom attempt))
      else some ((w.updateFrame id fun f => { f with evicting := false }).become i (.makeRoom attempt))
  | .stealAbort id => some ((w.updateFrame id (·.unpin)).become i .finished)
  | .pinned .read id => if w.writeLatched id then none else some (w.become i (.reading id))
  | .pinned .write id => if w.latched id then none else some (w.become i (.writing id))
  | .batch candidates => some (World.reserveCandidates i [] candidates (w.become i (.capture [] [])))
  | .capture [] captured => some (w.become i (.flush captured []))
  | .capture (id :: reserved) captured => do
      let f ← w.pool.frame id
      let release := fun f : Frame π => { f with checkpointFlushing := false }
      if w.latched id ∨ f.dirty = false then
        some ((w.updateFrame id release).become i (.capture reserved captured))
      else match f.captureCheckpoint with
        | .error _ =>
          some (((w.updateFrame id release).updateFrames (captured.map (·.1))
            (·.clearCheckpoint)).become i .finished)
        | .ok g =>
          some ((w.updateFrame id fun _ => g).become i
            (.capture reserved (captured ++ [(id, f.data)])))
  | .flush [] written => some (w.become i (.settle written written))
  | .flush ((id, image) :: pending) written => do
      let (key, _) ← w.entry id
      some ((w.writePage key image).become i (.flush pending (written ++ [(id, image)])))
  | .settle [] _ => some (w.become i .finished)
  | .settle ((id, _) :: todo) captured => do
      let f ← w.pool.frame id
      match f.finishCheckpoint with
      | .error _ =>
        some ((w.updateFrames (captured.map (·.1)) (·.clearCheckpoint)).become i .finished)
      | .ok g => some ((w.updateFrame id fun _ => g).become i (.settle todo captured))
  | .files fileIds =>
    let dirty := w.dirtyOf fileIds
    if dirty.any fun id => (w.pool.frame id).any fun f => f.evicting || f.checkpointFlushing then none
    else some ((w.updateFrames dirty fun f => { f with evicting := true }).become i
      (.copy fileIds dirty []))
  | .copy fileIds [] written => some (w.become i (.finishFiles fileIds written))
  | .copy fileIds (id :: todo) written => do
      let f ← w.pool.frame id
      if config.canFlush f.dirtyMeta.latestPageLsn = false then
        some ((w.updateFrames (id :: todo ++ written.map (·.1)) (·.clearBulk)).become i .finished)
      else if w.writeLatched id then none
      else some (w.become i (.record fileIds id f.data todo written))
  | .record fileIds id image todo written =>
    some ((w.updateFrame id (·.captureBulk)).become i (.writeHome fileIds id image todo written))
  | .writeHome fileIds id image todo written => do
      let (key, _) ← w.entry id
      some ((w.writePage key image).become i (.copy fileIds todo (written ++ [(id, image)])))
  | .finishFiles fileIds _ =>
    some ((World.finishFiles fileIds w.pool.frames.entries w).become i .finished)

/-- The call of the store or of the flush policy that a task makes next fails. Then a steal
makes its victim usable again, a checkpoint batch and a file flush clear their reservations, and
a file flush whose pages are written but not synced clears those of all frames of its files. -/
def World.fail (w : World π) (i : Nat) (left : Option π) : Option (World π) := do
  match ← w.tasks[i]? with
  | .load _ _ => some (w.become i .finished)
  | .seed fileId =>
    if fileId ∈ w.pool.extentSeeded then none else some (w.become i .finished)
  | .steal _ id | .stealFinish _ id =>
    some ((w.updateFrame id fun f => { f with evicting := false }).become i (.stealAbort id))
  | .stealWrite _ id _ => do
      let (key, _) ← w.entry id
      some (((w.leavePage key left).updateFrame id fun f => { f with evicting := false }).become i
        (.stealAbort id))
  | .flush [] written =>
    some ((w.updateFrames (written.map (·.1)) (·.clearCheckpoint)).become i .finished)
  | .flush ((id, image) :: pending) written => do
      let (key, _) ← w.entry id
      some (((w.leavePage key left).updateFrames ((((id, image) :: pending) ++ written).map (·.1))
        (·.clearCheckpoint)).become i .finished)
  -- `ensure_durable` comes before the first page, and `sync_files` after the last
  | .copy fileIds [] _ => some ((w.abortFiles fileIds).become i .finished)
  | .copy _ (id :: todo) [] =>
    some ((w.updateFrames (id :: todo) (·.clearBulk)).become i .finished)
  | .writeHome _ id _ todo written => do
      let (key, _) ← w.entry id
      some (((w.leavePage key left).updateFrames (id :: (todo ++ written.map (·.1)))
        (·.clearBulk)).become i .finished)
  | _ => none

/-! ### Events -/

inductive Operation where
  | readPage (key : PageKey)
  | writePage (key : PageKey)
  | newPage (fileId : FileId)
  | flushCheckpointBatch (candidates : List PageKey)
  | flushDirtyPagesForFiles (fileIds : List FileId)

def Operation.task : Operation → Task π
  | .readPage key => .lookup .read key
  | .writePage key => .lookup .write key
  | .newPage fileId => .seed fileId
  | .flushCheckpointBatch candidates => .batch candidates
  | .flushDirtyPagesForFiles fileIds => .files fileIds

inductive Event (π : Type) where
  | start (operation : Operation)
  | advance (i : Nat)
  | fail (i : Nat) (left : Option π)
  | publish (i : Nat) (data : π) (position : WalPosition)
  | dropGuard (i : Nat)

def World.step (w : World π) : Event π → Option (World π)
  | .start operation => some { w with tasks := w.tasks ++ [operation.task] }
  | .advance i => w.advance config empty i
  | .fail i left => w.fail i left
  | .publish i data position => do
      match ← w.tasks[i]? with
      | .writing id => do
          let (key, f) ← w.entry id
          let f ← ({ f with data }.publishMutation position).toOption
          return { w.updateFrame id fun _ => f with
            latest := Function.update w.latest key (some data) }
      | _ => none
  | .dropGuard i => do
      match ← w.tasks[i]? with
      | .reading id | .writing id => some ((w.updateFrame id (·.unpin)).become i .finished)
      | _ => none

/-- A pool that nothing has been loaded into. -/
def World.booted (disk : PageKey → Option π) (extent : FileId → UInt32) : World π where
  pool := ⟨[], ∅, [], 0, ∅, []⟩
  disk := disk
  extent := extent
  tasks := []
  latest := disk

end Saguaro.Buffer
