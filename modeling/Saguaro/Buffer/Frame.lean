/-
Frames of the buffer pool (`Frame`, `DirtyMeta` in `crates/buffer/src/pool.rs`).

Everything that `Frame` does under its metadata lock is a function here. The bytes of a
page are a type parameter. The id of the last writer (`dirty_txn_id`) is only handed to
the flush policy, which does not look at it, and is left out; so is the frame's key,
which is the key it is found under.
-/

import Saguaro.Wal.File

namespace Saguaro.Buffer

open Wal (WalPosition)

abbrev FileId := UInt32

abbrev PageKey := FileId × UInt32

structure CheckpointFlushState where
  capturedGeneration : Nat
  capturedPageLsn : Nat
  firstRedirtyLsn : Option Nat
  deriving DecidableEq, Repr

structure BulkFlushState where
  capturedGeneration : Nat
  capturedPageLsn : Option Nat
  deriving DecidableEq, Repr

structure DirtyMeta where
  recLsn : Option Nat
  latestPageLsn : Option Nat
  generation : Nat
  checkpointFlush : Option CheckpointFlushState
  bulkFlush : Option BulkFlushState
  deriving DecidableEq, Repr

structure Frame (π : Type) where
  data : π
  pinCount : Nat
  dirty : Bool
  dirtyMeta : DirtyMeta
  referenceBit : Bool
  needsFpi : Bool
  evicting : Bool
  checkpointFlushing : Bool
  deriving DecidableEq, Repr

namespace Frame

variable {π : Type}

def new (data : π) (dirty needsFpi : Bool) : Frame π :=
  ⟨data, 0, dirty, ⟨none, none, 0, none, none⟩, true, needsFpi, false, false⟩

def pin (f : Frame π) : Frame π := { f with pinCount := f.pinCount + 1, referenceBit := true }

def unpin (f : Frame π) : Frame π := { f with pinCount := f.pinCount - 1 }

/-- The metadata after a change that is logged at `position`. -/
def publishMeta (m : DirtyMeta) (position : WalPosition) : DirtyMeta := { m with
    generation := m.generation + 1
    recLsn := m.recLsn.or (some position.replayFrom)
    latestPageLsn := some position.recordLsn
    checkpointFlush := m.checkpointFlush.map fun flush =>
      { flush with
        firstRedirtyLsn :=
          some ((flush.firstRedirtyLsn.map (min · position.replayFrom)).getD position.replayFrom) } }

/-- `publish_mutation`. -/
def publishMutation (f : Frame π) (position : WalPosition) : Result (Frame π) :=
  if f.dirtyMeta.generation + 1 < 2 ^ 64 then
    .ok { f with dirtyMeta := publishMeta f.dirtyMeta position, dirty := true }
  else .error (.internal "page mutation generation overflow")

theorem eq_of_publishMutation {f g : Frame π} {pos : WalPosition}
    (pub : f.publishMutation pos = .ok g) :
    g = { f with dirtyMeta := publishMeta f.dirtyMeta pos, dirty := true } := by
  unfold publishMutation at pub
  split at pub
  · exact (Except.ok.inj pub).symm
  · cases pub

/-- `mark_clean`. -/
def markClean (f : Frame π) : Frame π := { f with
    dirtyMeta := { f.dirtyMeta with recLsn := none, latestPageLsn := none, checkpointFlush := none }
    dirty := false
    needsFpi := true }

/-- The part of `flush_checkpoint_batch` that takes the image of a dirty frame, under its
latch. -/
def captureCheckpoint (f : Frame π) : Result (Frame π) :=
  match f.dirtyMeta.latestPageLsn with
  | none => .error (.storage .internalError "dirty checkpoint candidate has no PageLSN")
  | some pageLsn =>
    .ok { f with
      dirtyMeta := { f.dirtyMeta with
        checkpointFlush := some ⟨f.dirtyMeta.generation, pageLsn, none⟩ }
      needsFpi := true }

/-- The part of `flush_checkpoint_batch` that follows the fsync: the frame becomes clean if
nothing was published since its image was taken. -/
def finishCheckpoint (f : Frame π) : Result (Frame π) :=
  match f.dirtyMeta.checkpointFlush with
  | none => .error (.storage .internalError "checkpoint flush reservation disappeared")
  | some flush =>
    let m := { f.dirtyMeta with checkpointFlush := none }
    if m.generation = flush.capturedGeneration ∧ m.latestPageLsn = some flush.capturedPageLsn ∧
        flush.firstRedirtyLsn = none then
      .ok { f with
        dirtyMeta := { m with recLsn := none, latestPageLsn := none }
        dirty := false
        checkpointFlushing := false }
    else match flush.firstRedirtyLsn with
      | none => .error (.storage .internalError
          "checkpoint candidate changed without a published WAL position")
      | some redirtyLsn =>
        .ok { f with dirtyMeta := { m with recLsn := some redirtyLsn }, checkpointFlushing := false }

/-- One frame of `clear_checkpoint_reservations`. -/
def clearCheckpoint (f : Frame π) : Frame π :=
  { f with dirtyMeta := { f.dirtyMeta with checkpointFlush := none }, checkpointFlushing := false }

/-- The metadata that a file-scoped flush records once it has copied the image. -/
def captureBulk (f : Frame π) : Frame π := { f with dirtyMeta := { f.dirtyMeta with
      bulkFlush := some ⟨f.dirtyMeta.generation, f.dirtyMeta.latestPageLsn⟩ } }

/-- `finish_bulk_flush`. -/
def finishBulkFlush (f : Frame π) : Result (Frame π) :=
  if f.checkpointFlushing then
    .error (.storage .internalError "cannot mark a page clean during checkpoint flush")
  else match f.dirtyMeta.bulkFlush with
    | none => .ok f
    | some flush =>
      let m := { f.dirtyMeta with bulkFlush := none }
      if m.generation = flush.capturedGeneration ∧ m.latestPageLsn = flush.capturedPageLsn then
        .ok { f with
          dirtyMeta := { m with recLsn := none, latestPageLsn := none, checkpointFlush := none }
          dirty := false
          needsFpi := true
          evicting := false }
      else .ok { f with dirtyMeta := m, evicting := false }

/-- One frame of `clear_bulk_flush_reservations`. -/
def clearBulk (f : Frame π) : Frame π :=
  { f with dirtyMeta := { f.dirtyMeta with bulkFlush := none }, evicting := false }

end Frame

end Saguaro.Buffer
