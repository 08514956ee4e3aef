/-
The segment files of the WAL (`crates/wal/src/segment.rs`).

The log is one byte stream cut into segments of a fixed payload size; a metadata
file records the replay floor and the durable end. The functions below are the
source's, as programs whose steps can fail or be interrupted (`Saguaro.Crash`).

The disk is what the directory holds *now*; what survives a crash is `Crash`: the
metadata and snapshot files (they are replaced by rename), and of every complete
segment the bytes that were synced, followed by anything. A segment file that was
being created, or that was removed without a later sync of the directory, can come
back as anything.

Header bytes are not modelled: a header is either what `encode_segment_header`
writes for a number, or torn, or the file is shorter than a header.
-/

import Saguaro.Common.Error
import Saguaro.Lib.AssocMap
import Saguaro.Lib.Bytes
import Saguaro.Lib.Crash

namespace Saguaro.Wal

open Crash

/-- `SEGMENT_PAYLOAD_BYTES`, as a parameter. -/
structure Geometry where
  payloadBytes : Nat
  pos : 0 < payloadBytes

/-- The source's segment size. -/
def Geometry.source : Geometry := ⟨16 * 1024 * 1024, by decide⟩

inductive SegmentHeader where
  | short
  | torn
  | valid (number : Nat)
  deriving DecidableEq, Repr

/-- A segment file: its header, the payload after it, and how many payload bytes
are known to be on stable storage. -/
structure Segment where
  header : SegmentHeader
  payload : Bytes
  synced : Nat
  deriving DecidableEq, Repr

structure WalMeta where
  replayFloor : Nat
  durableEnd : Nat
  deriving DecidableEq, Repr

/-- The data directory, as far as the WAL manager reads and writes it. `unlinked`
are the segments removed since the last sync of the directory. -/
structure Disk where
  walDir : Bool
  walMeta : Option WalMeta
  segments : AList fun _ : Nat => Segment
  unlinked : List Nat
  clog : Option Bytes
  manifest : Bool
  deriving DecidableEq

def Disk.empty : Disk := ⟨false, none, ∅, [], none, false⟩

namespace Segment

/-- Overwrite or extend the payload at `offset`; a gap would be filled with zeros. -/
def write (segment : Segment) (offset : Nat) (bytes : Bytes) : Segment :=
  let padded := segment.payload ++ List.replicate (offset - segment.payload.length) 0
  { segment with payload := padded.take offset ++ bytes ++ padded.drop (offset + bytes.length) }

def sync (segment : Segment) : Segment := { segment with synced := segment.payload.length }

def setLen (segment : Segment) (length : Nat) : Segment := { segment with
    payload := (segment.payload ++ List.replicate (length - segment.payload.length) 0).take length
    synced := min segment.synced length }

end Segment

def Disk.writeAt (disk : Disk) (number offset : Nat) (bytes : Bytes) : Disk :=
  { disk with segments := disk.segments.modify number (Segment.write · offset bytes) }

/-- A segment file with this header and nothing after it. -/
def Disk.putHeader (disk : Disk) (number : Nat) (header : SegmentHeader) : Disk :=
  { disk with segments := disk.segments.insert number ⟨header, [], 0⟩ }

variable (geometry : Geometry)

/-! ### Files and directory -/

def segmentNumbers : Prog DbError Disk (List Nat) :=
  .read (fun disk => .ok disk.segments.keys) (.io "failed to list WAL directory")

def segmentExists (number : Nat) : Prog DbError Disk Bool :=
  .gets fun disk => (disk.segments.lookup number).isSome

def syncDir : Prog DbError Disk Unit :=
  .atomic (fun disk => { disk with unlinked := [] }) (.io "failed to sync WAL directory")

/-- `remove_segment`: a missing file is no error. -/
def removeSegment (number : Nat) : Prog DbError Disk Unit := .atomic (fun disk => { disk with
      segments := disk.segments.erase number
      unlinked := number :: disk.unlinked })
    (.io "failed to remove WAL segment")

def syncSegment (number : Nat) : Prog DbError Disk Unit :=
  .atomic (fun disk => { disk with segments := disk.segments.modify number Segment.sync })
    (.io "failed to fsync WAL segment")

/-- `write_all` at a payload offset; disturbed, it has written a part. -/
def writeSegment (number offset : Nat) (bytes : Bytes) : Prog DbError Disk Unit :=
  .step (fun disk => disk.writeAt number offset bytes)
    (fun progress disk => disk.writeAt number offset (bytes.take progress))
    (.io "failed to append WAL segment")

def setSegmentLen (number length : Nat) : Prog DbError Disk Unit :=
  .atomic (fun disk => { disk with segments := disk.segments.modify number (Segment.setLen · length) })
    (.io "failed to truncate WAL segment")

/-- The header of a freshly created file is written and synced; disturbed, the file
is shorter than a header or has a torn one. -/
def writeHeader (number : Nat) : Prog DbError Disk Unit :=
  .step (fun disk => disk.putHeader number (.valid number))
    (fun progress disk => disk.putHeader number (if progress = 0 then .short else .torn))
    (.io "failed to write WAL segment header")

/-- `create_segment`. -/
def createSegment (number : Nat) : Prog DbError Disk Unit := do
  let found ← segmentExists number
  .ensure (!found) (.io "failed to create WAL segment")
  .atomic (fun disk => disk.putHeader number .short) (.io "failed to create WAL segment")
  .tryCatch (writeHeader number) fun err => do
    removeSegment number
    syncDir
    .throw err
  syncDir

/-- `validate_segment_header`. -/
def validateSegmentHeader (number : Nat) (segment : Segment) : Result Unit :=
  match segment.header with
  | .short => .error (walError "incomplete WAL segment header")
  | .torn => .error (walError "WAL segment header mismatch")
  | .valid stored =>
    if stored = number then .ok () else .error (walError "WAL segment number mismatch")

/-- `open_segment`. -/
def openSegment (number : Nat) : Prog DbError Disk Segment := .read (fun disk =>
      match disk.segments.lookup number with
      | none => .error (.io "failed to open WAL segment")
      | some segment => (validateSegmentHeader number segment).map fun _ => segment)
    (.io "failed to open WAL segment")

/-- Open a segment, or create it when there is no such file. -/
def openOrCreate (number : Nat) : Prog DbError Disk Unit :=
  .tryCatch (do let _ ← openSegment number) fun err => do
    let found ← segmentExists number
    if found then .throw err else createSegment number

/-! ### Metadata -/

structure MetaWriteFailure where
  error : DbError
  replacementVisible : Bool
  deriving DecidableEq, Repr

/-- `write_meta_with_outcome`: a temporary file, a rename and a directory sync. -/
def writeMetaWithOutcome (new : WalMeta) : Prog DbError Disk (Except MetaWriteFailure Unit) :=
  .tryCatch (do
      .atomic id (.io "failed to write WAL metadata")
      .atomic (fun disk => { disk with walMeta := some new }) (.io "failed to replace WAL metadata")
      .tryCatch (do syncDir; return .ok ()) fun error => return .error ⟨error, true⟩)
    fun error => return .error ⟨error, false⟩

/-- `write_meta`. -/
def writeMeta (new : WalMeta) : Prog DbError Disk Unit := do
  match ← writeMetaWithOutcome new with
  | .ok () => return ()
  | .error failure => .throw failure.error

/-- `load_meta`. -/
def loadMeta : Prog DbError Disk WalMeta := .read (fun disk =>
      match disk.walMeta with
      | some found => .ok found
      | none => .error (.io "failed to read WAL metadata"))
    (.io "failed to read WAL metadata")

/-- `initialize`, with metadata present: segment 0 is made again when nothing in it
can have been durable, and must not be missing otherwise. -/
def initializeFirst (found : WalMeta) (hasDurableState : Bool) : Prog DbError Disk Unit := do
  let firstExists ← segmentExists (found.replayFloor / geometry.payloadBytes)
  if firstExists then
    .when (found.replayFloor = 0 && found.durableEnd = 0 && !hasDurableState) do
      removeSegment 0
      syncDir
      createSegment 0
  else do
    .ensure (found.replayFloor = 0 && !hasDurableState)
      (walError "WAL segment is missing beside initialized durable state")
    createSegment 0

/-- `initialize`, without metadata. -/
def initializeMeta : Prog DbError Disk Unit := do
  let firstExists ← segmentExists 0
  .when firstExists do
    let _ ← openSegment 0
  writeMeta ⟨0, 0⟩
  .when (!firstExists) (createSegment 0)

/-- `initialize`, once the WAL directory is there. -/
def initializeFiles (hasMeta hasDurableState : Bool) : Prog DbError Disk Unit :=
  if hasMeta then do
    let found ← loadMeta
    initializeFirst geometry found hasDurableState
  else do
    .ensure (!hasDurableState)
      (walError "WAL metadata is missing beside existing durable database state")
    initializeMeta

/-- `initialize`. -/
def initializeWal : Prog DbError Disk Unit := do
  let disk ← .gets id
  let hasDurableState := disk.manifest || disk.clog.isSome
  .ensure (disk.walDir || !hasDurableState)
    (walError "segmented WAL is missing beside existing durable database state")
  .when (!disk.walDir)
    (.atomic (fun disk => { disk with walDir := true }) (.io "failed to create WAL directory"))
  initializeFiles geometry disk.walMeta.isSome hasDurableState
  .atomic id (.io "failed to sync data directory")

/-! ### The end of the stream -/

/-- The last segment that can hold durable bytes. -/
def lastWithDurableBytes (replayFloor durableEnd : Nat) : Nat :=
  if durableEnd > replayFloor ∧ durableEnd % geometry.payloadBytes = 0 then
    durableEnd / geometry.payloadBytes - 1
  else durableEnd / geometry.payloadBytes

/-- Remove each of the listed segments, and sync the directory if there were any. -/
def removeAll (numbers : List Nat) : Prog DbError Disk Unit := do
  .forEach removeSegment numbers
  .when (!numbers.isEmpty) syncDir

/-- Drop final segments that have no complete header, down to `first`. -/
def dropIncomplete (first : Nat) : Nat → Prog DbError Disk Nat
  | 0 => .throw (walError "WAL segment number underflow")
  | highest + 1 => do
      let header ← .read (fun disk =>
          match disk.segments.lookup highest with
          | none => .error (.io "failed to stat WAL segment")
          | some segment => .ok segment.header)
        (.io "failed to stat WAL segment")
      if header ≠ .short ∨ highest = first then return highest
      else
        removeSegment highest
        syncDir
        dropIncomplete first highest

/-- Open the segments from `number` on; `left` is how many come before the last. -/
def walkSegments (number : Nat) : Nat → Prog DbError Disk Nat
  | 0 => do
      let segment ← openSegment number
      .ensure (segment.payload.length ≤ geometry.payloadBytes)
        (walError "WAL segment exceeds its fixed size")
      return number * geometry.payloadBytes + segment.payload.length
  | left + 1 => do
      let segment ← openSegment number
      .ensure (segment.payload.length ≤ geometry.payloadBytes)
        (walError "WAL segment exceeds its fixed size")
      .ensure (segment.payload.length = geometry.payloadBytes)
        (walError "non-final WAL segment is incomplete")
      walkSegments (number + 1) left

/-- `discover_end`. -/
def discoverEnd (replayFloor durableEnd : Nat) : Prog DbError Disk Nat := do
  let first := replayFloor / geometry.payloadBytes
  let last := lastWithDurableBytes geometry replayFloor durableEnd
  let numbers ← segmentNumbers
  removeAll (numbers.filter (· > last))
  let numbers ← segmentNumbers
  match (numbers.filter (· ≥ first)).max? with
  | none => .throw (walError "WAL has no segment at its replay floor")
  | some highest => do
      let highest ← dropIncomplete first (highest + 1)
      walkSegments geometry first (highest - first)

/-- `active_segment_number`. -/
def activeSegmentNumber (position : Nat) : Nat :=
  if position > 0 ∧ position % geometry.payloadBytes = 0 then position / geometry.payloadBytes - 1
  else position / geometry.payloadBytes

/-! ### Appending, truncating, recycling -/

/-- What `append_stream` works on: the files, and the number of the active one. -/
structure Appender where
  disk : Disk
  activeNumber : Nat

def Appender.onDisk {α : Type} (c : Prog DbError Disk α) : Prog DbError Appender α :=
  .zoom Appender.disk (fun disk appender => { appender with disk }) c

/-- Make `number` the active segment: the old one is synced before its successor
can be found. -/
def rollTo (number : Nat) : Prog DbError Appender Unit := do
  let active ← .gets Appender.activeNumber
  .when (number ≠ active) do
    Appender.onDisk (syncSegment active)
    Appender.onDisk (openOrCreate number)
    .modify fun appender => { appender with activeNumber := number }

/-- The loop of `append_stream`; each turn writes at least one byte, so the length
of the remaining bytes bounds the turns. -/
def appendLoop : Nat → Nat → Bytes → Prog DbError Appender Unit
  | 0, _, _ => pure ()
  | turns + 1, position, remaining =>
    if remaining.isEmpty then pure ()
    else do
      rollTo (position / geometry.payloadBytes)
      let offset := position % geometry.payloadBytes
      let take := min (geometry.payloadBytes - offset) remaining.length
      let active ← .gets Appender.activeNumber
      Appender.onDisk (writeSegment active offset (remaining.take take))
      appendLoop turns (position + take) (remaining.drop take)

/-- `append_stream`. -/
def appendStream (start : Nat) (bytes : Bytes) : Prog DbError Appender Unit :=
  appendLoop geometry bytes.length start bytes

/-- The segment that `truncate_stream` keeps as the last one, and its payload. -/
def truncateTarget (position replayFloor : Nat) : Nat × Nat :=
  if position > 0 ∧ position % geometry.payloadBytes = 0 ∧ replayFloor < position then
    (position / geometry.payloadBytes - 1, geometry.payloadBytes)
  else (position / geometry.payloadBytes, position % geometry.payloadBytes)

/-- `truncate_stream`: returns the number of the segment kept as the active one. -/
def truncateStream (position oldEnd replayFloor : Nat) : Prog DbError Disk Nat := do
  let keepNumber := (truncateTarget geometry position replayFloor).1
  let keepPayload := (truncateTarget geometry position replayFloor).2
  let oldLast := oldEnd / geometry.payloadBytes
  removeAll (List.range' (keepNumber + 1) (oldLast - keepNumber)).reverse
  openOrCreate keepNumber
  setSegmentLen keepNumber keepPayload
  syncSegment keepNumber
  return keepNumber

/-- `recycle_segments`. -/
def recycleSegments (oldFloor floor : Nat) : Prog DbError Disk Unit := do
  let first := oldFloor / geometry.payloadBytes
  .forEach removeSegment (List.range' first (floor / geometry.payloadBytes - first))
  syncDir

/-- `recycle_orphaned_segments`. -/
def recycleOrphanedSegments (floor : Nat) : Prog DbError Disk Unit := do
  let numbers ← segmentNumbers
  removeAll (numbers.filter (· < floor / geometry.payloadBytes))

/-! ### Reading -/

/-- `SegmentReader`: the open file is remembered with its number and cursor. -/
structure SegmentReader where
  position : Nat
  endPosition : Nat
  file : Option (Nat × Nat)
  deriving DecidableEq, Repr

namespace SegmentReader

def new (position endPosition : Nat) : SegmentReader := ⟨position, endPosition, none⟩

def remaining (reader : SegmentReader) : Nat := reader.endPosition - reader.position

/-- `ensure_file`: the file with this number, and the offset its cursor is at. -/
def ensureFile (disk : Disk) (reader : SegmentReader) (number offset : Nat) :
    Result (Segment × Nat) :=
  match disk.segments.lookup number with
  | none => .error (.io "failed to open WAL segment")
  | some segment =>
    match reader.file with
    | some (open_, cursor) =>
      if open_ = number then .ok (segment, cursor)
      else (validateSegmentHeader number segment).map fun _ => (segment, offset)
    | none => (validateSegmentHeader number segment).map fun _ => (segment, offset)

/-- The loop of `read_exact_into`; each turn reads at least one byte. -/
def readExactInto (disk : Disk) : Nat → Nat → SegmentReader → Result (Bytes × SegmentReader)
  | 0, _, reader => .ok ([], reader)
  | turns + 1, length, reader =>
    if length = 0 then .ok ([], reader)
    else do
      let number := reader.position / geometry.payloadBytes
      let offset := reader.position % geometry.payloadBytes
      let (segment, cursor) ← ensureFile disk reader number offset
      let take := min (geometry.payloadBytes - offset) length
      let chunk := (segment.payload.drop cursor).take take
      if chunk.length < take then .error (.io "failed to read WAL segment")
      else
        let (rest, reader) ← readExactInto disk turns (length - take)
          { reader with position := reader.position + take, file := some (number, cursor + take) }
        .ok (chunk ++ rest, reader)

/-- `read_exact_vec`: nothing when fewer bytes are left. -/
def readExactVec (disk : Disk) (length : Nat) (reader : SegmentReader) :
    Result (Option Bytes × SegmentReader) :=
  if reader.remaining < length then .ok (none, reader)
  else do
    let (bytes, reader) ← readExactInto geometry disk length length reader
    .ok (some bytes, reader)

end SegmentReader

end Saguaro.Wal
