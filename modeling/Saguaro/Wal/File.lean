/-
The WAL manager (`crates/wal/src/file.rs`).

`WalState` is the state behind the manager's mutex, `FileWal` that state beside the
directory. Each function below is one critical section, so a run of the manager is
a sequence of them; `checkpoint_clog` takes the lock three times and is given as its
parts. Sessions and faults are added in `Wal/Runs.lean`.
-/

import Saguaro.Wal.Clog
import Saguaro.Wal.Codec
import Saguaro.Wal.Segment

namespace Saguaro.Wal

open Crash

/-- What the manager is built from: the segment size, and the libraries behind the
record and snapshot codecs. -/
structure Params (χ : Type) where
  geometry : Geometry
  serde : Serde χ
  clogSerde : ClogSerde

/-- `WalPosition`. -/
structure WalPosition where
  replayFrom : Nat
  recordLsn : Nat
  deriving DecidableEq, Repr

/-- `WalEntry`. -/
structure WalEntry (χ : Type) where
  replayFrom : Nat
  record : WalRecord χ
  deriving DecidableEq, Repr

structure WalState where
  activeNumber : Nat
  unflushedFirstSegment : Option Nat
  replayFloor : Nat
  writtenLsn : Nat
  flushedLsn : Nat
  clog : Clog
  pendingCommits : List TxnId
  vacuumFloor : TxnId
  clogLoadedFromSnapshot : Bool
  recycleBoundary : Option Nat
  poisoned : Option DbError
  deriving DecidableEq

structure FileWal where
  disk : Disk
  state : WalState

variable {χ : Type} (params : Params χ)

/-! ### Records in the stream -/

/-- `represents_transaction`. -/
def representsTransaction (record : WalRecord χ) : Bool := record.txnId ≠ 0 &&
    match record.kind with
    | .checkpoint .. => false
    | _ => true

def WalRecordKind.isSettlement : WalRecordKind χ → Bool
  | .commit | .commitWithSubxids _ | .abort => true
  | _ => false

/-- The ids that a record commits. -/
def committedBy (record : WalRecord χ) : List TxnId :=
  match record.kind with
  | .commit => [record.txnId.toNat]
  | .commitWithSubxids subxids => record.txnId.toNat :: subxids.map UInt64.toNat
  | _ => []

/-- `fold_status`. -/
def foldStatus (clog : Clog) (record : WalRecord χ) : Clog :=
  match record.kind with
  | .commit => clog.setCommitted record.txnId.toNat
  | .commitWithSubxids subxids =>
    subxids.foldl (fun clog subxid => clog.setCommitted subxid.toNat)
      (clog.setCommitted record.txnId.toNat)
  | .abort => clog.setAborted record.txnId.toNat
  | _ =>
    if representsTransaction record ∧ clog.status record.txnId.toNat = .inProgress then
      clog.setInProgress record.txnId.toNat
    else clog

/-- `read_frame`. -/
def readFrame (disk : Disk) (reader : SegmentReader) :
    Result (Option (WalRecord χ) × SegmentReader) :=
  if reader.remaining = 0 then .ok (none, reader)
  else do
    let start := reader.position
    let (header, reader) ← reader.readExactVec params.geometry disk HEADER_LEN
    match header with
    | none => .ok (none, reader)
    | some header =>
      let frameLen ← frameLenFromHeader header
      let (rest, reader) ← reader.readExactVec params.geometry disk (frameLen - HEADER_LEN)
      match rest with
      | none => .ok (none, reader)
      | some rest =>
        let record ← decodeRecord params.serde (header ++ rest)
        if start + frameLen ≥ 2 ^ 64 then .error (walError "WAL frame end overflows")
        else if record.lsn ≠ start + frameLen ∨ reader.position ≠ start + frameLen then
          .error (walError "stored WAL LSN does not match its byte position")
        else .ok (some record, reader)

/-- The loop of `scan_stream`; each turn reads at least one byte. -/
def scanLoop {β : Type} (disk : Disk) (visit : β → WalRecord χ → β) :
    Nat → SegmentReader → β → Result β
  | 0, _, seen => .ok seen
  | turns + 1, reader, seen =>
    if reader.remaining = 0 then .ok seen
    else do
      match ← readFrame params disk reader with
      | (some record, reader) => scanLoop disk visit turns reader (visit seen record)
      | (none, _) => .error (walError "durable WAL record is incomplete")

/-- `scan_stream`. -/
def scanStream {β : Type} (disk : Disk) (start endPosition : Nat) (visit : β → WalRecord χ → β)
    (seen : β) : Result β :=
  scanLoop params disk visit (endPosition - start) (.new start endPosition) seen

/-- The iteration of `WalReplay`, collected: records that start below `threshold`
are read and left out. -/
def replayLoop (disk : Disk) (threshold : Nat) : Nat → SegmentReader → Result (List (WalEntry χ))
  | 0, _ => .ok []
  | turns + 1, reader => do
      match ← readFrame params disk reader with
      | (none, _) => .ok []
      | (some record, next) =>
        let rest ← replayLoop disk threshold turns next
        .ok (if reader.position < threshold then rest else ⟨reader.position, record⟩ :: rest)

/-- `replay_entries_from`, on a manager that is not poisoned. -/
def replayEntriesFrom (disk : Disk) (state : WalState) (replayFrom : Nat) :
    Result (List (WalEntry χ)) :=
  replayLoop params disk (max replayFrom state.replayFloor) (state.writtenLsn - state.replayFloor)
    (.new state.replayFloor state.writtenLsn)

/-! ### Opening -/

/-- Where the CLOG starts from, and the position it has absorbed. -/
structure ClogSeed where
  clog : Clog
  vacuumFloor : TxnId
  loadedFromSnapshot : Bool
  clogLsn : Nat

/-- The CLOG that a snapshot file, or its absence, gives for this metadata. -/
def seedClog (found : WalMeta) : Option ClogSnapshot → Result ClogSeed
  | some snapshot =>
    if snapshot.clogLsn < found.replayFloor ∨ snapshot.authorizedReplayFloor < found.replayFloor then
      .error (walError "CLOG snapshot does not cover the retained WAL replay floor")
    else if snapshot.clogLsn > found.durableEnd then
      .error (walError "CLOG snapshot is ahead of the WAL stream")
    else .ok ⟨.fromSnapshot snapshot, snapshot.vacuumFloor, true, snapshot.clogLsn⟩
  | none =>
    if found.replayFloor = 0 then .ok ⟨.new, FIRST_NORMAL_XID, false, 0⟩
    else .error (walError "CLOG snapshot is missing after WAL segments were recycled")

/-- The snapshot in `clog.dat`, if there is such a file. -/
def storedClog (disk : Disk) : Result (Option ClogSnapshot) :=
  match disk.clog with
  | none => .ok none
  | some bytes =>
    if bytes.length > MAX_CLOG_FILE_BYTES then
      .error (walError "CLOG file exceeds the 64 MiB payload limit")
    else (decodeClog params.clogSerde bytes).map some

/-- `load_clog_snapshot`. -/
def loadClogSnapshot : Prog DbError Disk (Option ClogSnapshot) :=
  .read (storedClog params) (.io "failed to read CLOG file")

/-- `FileWalManager::open`. -/
def openWal : Prog DbError Disk WalState := do
  initializeWal params.geometry
  let found ← loadMeta
  recycleOrphanedSegments params.geometry found.replayFloor
  .ensure (found.replayFloor ≤ found.durableEnd)
    (walError "WAL replay floor is beyond its durable end")
  let physicalEnd ← discoverEnd params.geometry found.replayFloor found.durableEnd
  .ensure (found.durableEnd ≤ physicalEnd)
    (walError "WAL durable end is beyond the retained stream")
  .when (physicalEnd > found.durableEnd) do
    let _ ← truncateStream params.geometry found.durableEnd physicalEnd found.replayFloor
  let snapshot ← loadClogSnapshot params
  let seed ← .ofExcept (seedClog found snapshot)
  let clog ← .read (fun disk =>
      scanStream params disk seed.clogLsn found.durableEnd foldStatus seed.clog)
    (.io "failed to read WAL segment")
  let nextNumber := found.durableEnd / params.geometry.payloadBytes
  let nextExists ← segmentExists nextNumber
  let activeNumber :=
    if found.durableEnd % params.geometry.payloadBytes = 0 ∧ nextExists then nextNumber
    else activeSegmentNumber params.geometry found.durableEnd
  let _ ← openSegment activeNumber
  return {
    activeNumber
    unflushedFirstSegment := none
    replayFloor := found.replayFloor
    writtenLsn := found.durableEnd
    flushedLsn := found.durableEnd
    clog
    pendingCommits := []
    vacuumFloor := seed.vacuumFloor
    clogLoadedFromSnapshot := seed.loadedFromSnapshot
    recycleBoundary := snapshot.map ClogSnapshot.authorizedReplayFloor
    poisoned := none }

/-! ### The manager's critical sections -/

namespace FileWal

def onDisk {α : Type} (c : Prog DbError Disk α) : Prog DbError FileWal α :=
  .zoom FileWal.disk (fun disk wal => { wal with disk }) c

def onAppender {α : Type} (c : Prog DbError Appender α) : Prog DbError FileWal α :=
  .zoom (fun wal => ⟨wal.disk, wal.state.activeNumber⟩)
    (fun appender wal => ⟨appender.disk, { wal.state with activeNumber := appender.activeNumber }⟩) c

def update (f : WalState → WalState) : Prog DbError FileWal Unit :=
  .modify fun wal => { wal with state := f wal.state }

def poison (error : DbError) : Prog DbError FileWal Unit :=
  update fun state => { state with poisoned := some error }

/-- `lock_state`: a poisoned manager only repeats its error. -/
def lockState : Prog DbError FileWal WalState := do
  let state ← .gets FileWal.state
  match state.poisoned with
  | some error => .throw error
  | none => return state

/-- `repair_failed_append`. -/
def repairFailedAppend (start attemptedEnd : Nat) : Prog DbError FileWal Unit := do
  let floor ← .gets fun wal => wal.state.replayFloor
  let activeNumber ← .tryCatch
    (onDisk (truncateStream params.geometry start attemptedEnd floor)) fun err => do
      poison err
      .throw err
  update fun state => { state with
    activeNumber
    unflushedFirstSegment := state.unflushedFirstSegment.filter (· ≤ activeNumber) }

/-- `correct_failed_flush`. -/
def correctFailedFlush : Prog DbError FileWal Unit := do
  let state ← .gets FileWal.state
  let activeNumber ← onDisk
    (truncateStream params.geometry state.flushedLsn state.writtenLsn state.replayFloor)
  update fun state => { state with
    activeNumber
    writtenLsn := state.flushedLsn
    pendingCommits := []
    unflushedFirstSegment := none }

/-- Undo the unflushed appends, and make the manager unavailable. -/
def giveUpFlush (reason : DbError) (report : DbError) : Prog DbError FileWal Unit := do
  .tryCatch (correctFailedFlush params) fun correction => do
    poison correction
    .throw correction
  poison reason
  .throw report

/-- `sync_unflushed`: the segments from the first unflushed one to the active one. -/
def syncUnflushed : Prog DbError FileWal Unit := do
  let state ← .gets FileWal.state
  match state.unflushedFirstSegment with
  | none => pure ()
  | some first =>
    .forEach (fun number => do
        .when (number ≠ state.activeNumber) do
          let _ ← onDisk (openSegment number)
        onDisk (syncSegment number))
      (List.range' first (state.activeNumber + 1 - first))

/-- The change of the CLOG that comes before the record is written: an abort is
published at once, any other transaction record makes its writer explicit. -/
def publishStatus (record : WalRecord χ) (clog : Clog) : Clog :=
  match record.kind with
  | .abort => clog.setAborted record.txnId.toNat
  | _ => if representsTransaction record then clog.setInProgress record.txnId.toNat else clog

/-- The part of `append_positioned` that writes the record. -/
def appendRecord (record : WalRecord χ) : Prog DbError FileWal WalPosition := do
  let state ← lockState
  let start := state.writtenLsn
  let encoded ← .ofExcept (encodeRecordAt params.serde record start)
  let stored := encoded.1
  .tryCatch (onAppender (appendStream params.geometry start encoded.2)) fun err => do
    repairFailedAppend params start stored.lsn
    .throw err
  update fun state => { state with
    unflushedFirstSegment :=
      some (state.unflushedFirstSegment.getD (start / params.geometry.payloadBytes))
    pendingCommits := state.pendingCommits ++ committedBy stored
    writtenLsn := stored.lsn }
  return ⟨start, stored.lsn⟩

/-- `append_positioned`. -/
def appendPositioned (record : WalRecord χ) : Prog DbError FileWal WalPosition := do
  let state ← .gets FileWal.state
  .ensure (!(representsTransaction record && !record.kind.isSettlement &&
      state.clog.mustBackpressureNewWriter record.txnId.toNat))
    (.wal .programLimitExceeded
      "transaction status window is pinned by an active writer; retry after older transactions finish")
  update fun state => { state with clog := publishStatus record state.clog }
  appendRecord params record

/-- Record the written end as the durable end. -/
def writeDurableEnd : Prog DbError FileWal Unit := do
  let state ← .gets FileWal.state
  match ← onDisk (writeMetaWithOutcome ⟨state.replayFloor, state.writtenLsn⟩) with
  | .ok () => pure ()
  | .error failure =>
    if failure.replacementVisible then do
      let error := DbError.durabilityOutcomeUnknown
        "WAL durable-end replacement has an unknown persistence outcome"
      poison error
      .throw error
    else
      giveUpFlush params (walError "WAL manager is unavailable after durable-end update failure")
        failure.error

/-- `flush`. -/
def flush : Prog DbError FileWal Nat := do
  let state ← lockState
  .tryCatch syncUnflushed fun err =>
    giveUpFlush params (walError "WAL manager is unavailable after durability failure") err
  .when (state.writtenLsn > state.flushedLsn) (writeDurableEnd params)
  update fun state => { state with
    flushedLsn := state.writtenLsn
    clog := state.clog.setAll state.pendingCommits .committed
    pendingCommits := []
    unflushedFirstSegment := none }
  .gets fun wal => wal.state.flushedLsn

/-- The part of `recycle_through` that makes sure of a segment at the new floor. -/
def ensureSuccessor (geometry : Geometry) (lsn : Nat) : Prog DbError FileWal Unit := do
  let state ← .gets FileWal.state
  .when (lsn = state.writtenLsn && lsn % geometry.payloadBytes = 0) do
    let number := lsn / geometry.payloadBytes
    let found ← onDisk (segmentExists number)
    .when (!found) do
      onDisk (createSegment number)
      update fun state => { state with activeNumber := number }

/-- `recycle_through`. -/
def recycleThrough (lsn : Nat) : Prog DbError FileWal Unit := do
  let state ← lockState
  .ensure (state.replayFloor ≤ lsn && lsn ≤ state.flushedLsn)
    (walError "WAL recycle boundary is outside the durable retained range")
  if lsn = state.replayFloor then onDisk (recycleOrphanedSegments params.geometry lsn)
  else
    .ensure (state.recycleBoundary = some lsn)
      (walError "WAL recycle boundary was not established by the latest CLOG snapshot")
    ensureSuccessor params.geometry lsn
    match ← onDisk (writeMetaWithOutcome ⟨lsn, state.flushedLsn⟩) with
    | .error failure =>
      poison (walError "WAL manager is unavailable after replay-floor update failure")
      .throw failure.error
    | .ok () =>
      update fun state => { state with replayFloor := lsn }
      onDisk (recycleSegments params.geometry state.replayFloor lsn)

/-- The second critical section of `checkpoint_clog`, after its flush. -/
def captureClog (proposedReplayFloor : Nat) (capturedActive : List TxnId)
    (allocationBoundary : TxnId) : Prog DbError FileWal ClogSnapshot := do
  let state ← lockState
  .ensure (state.replayFloor ≤ proposedReplayFloor && proposedReplayFloor ≤ state.flushedLsn)
    (walError "proposed CLOG replay floor is outside the durable WAL range")
  return state.clog.liveSnapshot state.flushedLsn proposedReplayFloor state.vacuumFloor
    capturedActive allocationBoundary

/-- `write_clog_file`: a temporary file, a rename and a directory sync. -/
def writeClogFile (snapshot : ClogSnapshot) : Prog DbError Disk Unit := do
  let bytes ← .ofExcept (encodeClog params.clogSerde snapshot)
  .atomic id (.io "failed to write CLOG file")
  .atomic (fun disk => { disk with clog := some bytes }) (.io "failed to replace CLOG file")
  .atomic id (.io "failed to sync data directory")

/-- The last critical section of `checkpoint_clog`. -/
def adoptSnapshot (snapshot : ClogSnapshot) : Prog DbError FileWal Unit := do
  let _ ← lockState
  update fun state => { state with
    clog := state.clog.pruneTo snapshot.committedFloor
    recycleBoundary := some snapshot.authorizedReplayFloor }

/-- `set_vacuum_floor`. -/
def setVacuumFloor (boundary : TxnId) : Prog DbError FileWal Unit := do
  let _ ← lockState
  update fun state => { state with vacuumFloor := max state.vacuumFloor boundary }

/-! ### Recovery -/

/-- The oldest writer in the records whose status is not committed. -/
def oldestNonCommitted (clog : Clog) (entries : List (WalEntry χ)) : Option TxnId :=
  (entries.filterMap fun entry =>
    if representsTransaction entry.record && !clog.isCommitted entry.record.txnId.toNat then
      some entry.record.txnId.toNat
    else none).min?

/-- The committed floor that recovery derives from the retained records. -/
def recoveryFloor (clog : Clog) (entries : List (WalEntry χ)) (allocationBoundary : TxnId) : TxnId :=
  match oldestNonCommitted clog entries with
  | some oldest => min allocationBoundary oldest
  | none => allocationBoundary

/-- `establish_recovery_committed_floor`. -/
def establishRecoveryCommittedFloor (allocationBoundary : TxnId) : Prog DbError FileWal Unit := do
  let state ← lockState
  .when (!state.clogLoadedFromSnapshot) do
    let entries ← .read (fun wal => replayEntriesFrom params wal.disk wal.state 0)
      (.io "failed to read WAL segment")
    update fun state =>
      { state with
        clog := state.clog.setCommittedFloor (recoveryFloor state.clog entries allocationBoundary) }

/-- `resolve_all_in_flight_as_aborted`. -/
def resolveAllInFlightAsAborted : Prog DbError FileWal Unit := do
  let _ ← lockState
  update fun state => { state with clog := state.clog.resolveAllInProgressAsAborted }

end FileWal

end Saguaro.Wal
