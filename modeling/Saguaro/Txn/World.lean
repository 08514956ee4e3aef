/-
Transactions of the server and what they do to the statuses
(`crates/server/src/query/txn.rs`, `exec.rs`, `vacuum.rs`).

A step is one critical section of the source: an allocation or a deregistration under the
registry's latch, an append or a flush of the WAL, a change of a session's own
`Transaction`, a table lock. Appends and flushes are those of the WAL manager, under any
faults; a run ends where the process would exit. A transaction that settles goes through
the stages of `commit_transaction`, `abort_transaction` and `ROLLBACK TO SAVEPOINT`, and
other transactions may step between any two of them.

Table locks are what the lock manager grants for `RowExclusive` (`locks`) and for the
`Share` of a VACUUM (`shares`). A record that changes a page is appended under the lock of
its table, and `stamped` remembers who has written to which table.
-/

import Saguaro.Mvcc.Visibility
import Saguaro.Server.Registry
import Saguaro.Wal.Status

namespace Saguaro.Txn

open Wal Crash Transition

/-- `SavepointLevel`: the id that owns the writes made under it, and the tables that were
locked when it was established. -/
structure SavepointLevel where
  subxid : TxnId
  objectLocks : List TableId
  deriving DecidableEq

/-- How far a transaction is. -/
inductive Stage where
  | running
  /-- `ROLLBACK TO`: abort records for `left` are still to be appended. -/
  | rollingBack (idx : Nat) (level : SavepointLevel) (left : List TxnId)
  /-- `ROLLBACK TO`: the level is about to be established again. -/
  | restarting (level : SavepointLevel)
  /-- The commit record is appended. -/
  | flushing
  /-- The commit record is flushed, the family is still registered. -/
  | committed
  /-- `abort_subxids`: abort records for `left` are still to be appended. -/
  | abortingSubxids (left : List TxnId)
  | abortingTop
  /-- The abort record of the transaction itself is appended. -/
  | aborted
  | ended
  deriving DecidableEq

/-- `Transaction`, as far as its settlement reads it. -/
structure Transaction where
  savepoints : List SavepointLevel
  liveSubxids : List TxnId
  hasWrites : Bool
  stage : Stage
  deriving DecidableEq

namespace Transaction

/-- `live_txns`: the transaction's id and every savepoint id that is not rolled back. -/
def family (t : Transaction) (top : TxnId) : List TxnId := top :: t.liveSubxids

/-- `writing_xid`. -/
def writingXid (t : Transaction) (top : TxnId) : TxnId :=
  (t.savepoints.getLast?.map SavepointLevel.subxid).getD top

/-- The ids that `ROLLBACK TO` a level aborts: all that are as new as the level. -/
def rolled (t : Transaction) (level : SavepointLevel) : List TxnId :=
  t.liveSubxids.filter (level.subxid ≤ ·)

/-- The record of `append_and_flush_commit`. -/
def commitKind {χ : Type} (t : Transaction) : WalRecordKind χ :=
  if t.liveSubxids.isEmpty then .commit else .commitWithSubxids (t.liveSubxids.map UInt64.ofNat)

def startAbort (t : Transaction) : Transaction := { t with stage := .abortingSubxids t.liveSubxids }

end Transaction

structure World where
  wal : FileWal
  registry : Registry
  txns : TxnId → Option Transaction
  /-- The snapshots in use, with the id of the transaction that captured them, or 0. -/
  snapshots : List (TxnId × Snapshot)
  locks : List (TxnId × TableId)
  shares : List (TxnId × TableId)
  stamped : List (TxnId × TableId)

inductive Event (χ : Type) where
  | begin (hasWrites : Bool)
  | savepoint (top : TxnId)
  | releaseSavepoint (top : TxnId) (idx : Nat)
  | lockTable (top : TxnId) (table : TableId)
  | write (top : TxnId) (table : TableId) (kind : WalRecordKind χ) (faults : List Fault)
  | rollbackTo (top : TxnId) (idx : Nat)
  | abortSubxid (top : TxnId) (faults : List Fault)
  | deregisterSubxids (top : TxnId)
  | reestablish (top : TxnId)
  | commit (top : TxnId) (faults : List Fault)
  | flushCommit (top : TxnId) (faults : List Fault)
  | deregisterFamily (top : TxnId)
  | abort (top : TxnId)
  | abortTop (top : TxnId) (faults : List Fault)
  | deregisterTop (top : TxnId)
  | drop (top : TxnId)
  | flush (faults : List Fault)
  | capture (own : TxnId)
  | advertise (own : TxnId) (snapshot : Snapshot)
  | release (own : TxnId) (snapshot : Snapshot)
  | share (top : TxnId) (table : TableId)
  | unshare (top : TxnId)

variable {χ : Type}

namespace World

/-- `TxnStatusView::status` of the WAL manager. -/
def status (w : World) (id : TxnId) : TxnStatus := w.wal.state.clog.status id

def setTxn (w : World) (top : TxnId) (t : Transaction) : World :=
  { w with txns := Function.update w.txns top (some t) }

/-- The transaction `top`, when it is in this stage. -/
def inStage (w : World) (top : TxnId) (stage : Stage) : Option Transaction :=
  (w.txns top).filter (·.stage = stage)

/-- `register_active_subxid`; ids are 64-bit numbers. -/
def registerActiveSubxid (w : World) (top : TxnId) : Option (TxnId × World) :=
  if w.registry.nextTxnId < 2 ^ 64 then
    some ((w.registry.registerSubxidAllocated top).1,
      { w with registry := (w.registry.registerSubxidAllocated top).2 })
  else none

/-- `deregister_all`, and `deregister` for one id. -/
def deregister (w : World) (ids : List TxnId) : World :=
  { w with registry := w.registry.deregisterAll ids }

variable (params : Params χ)

def append (w : World) (id : TxnId) (kind : WalRecordKind χ) (faults : List Fault) :
    Option (Result Unit × World) :=
  match FileWal.appendPositioned params ⟨0, UInt64.ofNat id, kind⟩ ⟨w.wal, faults⟩ with
  | (.ok _, m) => some (.ok (), { w with wal := m.state })
  | (.error e, m) => some (.error e, { w with wal := m.state })
  | (.stopped, _) => none

def flush (w : World) (faults : List Fault) : Option (Result Unit × World) :=
  match FileWal.flush params ⟨w.wal, faults⟩ with
  | (.ok _, m) => some (.ok (), { w with wal := m.state })
  | (.error e, m) => some (.error e, { w with wal := m.state })
  | (.stopped, _) => none

/-- Append an abort record. A failure is only logged, unless the outcome of an earlier
write is unknown: then the process exits. -/
def appendAbort (w : World) (id : TxnId) (faults : List Fault) : Option World :=
  match w.append params id .abort faults with
  | some (.ok (), w') => some w'
  | some (.error e, w') => if e.kind = .durabilityOutcomeUnknown then none else some w'
  | none => none

/-- Make the level the innermost one, under the id `subxid`. -/
def pushLevel (w : World) (top : TxnId) (t : Transaction) (subxid : TxnId) (objectLocks : List TableId) :
    World := w.setTxn top { t with
    savepoints := t.savepoints ++ [⟨subxid, objectLocks⟩]
    liveSubxids := t.liveSubxids ++ [subxid]
    stage := .running }

/-- A transaction that wrote nothing is settled by leaving the registry. -/
def endReadOnly (w : World) (top : TxnId) (t : Transaction) : World :=
  (w.deregister (t.family top)).setTxn top { t with stage := .ended }

def lockedTables (w : World) (top : TxnId) : List TableId :=
  (w.locks.filter (·.1 = top)).map Prod.snd

def step (w : World) : Event χ → Option World
  | .begin hasWrites =>
    if w.registry.nextTxnId < 2 ^ 64 then
      some ({ w with registry := w.registry.registerAllocated.2 }.setTxn w.registry.nextTxnId
        ⟨[], [], hasWrites, .running⟩)
    else none
  | .savepoint top => do
      let t ← w.inStage top .running
      let (subxid, w') ← w.registerActiveSubxid top
      return w'.pushLevel top t subxid (w.lockedTables top)
  | .releaseSavepoint top idx => do
      let t ← w.inStage top .running
      return w.setTxn top { t with savepoints := t.savepoints.take idx }
  | .lockTable top table => do
      let _ ← w.inStage top .running
      if w.shares.all (·.2 ≠ table) then return { w with locks := (top, table) :: w.locks } else none
  | .write top table kind faults => do
      let t ← w.inStage top .running
      if w.locks.contains (top, table) && kind.isRedoOperation then
        let (result, w') ← w.append params (t.writingXid top) kind faults
        let w' := w'.setTxn top { t with hasWrites := true }
        return match result with
          | .ok () => { w' with stamped := (t.writingXid top, table) :: w.stamped }
          | .error _ => w'
      else none
  | .rollbackTo top idx => do
      let t ← w.inStage top .running
      let level ← t.savepoints[idx]?
      return w.setTxn top { t with stage := .rollingBack idx level (t.rolled level) }
  | .abortSubxid top faults => do
      let t ← w.txns top
      match t.stage with
      | .rollingBack idx level (id :: left) =>
        let w' ← w.appendAbort params id faults
        return w'.setTxn top { t with stage := .rollingBack idx level left }
      | .abortingSubxids (id :: left) =>
        let w' ← w.appendAbort params id faults
        return w'.setTxn top { t with stage := .abortingSubxids left }
      | _ => none
  | .deregisterSubxids top => do
      let t ← w.txns top
      match t.stage with
      | .rollingBack idx level [] =>
        let w' := w.deregister (t.rolled level)
        return { w'.setTxn top { t with
            savepoints := t.savepoints.take idx
            liveSubxids := t.liveSubxids.filter (· < level.subxid)
            stage := .restarting level } with
          locks := w.locks.filter fun l => l.1 ≠ top || level.objectLocks.contains l.2 }
      | .abortingSubxids [] =>
        return (w.deregister t.liveSubxids).setTxn top { t with stage := .abortingTop }
      | _ => none
  | .reestablish top => do
      let t ← w.txns top
      match t.stage with
      | .restarting level =>
        let (subxid, w') ← w.registerActiveSubxid top
        return w'.pushLevel top t subxid level.objectLocks
      | _ => none
  | .commit top faults => do
      let t ← w.inStage top .running
      if t.hasWrites then
        let (result, w') ← w.append params top t.commitKind faults
        return w'.setTxn top (match result with
          | .ok () => { t with stage := .flushing }
          | .error _ => t.startAbort)
      else return w.endReadOnly top t
  | .flushCommit top faults => do
      let t ← w.inStage top .flushing
      let (result, w') ← w.flush params faults
      match result with
      | .ok () => return w'.setTxn top { t with stage := .committed }
      | .error e => if e.kind = .durabilityOutcomeUnknown then none else return w'.setTxn top t.startAbort
  | .deregisterFamily top => do
      let t ← w.inStage top .committed
      return (w.deregister (t.family top)).setTxn top { t with stage := .ended }
  | .abort top => do
      let t ← w.inStage top .running
      return if t.hasWrites then w.setTxn top t.startAbort else w.endReadOnly top t
  | .abortTop top faults => do
      let t ← w.inStage top .abortingTop
      let w' ← w.appendAbort params top faults
      return w'.setTxn top { t with stage := .aborted }
  | .deregisterTop top => do
      let t ← w.inStage top .aborted
      return (w.deregister [top]).setTxn top { t with stage := .ended }
  | .drop top => do
      let _ ← w.inStage top .ended
      return { w with locks := w.locks.filter (·.1 ≠ top) }
  | .flush faults => (w.flush params faults).map Prod.snd
  | .capture own =>
    if own = INVALID_XID ∨ (w.inStage own .running).isSome then
      some { w with
        registry := (w.registry.capture own).2
        snapshots := (own, (w.registry.capture own).1) :: w.snapshots }
    else none
  | .advertise own snapshot =>
    if (own, snapshot) ∈ w.snapshots then
      some { w with
        registry := w.registry.advertiseXmin snapshot.xmin
        snapshots := (own, snapshot) :: w.snapshots }
    else none
  | .release own snapshot =>
    if (own, snapshot) ∈ w.snapshots then
      some { w with
        registry := w.registry.releaseAdvertised snapshot.xmin
        snapshots := w.snapshots.erase (own, snapshot) }
    else none
  | .share top table => do
      let _ ← w.inStage top .running
      if w.locks.all (·.2 ≠ table) then return { w with shares := (top, table) :: w.shares } else none
  | .unshare top => some { w with shares := w.shares.filter (·.1 ≠ top) }

/-- A server that has just been started: nobody is registered, and nothing is known of
the ids from the next one on. -/
structure Start (w : World) : Prop where
  bound : w.registry.nextTxnId ≤ 2 ^ 64
  normal : FIRST_NORMAL_XID ≤ w.registry.nextTxnId
  floor : w.wal.state.clog.committedFloor ≤ w.registry.nextTxnId
  fresh : ∀ id, w.registry.nextTxnId ≤ id → w.wal.state.clog.statuses.lookup id = none
  pending : w.wal.state.pendingCommits = []
  active : w.registry.active = []
  xmins : w.registry.xmins = []
  txns : ∀ top, w.txns top = none
  snapshots : w.snapshots = []
  locks : w.locks = []
  shares : w.shares = []
  stamped : ∀ e ∈ w.stamped, e.1 < w.registry.nextTxnId

end World

end Saguaro.Txn
