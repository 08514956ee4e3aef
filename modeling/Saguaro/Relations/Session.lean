/-
A transaction block with DDL, TRUNCATE and savepoints, as the server drives the storage engine
(`handle_savepoint`, `rollback_transaction_family_pre_durable_or_die` and
`cleanup_after_durable_commit_family` in `crates/server/src/query/txn.rs`,
`run_truncate_in_transaction` in `crates/server/src/query/truncate.rs`).

DDL writes under the innermost open savepoint's subtransaction id, or under the top-level id
when no savepoint is open. TRUNCATE adds its files under that id but records what it replaces
under the top-level id. A released subtransaction stays live until the transaction ends.

`established` and `begun` are ghosts: the entries when a savepoint was established and when
the transaction began. No function of the source reads them.
-/

import Saguaro.Relations.State
import Saguaro.Lib.Transition

namespace Saguaro.Relations

open StorageState

/-- `SavepointLevel`, the part that concerns the storage engine. -/
structure SavepointLevel where
  name : String
  subxid : Nat
  storage : StorageSavepoint
  established : Objects

/-- An open transaction block. The savepoints are listed from the innermost one. -/
structure Session where
  state : StorageState
  txnId : Nat
  savepoints : List SavepointLevel
  /-- In the order of allocation. -/
  liveSubxids : List Nat
  nextXid : Nat
  begun : Objects

namespace Session

/-- `BEGIN`, with the id that the transaction is given. -/
def start (state : StorageState) (txnId : Nat) : Session :=
  ⟨state, txnId, [], [], txnId + 1, state.objects⟩

def writingXid (σ : Session) : Nat :=
  match σ.savepoints with
  | [] => σ.txnId
  | level :: _ => level.subxid

/-- The statements that change tables, indexes and sequences. A statement that fails half way
is one with fewer touches. -/
inductive Ddl where
  | createTable (schema : TableSchema)
  | dropTable (table : Nat)
  | updateTableSchema (schema : TableSchema) (indexes : List IndexSchema)
  | dropIndex (index : Nat)
  | createSequence (id definition : Nat)
  | dropSequence (id : Nat)

/-- The touches of a statement and the files that it adds to the unpublished ones. -/
def Ddl.effect (s : StorageState) : Ddl → List Touch × List FileId
  | createTable schema => (StorageState.createTable schema, [])
  | dropTable table => (s.dropTable table, [])
  | updateTableSchema schema indexes => s.updateTableSchema schema indexes
  | dropIndex index => (s.dropIndex index, [])
  | createSequence id definition => (StorageState.createSequence id definition, [])
  | dropSequence id => (s.dropSequence id, [])

inductive Statement where
  /-- The first `made` touches of a statement; all of them when it succeeds. -/
  | ddl (ddl : Ddl) (made : Nat)
  /-- `create_index`; the backfill may fail before the index is installed. -/
  | createIndex (schema : IndexSchema) (built : Bool)
  | prepareTruncate (update : TruncateUpdate)
  | publishTruncate (updates : List TruncateUpdate)
  | savepoint (name : String)
  | release (name : String)
  | rollbackTo (name : String)
  | rollback

/-- `savepoints.truncate(idx)` for the innermost level of a name: that level and the levels
below it. -/
def findLevel (name : String) : List SavepointLevel → Option (SavepointLevel × List SavepointLevel)
  | [] => none
  | level :: below => if level.name = name then some (level, below) else findLevel name below

/-- `rollback_txn` for each subtransaction of a list, in order. -/
def rollbackSubxids (state : StorageState) (subxids : List Nat) : StorageState :=
  subxids.foldl (fun s subxid => (s.rollbackTxn subxid).1) state

def establish (σ : Session) (level : SavepointLevel) : Session := { σ with
    savepoints := level :: σ.savepoints
    liveSubxids := σ.liveSubxids ++ [level.subxid]
    nextXid := level.subxid + 1 }

/-- `ROLLBACK TO`: the top-level record first, then the subtransactions since the savepoint, the
oldest first. The level stays, under a new subtransaction id. -/
def rollbackTo (σ : Session) (level : SavepointLevel) (below : List SavepointLevel) : Session :=
  let rolled := σ.liveSubxids.filter (level.subxid ≤ ·)
  let state := rollbackSubxids (σ.state.rollbackToSavepoint σ.txnId level.storage) rolled
  establish { σ with
      state, savepoints := below, liveSubxids := σ.liveSubxids.filter (· < level.subxid) }
    { level with subxid := σ.nextXid }

/-- `ROLLBACK`: the subtransactions, the newest first, then the top-level record. -/
def rollback (σ : Session) : Session :=
  let state := rollbackSubxids σ.state σ.liveSubxids.reverse
  { σ with state := (state.rollbackTxn σ.txnId).1, savepoints := [], liveSubxids := [] }

def step (σ : Session) : Statement → Option Session
  | .ddl ddl made =>
    let (touches, files) := ddl.effect σ.state
    some { σ with state :=
      (σ.state.touchAll σ.writingXid (touches.take made)).addUnpublished σ.writingXid files }
  | .createIndex schema built =>
    let started := σ.state.startIndex σ.writingXid schema
    some { σ with
      state := if built then started.publishIndex σ.writingXid schema else started }
  | .prepareTruncate update =>
    some { σ with state := σ.state.prepareTruncate σ.writingXid update }
  | .publishTruncate updates =>
    (σ.state.publishTruncateTransactional σ.txnId updates).map fun state => { σ with state }
  | .savepoint name =>
    some (σ.establish ⟨name, σ.nextXid, σ.state.savepoint σ.txnId, σ.state.objects⟩)
  | .release name =>
    (findLevel name σ.savepoints).map fun (_, below) => { σ with savepoints := below }
  | .rollbackTo name =>
    (findLevel name σ.savepoints).map fun (level, below) => σ.rollbackTo level below
  | .rollback => some σ.rollback

end Session

end Saguaro.Relations
