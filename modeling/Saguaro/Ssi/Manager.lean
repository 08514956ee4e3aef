/-
The SSI conflict manager (`crates/server/src/ssi_manager.rs`).

`SsiState` is the record behind the manager's mutex and every public operation
is one critical section, so each is a function on the record. The operations
take the top-level id: the source canonicalizes through the registry before it
takes the mutex (`Registry.topOf`).

Hash sets are lists under insertion-if-absent; a map from keys to sets of ids is
the list of its (key, id) memberships. The source drops a key whose set becomes
empty, which this form cannot observe. Iteration over a set is a left fold; no
result below depends on its order.
-/

import Saguaro.Common.Error
import Saguaro.Mvcc.Snapshot
import Saguaro.Lib.AssocMap
import Mathlib.Data.List.Dedup

namespace Saguaro.Ssi

/-- `SSI_TUPLE_LOCK_CAP`: tuple locks one transaction may hold on one table
before they collapse into a relation lock. -/
def ssiTupleLockCap : Nat := 64

/-- Per-transaction SSI state (`TxnSsi`). `K` is the key type of the tables. -/
structure TxnSsi (K : Type) where
  snapshot : Snapshot
  relationLocks : List TableId := []
  tupleLocks : List (TableId × K) := []
  relationWrites : List TableId := []
  wholeRelationWrites : List TableId := []
  tupleWrites : List (TableId × K) := []
  outEdges : List TxnId := []
  inEdges : List TxnId := []
  commitSeq : Option Nat := none
  finished : Bool := false

structure SsiState (K : Type) where
  relationReaders : List (TableId × TxnId) := []
  tupleReaders : List ((TableId × K) × TxnId) := []
  relationWriters : List (TableId × TxnId) := []
  wholeRelationWriters : List (TableId × TxnId) := []
  tupleWriters : List ((TableId × K) × TxnId) := []
  promotedTupleWriters : List (TableId × TxnId) := []
  txns : AList fun _ : TxnId => TxnSsi K := ∅
  nextCommitSeq : Nat := 0

section Memberships

variable {κ : Type} [DecidableEq κ]

/-- The set stored at `key`. -/
def membersAt (m : List (κ × TxnId)) (key : κ) : List TxnId :=
  (m.filter fun e => e.1 = key).map Prod.snd

/-- `remove_reader`. -/
def removeReader (m : List (κ × TxnId)) (key : κ) (reader : TxnId) : List (κ × TxnId) :=
  m.filter fun e => e ≠ (key, reader)

/-- `remove_reader` at every key of a reverse index. -/
def removeReaderAll (m : List (κ × TxnId)) (keys : List κ) (reader : TxnId) : List (κ × TxnId) :=
  keys.foldl (fun m key => removeReader m key reader) m

end Memberships

variable {K : Type} [DecidableEq K]

/-- `serialization_failure`. -/
def serializationFailure : DbError := .execute .serializationFailure
    "could not serialize access due to read/write dependencies among transactions"

/-- `register`: begin tracking `top` under `snapshot`; a repeat changes nothing. -/
def register (st : SsiState K) (top : TxnId) (snapshot : Snapshot) : SsiState K :=
  if top ∈ st.txns then st
  else { st with txns := st.txns.insert top { snapshot } }

def finished (st : SsiState K) (top : TxnId) : SsiState K :=
  { st with txns := st.txns.modify top fun t => { t with finished := true } }

/-- Drop an id from an in-edge set. -/
def dropInEdge (top : TxnId) (t : TxnSsi K) : TxnSsi K :=
  { t with inEdges := t.inEdges.filter (· ≠ top) }

/-- Drop an id from an out-edge set. -/
def dropOutEdge (top : TxnId) (t : TxnSsi K) : TxnSsi K :=
  { t with outEdges := t.outEdges.filter (· ≠ top) }

/-- `purge`: remove `top`, already taken out of `txns`, from the lock and write
tables and from the edge sets of its neighbours. -/
def purge (st : SsiState K) (top : TxnId) (txn : TxnSsi K) : SsiState K := { st with
    relationReaders := removeReaderAll st.relationReaders txn.relationLocks top
    tupleReaders := removeReaderAll st.tupleReaders txn.tupleLocks top
    relationWriters := removeReaderAll st.relationWriters txn.relationWrites top
    wholeRelationWriters := removeReaderAll st.wholeRelationWriters txn.wholeRelationWrites top
    tupleWriters := removeReaderAll st.tupleWriters txn.tupleWrites top
    promotedTupleWriters := st.promotedTupleWriters.filter fun e => e.2 ≠ top
    txns := (st.txns.modifyAll txn.outEdges (dropInEdge top)).modifyAll txn.inEdges
      (dropOutEdge top) }

/-- `aborted`: an aborted transaction leaves the graph at once. -/
def aborted (st : SsiState K) (top : TxnId) : SsiState K :=
  match st.txns.lookup top with
  | none => st
  | some txn => purge { st with txns := st.txns.erase top } top txn

/-- Whether `release_up_to` lets go of the transaction `top`. -/
def releasable (st : SsiState K) (gcHorizon : TxnId) (top : TxnId) : Bool :=
  match st.txns.lookup top with
  | none => false
  | some t => t.finished && decide (t.snapshot.xmax ≤ gcHorizon)

/-- `release_up_to`: drop every finished transaction whose snapshot ends at or
below the horizon. The removal of one entry is the body of `aborted`. -/
def releaseUpTo (st : SsiState K) (gcHorizon : TxnId) : SsiState K :=
  (st.txns.keys.filter (releasable st gcHorizon)).foldl aborted st

/-- `form_rw_edge`: record `reader →rw writer` when both are tracked, distinct,
and the writer is concurrent with the reader's snapshot. -/
def formRwEdge (st : SsiState K) (reader writer : TxnId) : SsiState K :=
  if reader = writer ∨ writer ∉ st.txns then st
  else
    match st.txns.lookup reader with
    | none => st
    | some rt =>
      if rt.snapshot.concurrent writer then
        { st with
          txns := (st.txns.modify reader fun t =>
            { t with outEdges := t.outEdges.insert writer }).modify writer fun t =>
              { t with inEdges := t.inEdges.insert reader } }
      else st

/-- `is_doomed_pivot`: an inbound edge, an outbound edge, and some outbound
neighbour that has already been stamped with a commit sequence. -/
def isDoomedPivot (st : SsiState K) (t : TxnId) : Bool :=
  match st.txns.lookup t with
  | none => false
  | some txn =>
    if txn.inEdges.isEmpty || txn.outEdges.isEmpty then false
    else txn.outEdges.any fun w =>
      match st.txns.lookup w with
      | none => false
      | some o => o.commitSeq.isSome

/-- `add_relation_lock`. -/
def addRelationLock (st : SsiState K) (top : TxnId) (table : TableId) : SsiState K :=
  match st.txns.lookup top with
  | none => st
  | some txn =>
    if table ∈ txn.relationLocks then st
    else { st with
      txns := st.txns.insert top { txn with relationLocks := table :: txn.relationLocks }
      relationReaders := st.relationReaders.insert (table, top) }

/-- The lock-taking half of `record_tuple_read`, with the collapse into a
relation lock once the table's cap is exceeded. -/
def addTupleLock (st : SsiState K) (top : TxnId) (table : TableId) (key : K) : SsiState K :=
  match st.txns.lookup top with
  | none => st
  | some txn =>
    if (table, key) ∈ txn.tupleLocks then st
    else
      let tableKeys := (table, key) :: txn.tupleLocks.filter fun e => e.1 = table
      if ssiTupleLockCap < tableKeys.length then
        addRelationLock { st with
          txns := st.txns.insert top
            { txn with tupleLocks := txn.tupleLocks.filter fun e => e.1 ≠ table }
          tupleReaders := removeReaderAll st.tupleReaders tableKeys top } top table
      else { st with
        txns := st.txns.insert top { txn with tupleLocks := (table, key) :: txn.tupleLocks }
        tupleReaders := st.tupleReaders.insert ((table, key), top) }

/-- The writers a tuple read conflicts with: of the row, of the whole relation,
and those whose row keys a primary-key rewrite invalidated. -/
def tupleReadWriters (st : SsiState K) (table : TableId) (key : K) : List TxnId :=
  membersAt st.tupleWriters (table, key) ++ membersAt st.promotedTupleWriters table ++
    membersAt st.wholeRelationWriters table

/-- `record_tuple_read`: conflict-out against the recorded writers, then the
SIREAD lock. -/
def recordTupleRead (st : SsiState K) (top : TxnId) (table : TableId) (key : K) : SsiState K :=
  if top ∈ st.txns then
    addTupleLock ((tupleReadWriters st table key).foldl (formRwEdge · top ·) st) top table key
  else st

/-- `record_relation_read`. -/
def recordRelationRead (st : SsiState K) (top : TxnId) (table : TableId) : SsiState K :=
  if top ∈ st.txns then
    addRelationLock ((membersAt st.relationWriters table).foldl (formRwEdge · top ·) st) top table
  else st

/-- Raise `40001` when the writer that just acted has become a doomed pivot. -/
def edgeTimeCheck (st : SsiState K) (writer : TxnId) : SsiState K × Result Unit :=
  (st, if isDoomedPivot st writer then .error serializationFailure else .ok ())

/-- `note_write`: conflict-in against the recorded readers, then the write
record at both grains, then edge-time detection. -/
def noteWrite (st : SsiState K) (writer : TxnId) (table : TableId) (key : K) :
    SsiState K × Result Unit :=
  if writer ∈ st.txns then
    let readers := membersAt st.relationReaders table ++ membersAt st.tupleReaders (table, key)
    let st := readers.foldl (formRwEdge · · writer) st
    edgeTimeCheck { st with
      txns := st.txns.modify writer fun t => { t with
        relationWrites := t.relationWrites.insert table
        tupleWrites := t.tupleWrites.insert (table, key) }
      relationWriters := st.relationWriters.insert (table, writer)
      tupleWriters := st.tupleWriters.insert ((table, key), writer) } writer
  else (st, .ok ())

/-- `note_relation_write`: every reader of the table, at either grain. -/
def noteRelationWrite (st : SsiState K) (writer : TxnId) (table : TableId) :
    SsiState K × Result Unit :=
  if writer ∈ st.txns then
    let readers := membersAt st.relationReaders table ++
      (st.tupleReaders.filter fun e => e.1.1 = table).map Prod.snd
    let st := readers.foldl (formRwEdge · · writer) st
    edgeTimeCheck { st with
      txns := st.txns.modify writer fun t => { t with
        relationWrites := t.relationWrites.insert table
        wholeRelationWrites := t.wholeRelationWrites.insert table }
      relationWriters := st.relationWriters.insert (table, writer)
      wholeRelationWriters := st.wholeRelationWriters.insert (table, writer) } writer
  else (st, .ok ())

/-- Condition (b) of `commit_check`: committing `top` first dooms an in-neighbour
still in progress that has an inbound edge itself. -/
def doomsInNeighbor (st : SsiState K) (txn : TxnSsi K) : Bool := txn.inEdges.any fun v =>
    match st.txns.lookup v with
    | none => false
    | some vt => vt.commitSeq.isNone && !vt.inEdges.isEmpty

/-- `commit_check`: refuse a commit that completes a dangerous structure, else
stamp the commit sequence. -/
def commitCheck (st : SsiState K) (top : TxnId) : SsiState K × Result Unit :=
  match st.txns.lookup top with
  | none => (st, .ok ())
  | some txn =>
    if isDoomedPivot st top then (st, .error serializationFailure)
    else if doomsInNeighbor st txn then (st, .error serializationFailure)
    else if st.nextCommitSeq + 1 < 2 ^ 64 then
      ({ st with
        nextCommitSeq := st.nextCommitSeq + 1
        txns := st.txns.insert top { txn with commitSeq := some st.nextCommitSeq } }, .ok ())
    else (st, .error (.internal "SSI commit sequence exhausted"))

/-- One reader of `promote_table_identity_locks_to_relation`: its tuple locks on
the table become a relation lock, with an edge to every writer of the table. -/
def promoteReader (table : TableId) (writers : List TxnId) (st : SsiState K) (reader : TxnId) :
    SsiState K :=
  match st.txns.lookup reader with
  | none => st
  | some txn =>
    let st := { st with
      txns := st.txns.insert reader
        { txn with tupleLocks := txn.tupleLocks.filter fun e => e.1 ≠ table }
      tupleReaders := removeReaderAll st.tupleReaders
        (txn.tupleLocks.filter fun e => e.1 = table) reader }
    addRelationLock (writers.foldl (formRwEdge · reader ·) st) reader table

/-- `promote_table_identity_locks_to_relation`: a primary-key rewrite of `table`
invalidates row keys, so both sides fall back to relation granularity. -/
def promoteTableIdentityLocksToRelation (st : SsiState K) (table : TableId) : SsiState K :=
  let readers := st.txns.keys.filter fun t =>
    match st.txns.lookup t with
    | none => false
    | some txn => txn.tupleLocks.any fun e => e.1 = table
  let writers := membersAt st.relationWriters table
  let st := { st with
    promotedTupleWriters := st.promotedTupleWriters ++ writers.map fun w => (table, w) }
  readers.foldl (promoteReader table writers) st

end Saguaro.Ssi
