/-
The storage engine's metadata and its undo records (`crates/storage/src/engine/mod.rs`).

`StorageState` holds, for each table, index, sequence and TOAST value counter, the current
entry, and for each transaction id (top-level or subtransaction) a `TxnRollback` with the
entry that each object had when this id changed it first. The four maps of the source are
one map here, since every function treats them alike but for the files: an entry that is a
relation generation has files, the others have none.

A generation is an `Arc` of the source: `arc` is its identity, which `Weak` references are to.
A DDL statement is the list of its touches, each of which records the entry before it and
installs the new one; a statement that fails half way has made the touches before the
failure.
-/

import Saguaro.Common.Error
import Saguaro.Lib.AssocMap

namespace Saguaro.Relations

open Result

inductive ObjectId where
  | table (id : Nat)
  | index (id : Nat)
  | sequence (id : Nat)
  | toastNext (table : Nat)
  deriving DecidableEq

/-- `common::FileId`: the storage id of a relation with the bits of the file kind. -/
inductive FileId where
  | heap (storageId : Nat)
  | primaryIndex (storageId : Nat)
  | secondaryIndex (storageId : Nat)
  deriving DecidableEq

structure TableSchema where
  id : Nat
  storageId : Nat
  toastTableId : Option Nat
  /-- `RelationKind::Toast`. -/
  isToast : Bool
  deriving DecidableEq

structure IndexSchema where
  id : Nat
  table : Nat
  storageId : Nat
  deriving DecidableEq

/-- The schema of a generation. -/
inductive Relation where
  | table (schema : TableSchema)
  | index (schema : IndexSchema)
  deriving DecidableEq

namespace Relation

def storageId : Relation → Nat
  | table schema => schema.storageId
  | index schema => schema.storageId

/-- `table_files`, and the file of a secondary index. -/
def files : Relation → List FileId
  | table schema => [.heap schema.storageId, .primaryIndex schema.storageId]
  | index schema => [.secondaryIndex schema.storageId]

end Relation

/-- `Arc<TableGeneration>` or `Arc<IndexGeneration>`. -/
structure Generation where
  arc : Nat
  relation : Relation
  dropped : Bool
  deriving DecidableEq

inductive Entry where
  | generation (g : Generation)
  | sequence (definition : Nat)
  | counter (next : Nat)
  deriving DecidableEq

def Entry.generation? : Entry → Option Generation
  | generation g => some g
  | _ => none

structure RetiredGeneration where
  files : List FileId
  /-- The identities behind the `Weak` references. -/
  refs : List Nat
  deriving DecidableEq

abbrev Objects := AList fun _ : ObjectId => Entry

/-- The entries before a transaction's changes, `none` where there was no entry. -/
abbrev Before := AList fun _ : ObjectId => Option Entry

structure TxnRollback where
  before : Before
  unpublishedFiles : List FileId
  supersededGenerations : List RetiredGeneration
  deriving DecidableEq

def TxnRollback.default : TxnRollback := ⟨∅, [], []⟩

structure StorageState where
  objects : Objects
  rollback : AList fun _ : Nat => TxnRollback
  retiredGenerations : List RetiredGeneration
  /-- The identity of the next `Arc`. -/
  nextArc : Nat
  deriving DecidableEq

/-- Inserts or removes an entry. -/
def Objects.set (objects : Objects) (id : ObjectId) : Option Entry → Objects
  | some entry => objects.insert id entry
  | none => objects.erase id

/-- `entry(key).or_insert(value)`. -/
def Before.orInsert (before : Before) (id : ObjectId) (previous : Option Entry) : Before :=
  match before.lookup id with
  | some _ => before
  | none => before.insert id previous

/-- What a touch installs; a new generation is a new `Arc`. -/
inductive NewEntry where
  | relation (relation : Relation) (dropped : Bool)
  | sequence (definition : Nat)
  | counter (next : Nat)
  | gone
  deriving DecidableEq

def NewEntry.entry (arc : Nat) : NewEntry → Option Entry
  | relation r dropped => some (.generation ⟨arc, r, dropped⟩)
  | sequence definition => some (.sequence definition)
  | counter next => some (.counter next)
  | gone => none

structure Touch where
  id : ObjectId
  new : NewEntry
  deriving DecidableEq

namespace StorageState

variable (s : StorageState)

/-- `state.rollback.entry(txn_id).or_default()`, changed by `f`. -/
def withRollback (txnId : Nat) (f : TxnRollback → TxnRollback) : StorageState :=
  { s with rollback := s.rollback.insert txnId (f ((s.rollback.lookup txnId).getD .default)) }

/-- `record_table_before`, `record_index_before`, `record_sequence_before` and
`record_toast_next_value_id_before`. Id 0 is recovery and maintenance, without undo. -/
def recordBefore (txnId : Nat) (id : ObjectId) : StorageState :=
  if txnId = 0 then s
  else s.withRollback txnId fun rollback =>
    { rollback with before := rollback.before.orInsert id (s.objects.lookup id) }

/-- Installs an entry under a new identity. -/
def install (touch : Touch) : StorageState := { s with
    objects := s.objects.set touch.id (touch.new.entry s.nextArc)
    nextArc := s.nextArc + 1 }

def touch (txnId : Nat) (touch : Touch) : StorageState :=
  (s.recordBefore txnId touch.id).install touch

def touchAll (txnId : Nat) (touches : List Touch) : StorageState :=
  touches.foldl (fun s touch => s.touch txnId touch) s

def addUnpublished (txnId : Nat) (files : List FileId) : StorageState :=
  if txnId = 0 then s
  else s.withRollback txnId fun rollback =>
    { rollback with unpublishedFiles := rollback.unpublishedFiles ++ files }

/-! ### DDL -/

def liveTable (id : Nat) : Option TableSchema :=
  match s.objects.lookup (.table id) with
  | some (.generation ⟨_, .table schema, false⟩) => some schema
  | _ => none

def liveIndex (id : Nat) : Option IndexSchema :=
  match s.objects.lookup (.index id) with
  | some (.generation ⟨_, .index schema, false⟩) => some schema
  | _ => none

/-- The live indexes of a table. -/
def tableIndexes (table : Nat) : List IndexSchema := s.objects.keys.filterMap fun
    | .index id => (s.liveIndex id).filter fun schema => schema.table = table
    | _ => none

def firstToastValueId : Nat := 1

/-- A TOAST relation starts a new value counter with each generation. -/
def toastTouch (schema : TableSchema) : List Touch :=
  if schema.isToast then [⟨.toastNext schema.id, .counter firstToastValueId⟩] else []

def createTable (schema : TableSchema) : List Touch :=
  ⟨.table schema.id, .relation (.table schema) false⟩ :: toastTouch schema

/-- `mark_table_dropped`, with the cascade to the indexes. A table that is not there is only
recorded. -/
def markTableDropped (table : Nat) : List Touch := (match s.objects.lookup (.table table) with
    | some (.generation ⟨_, .table schema, _⟩) =>
      (if schema.isToast then [⟨.toastNext table, .gone⟩] else []) ++
        [⟨.table table, .relation (.table schema) true⟩]
    | _ => [⟨.table table, .gone⟩]) ++
  (s.tableIndexes table).map fun index => ⟨.index index.id, .relation (.index index) true⟩

def dropTable (table : Nat) : List Touch :=
  match s.liveTable table with
  | none => []
  | some schema =>
    s.markTableDropped table ++
      (if schema.isToast then none else schema.toastTableId).toList.flatMap s.markTableDropped

/-- The touches of `update_table_schema` and the files it adds to the unpublished ones. The
loop over the indexes stops at the first that is not installed or is of another table. -/
def updateTableSchema (schema : TableSchema) (indexes : List IndexSchema) :
    List Touch × List FileId :=
  match s.liveTable schema.id with
  | none => ([], [])
  | some current =>
    if current.isToast ≠ schema.isToast then ([], [])
    else
      let valid := indexes.takeWhile fun index =>
        index.table = schema.id && (s.liveIndex index.id).isSome
      let moved := valid.filter fun index =>
        (s.liveIndex index.id).any fun old => old.storageId ≠ index.storageId
      let rewrite := current.storageId ≠ schema.storageId ∧ valid.length = indexes.length
      (createTable schema ++
          valid.map fun index => ⟨.index index.id, .relation (.index index) false⟩,
        moved.flatMap (fun index => (Relation.index index).files) ++
          if rewrite then (Relation.table schema).files else [])

/-- The last part of `create_index`, after the backfill: the index is installed and its file
is no longer unpublished. The part before it records the index and adds the file. -/
def publishIndex (txnId : Nat) (schema : IndexSchema) : StorageState :=
  let s := s.install ⟨.index schema.id, .relation (.index schema) false⟩
  match s.rollback.lookup txnId with
  | none => s
  | some _ => s.withRollback txnId fun rollback =>
    { rollback with unpublishedFiles :=
        rollback.unpublishedFiles.filter (· ∉ (Relation.index schema).files) }

def startIndex (txnId : Nat) (schema : IndexSchema) : StorageState :=
  (s.recordBefore txnId (.index schema.id)).addUnpublished txnId (Relation.index schema).files

def dropIndex (index : Nat) : List Touch :=
  match s.liveIndex index with
  | none => []
  | some schema => [⟨.index index, .relation (.index schema) true⟩]

def createSequence (id definition : Nat) : List Touch := [⟨.sequence id, .sequence definition⟩]

def dropSequence (id : Nat) : List Touch :=
  if (s.objects.lookup (.sequence id)).isSome then [⟨.sequence id, .gone⟩] else []

/-! ### TRUNCATE -/

/-- `TruncateCatalogUpdate`. -/
structure TruncateUpdate where
  table : TableSchema
  toastTable : Option TableSchema
  indexes : List IndexSchema
  deriving DecidableEq

def TruncateUpdate.relations (update : TruncateUpdate) : List Relation :=
  .table update.table :: update.toastTable.toList.map .table ++ update.indexes.map .index

/-- `truncate_update_files`. -/
def TruncateUpdate.files (update : TruncateUpdate) : List FileId :=
  update.relations.flatMap Relation.files

def TruncateUpdate.touches (update : TruncateUpdate) : List Touch :=
  ⟨.table update.table.id, .relation (.table update.table) false⟩ ::
    (update.toastTable.toList.flatMap fun toast =>
      [⟨.table toast.id, .relation (.table toast) false⟩,
        ⟨.toastNext toast.id, .counter firstToastValueId⟩]) ++
    update.indexes.map fun index => ⟨.index index.id, .relation (.index index) false⟩

/-- The live generations that an update replaces. -/
def replacedGenerations (update : TruncateUpdate) : List Generation :=
  update.touches.filterMap fun touch =>
    (s.objects.lookup touch.id).bind Entry.generation?

/-- `validate_truncate_update_storage_ids_are_fresh`. -/
def storageIdsFresh (update : TruncateUpdate) : Bool :=
  s.objects.entries.all fun e => e.2.generation?.all fun g =>
    g.dropped || (update.relations.all fun r => r.storageId ≠ g.relation.storageId)

/-- `validate_truncate_update_for_publish`, without the record that it returns. -/
def truncateUpdateValid (update : TruncateUpdate) : Bool :=
  match s.liveTable update.table.id with
  | none => false
  | some old =>
    !old.isToast && update.table.toastTableId = old.toastTableId &&
    update.toastTable.map (·.id) = old.toastTableId &&
    (update.toastTable.all fun toast => (s.liveTable toast.id).any (·.isToast)) &&
    (update.indexes.all fun index => index.table = update.table.id) &&
    decide ((update.indexes.map (·.id)).Nodup) &&
    (update.indexes.all fun index => (s.tableIndexes update.table.id).any (·.id = index.id)) &&
    ((s.tableIndexes update.table.id).all fun index => update.indexes.any (·.id = index.id)) &&
    s.storageIdsFresh update

/-- `validate_truncate_batch_for_publish`, without the records that it returns. -/
def truncateBatchValid (updates : List TruncateUpdate) : Bool :=
  decide ((updates.map (·.table.id)).Nodup) &&
  decide ((updates.flatMap fun update => update.relations.map Relation.storageId).Nodup) &&
  updates.all s.truncateUpdateValid

/-- The record that retires what an update replaces. -/
def retiredBy (update : TruncateUpdate) : RetiredGeneration :=
  ⟨(s.replacedGenerations update).flatMap (·.relation.files),
    (s.replacedGenerations update).map (·.arc)⟩

/-- `prepare_truncate_table`: the new files are unpublished files of the writing id. -/
def prepareTruncate (txnId : Nat) (update : TruncateUpdate) : StorageState :=
  if s.storageIdsFresh update then s.addUnpublished txnId update.files else s

def retainUnpublished (published : List FileId) (rollback : TxnRollback) : TxnRollback :=
  { rollback with unpublishedFiles := rollback.unpublishedFiles.filter (· ∉ published) }

/-- One update of `publish_truncate_tables_transactional`: when the id has changed the table
before, what is replaced now is superseded. -/
def publishUpdate (txnId : Nat) (update : TruncateUpdate) : StorageState :=
  let repeated := ((s.rollback.lookup txnId).bind fun rollback =>
    rollback.before.lookup (.table update.table.id)).isSome
  let retired := s.retiredBy update
  let s := s.touchAll txnId update.touches
  if repeated then s.withRollback txnId fun rollback =>
    { rollback with supersededGenerations := rollback.supersededGenerations ++ [retired] }
  else s

/-- `publish_truncate_tables_transactional`. The tables of a batch are distinct, so that each
update finds the entries that the whole batch finds. -/
def publishTruncateTransactional (txnId : Nat) (updates : List TruncateUpdate) :
    Option StorageState :=
  if s.truncateBatchValid updates then
    let s := updates.foldl (fun s update => s.publishUpdate txnId update) s
    some (s.withRollback txnId (retainUnpublished (updates.flatMap TruncateUpdate.files)))
  else none

/-- `publish_truncate_tables`: after the commit of an autocommit TRUNCATE, without undo. -/
def publishTruncate (updates : List TruncateUpdate) : Option StorageState :=
  if s.truncateBatchValid updates then
    let retired := updates.map s.retiredBy
    let s := updates.foldl (fun s update => s.touchAll 0 update.touches) s
    let published := updates.flatMap TruncateUpdate.files
    some { s with
      rollback := s.rollback.filterMapValues fun rollback => some (retainUnpublished published rollback)
      retiredGenerations := s.retiredGenerations ++ retired }
  else none

/-- `set_table_compression` and `set_table_toast_metadata`: a new generation with the files of
the old one, without undo. -/
def setTableSchema (schema : TableSchema) : Option StorageState :=
  (s.liveTable schema.id).map fun _ => s.install ⟨.table schema.id, .relation (.table schema) false⟩

/-! ### Savepoints, rollback and commit -/

/-- `retire_replaced_table_generation` and `retire_replaced_index_generation`: the generation
is retired unless its replacement has the same storage. -/
def retireReplaced (current replacement : Option Entry) : List Generation :=
  match current.bind Entry.generation? with
  | none => []
  | some g =>
    if (replacement.bind Entry.generation?).any fun r =>
      r.relation.storageId = g.relation.storageId then [] else [g]

def retire (generations : List Generation) (files : List FileId) : RetiredGeneration :=
  ⟨files ++ generations.flatMap (·.relation.files), generations.map (·.arc)⟩

/-- `StorageSavepoint`: the undo record of the top-level id, and the entries of its objects. -/
structure StorageSavepoint where
  rollback : Option TxnRollback
  objects : Before
  deriving DecidableEq

def savepoint (txnId : Nat) : StorageSavepoint :=
  let rollback := s.rollback.lookup txnId
  ⟨rollback, (rollback.elim [] fun r => r.before.keys).foldl
    (fun objects id => objects.insert id (s.objects.lookup id)) ∅⟩

/-- Puts an entry back, and collects what it replaces. -/
def putBack (replaced : List Generation × Objects) (id : ObjectId) (target : Option Entry) :
    List Generation × Objects :=
  (replaced.1 ++ retireReplaced (replaced.2.lookup id) target, replaced.2.set id target)

/-- The entry that `rollback_to_savepoint` puts back. -/
def savepointTarget (current : TxnRollback) (savepoint : StorageSavepoint) (id : ObjectId) :
    Option Entry :=
  match savepoint.objects.lookup id with
  | some target => target
  | none => (current.before.lookup id).getD none

def rollbackToSavepoint (txnId : Nat) (savepoint : StorageSavepoint) : StorageState :=
  let current := (s.rollback.lookup txnId).getD .default
  let retained := savepoint.rollback.elim [] TxnRollback.unpublishedFiles
  let unpublished := current.unpublishedFiles.filter (· ∉ retained)
  let ids := current.before.keys ++ savepoint.rollback.elim [] fun r => r.before.keys
  let (replaced, objects) := ids.foldl
    (fun acc id => putBack acc id (savepointTarget current savepoint id)) ([], s.objects)
  let retired := retire replaced unpublished
  let superseded := current.supersededGenerations.drop
    (savepoint.rollback.elim 0 fun r => r.supersededGenerations.length)
  { s with
    objects
    rollback := match savepoint.rollback with
      | some rollback => s.rollback.insert txnId rollback
      | none => s.rollback.erase txnId
    retiredGenerations := s.retiredGenerations ++ superseded ++
      if retired.files = [] then [] else [retired] }

/-- `rollback_txn`, with the unpublished files that it then removes. -/
def rollbackTxn (txnId : Nat) : StorageState × List FileId :=
  match s.rollback.lookup txnId with
  | none => (s, [])
  | some rollback =>
    let (replaced, objects) := rollback.before.entries.foldl
      (fun acc e => putBack acc e.1 e.2) ([], s.objects)
    let retired := retire replaced []
    ({ s with
      objects
      rollback := s.rollback.erase txnId
      retiredGenerations := s.retiredGenerations ++
        (if retired.files = [] then [] else [retired]) ++ rollback.supersededGenerations },
     rollback.unpublishedFiles.filter (· ∉ retired.files))

/-- `committed_change_retired_table` and `committed_change_retired_index`. -/
def retiredByCommit (id : ObjectId) (previous : Option Entry) : List Generation :=
  match previous.bind Entry.generation? with
  | none => []
  | some g =>
    match (s.objects.lookup id).bind Entry.generation? with
    | some current =>
      if current.dropped || current.relation.storageId ≠ g.relation.storageId then [g] else []
    | none => [g]

def commitTxn (txnId : Nat) : StorageState :=
  match s.rollback.lookup txnId with
  | none => s
  | some rollback =>
    let retired := retire (rollback.before.entries.flatMap fun e => s.retiredByCommit e.1 e.2) []
    { s with
      rollback := s.rollback.erase txnId
      retiredGenerations := s.retiredGenerations ++
        (if retired.files = [] then [] else [retired]) ++ rollback.supersededGenerations }

end StorageState

end Saguaro.Relations
