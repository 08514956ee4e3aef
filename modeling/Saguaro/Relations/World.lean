/-
The storage engine's relation files while transactions, snapshots and clean-ups interleave
(`crates/storage/src/engine/mod.rs`, driven by `crates/server/src/query/txn.rs` and
`truncate.rs`).

A file is removed in two ways. `rollback_txn` removes unpublished files once it has released
the lock (`doomed`); `try_cleanup_retired_generations` takes the retired generations without a
strong reference out of the queue (`candidates`) and removes their files afterwards. Everything
that is under one lock of the engine's state is one step here; in between, other sessions take
theirs. The undo of a transaction is one `rollback_txn` for each of its ids, its commit one
`commit_txn` for each.

Storage ids are given out once by the catalog. The model takes this as `World.Free`: a new
storage id is one that nothing in the engine still refers to.
-/

import Saguaro.Relations.Session

namespace Saguaro.Relations

open StorageState

/-- What a generation's files belong to. -/
inductive Store where
  | table (storageId : Nat)
  | index (storageId : Nat)
  deriving DecidableEq

def Relation.store : Relation → Store
  | table schema => .table schema.storageId
  | index schema => .index schema.storageId

def FileId.store : FileId → Store
  | heap storageId => .table storageId
  | primaryIndex storageId => .table storageId
  | secondaryIndex storageId => .index storageId

theorem Relation.mem_files {f : FileId} {r : Relation} : f ∈ r.files ↔ f.store = r.store := by
  cases f <;> cases r <;> simp [Relation.files, Relation.store, FileId.store]

/-- What the session of a transaction is doing. -/
inductive Phase where
  | running
  /-- `create_index` has recorded the index and fills it. -/
  | building (schema : IndexSchema)
  /-- `rollback_txn` for these ids; then the session goes on at a savepoint, or ends. -/
  | undoing (xids : List Nat) (target : Option (SavepointLevel × List SavepointLevel))
  /-- `commit_txn` for these ids. -/
  | committing (xids : List Nat)

structure Block where
  savepoints : List SavepointLevel
  liveSubxids : List Nat
  phase : Phase

structure World where
  state : StorageState
  /-- The open transactions, by their top-level ids. -/
  blocks : AList fun _ : Nat => Block
  nextXid : Nat
  /-- The captured relation snapshots: copies of the maps. -/
  snapshots : List Objects
  candidates : List RetiredGeneration
  doomed : List FileId

/-! ### Holders of generations -/

def Objects.generations (objects : Objects) : List (ObjectId × Generation) :=
  objects.entries.filterMap fun e => e.2.generation?.map (e.1, ·)

def Before.generations (before : Before) : List (ObjectId × Generation) :=
  before.entries.filterMap fun e => (e.2.bind Entry.generation?).map (e.1, ·)

def StorageSavepoint.generations (savepoint : StorageSavepoint) : List (ObjectId × Generation) :=
  (savepoint.rollback.elim [] fun r => r.before.generations) ++ savepoint.objects.generations

namespace World

variable (w : World)

def withState (state : StorageState) : World := { w with state }

def savepoints : List StorageSavepoint :=
  w.blocks.entries.flatMap fun e => e.2.savepoints.map SavepointLevel.storage

/-- Every strong reference to a generation: the installed ones, those that a rollback could
restore and those of snapshots. -/
def held : List (ObjectId × Generation) := w.state.objects.generations ++
    (w.state.rollback.entries.flatMap fun e => e.2.before.generations) ++
    (w.savepoints.flatMap StorageSavepoint.generations) ++ w.snapshots.flatMap Objects.generations

/-- A relation that is installed, that could be restored or that a snapshot has uses the file. -/
def Used (f : FileId) : Prop := ∃ e ∈ w.held, e.2.dropped = false ∧ f ∈ e.2.relation.files

/-- `retired_generation_is_referenced`. -/
def referenced (r : RetiredGeneration) : Bool :=
  r.refs.any fun arc => w.held.any fun e => e.2.arc = arc

/-- The records of retired generations, also those that wait for the end of a transaction. -/
def retirements : List RetiredGeneration := w.state.retiredGenerations ++
    w.state.rollback.entries.flatMap fun e => e.2.supersededGenerations

/-- A store that `x` may start to use. -/
def Free (x : Nat) (store : Store) : Prop := (∀ e ∈ w.held, e.2.relation.store ≠ store) ∧
  (∀ e ∈ w.state.rollback.entries, e.1 ≠ x → ∀ f ∈ e.2.unpublishedFiles, f.store ≠ store) ∧
  (∀ r ∈ w.retirements ++ w.candidates, ∀ f ∈ r.files, f.store ≠ store) ∧
  ∀ f ∈ w.doomed, f.store ≠ store

instance (x : Nat) (store : Store) : Decidable (w.Free x store) :=
  inferInstanceAs (Decidable (_ ∧ _ ∧ _ ∧ _))

/-- The installed generation of an object. -/
def installed (id : ObjectId) : Option Generation :=
  (w.state.objects.lookup id).bind Entry.generation?

/-- A touch installs a new schema or a drop mark on the storage that is installed, or a
relation on free storage. -/
def Allocated (x : Nat) (touch : Touch) : Prop :=
  match touch.new with
  | .relation r dropped =>
    ((w.installed touch.id).any fun g =>
      g.relation.store = r.store && (dropped || !g.dropped)) = true ∨
    (dropped = false ∧ w.Free x r.store)
  | _ => True

instance (x : Nat) (touch : Touch) : Decidable (w.Allocated x touch) := by
  unfold Allocated
  split <;> infer_instance

/-- A condition on each touch, in the state in which it is made. -/
def Each (P : World → Touch → Prop) (x : Nat) (w : World) : List Touch → Prop
  | [] => True
  | touch :: rest => P w touch ∧ (w.withState (w.state.touch x touch)).Each P x rest

instance Each.decidable (P : World → Touch → Prop) [∀ w touch, Decidable (P w touch)] (x : Nat) :
    ∀ (w : World) (touches : List Touch), Decidable (w.Each P x touches)
  | _, [] => inferInstanceAs (Decidable True)
  | w, touch :: rest =>
    have := Each.decidable P x (w.withState (w.state.touch x touch)) rest
    inferInstanceAs (Decidable (_ ∧ _))

/-- A condition on each update of a transactional TRUNCATE. -/
def EachUpdate (P : World → TruncateUpdate → Prop) (x : Nat) (w : World) :
    List TruncateUpdate → Prop
  | [] => True
  | update :: rest =>
    P w update ∧ (w.withState (w.state.publishUpdate x update)).EachUpdate P x rest

instance EachUpdate.decidable (P : World → TruncateUpdate → Prop)
    [∀ w update, Decidable (P w update)] (x : Nat) :
    ∀ (w : World) (updates : List TruncateUpdate), Decidable (w.EachUpdate P x updates)
  | _, [] => inferInstanceAs (Decidable True)
  | w, update :: rest =>
    have := EachUpdate.decidable P x (w.withState (w.state.publishUpdate x update)) rest
    inferInstanceAs (Decidable (_ ∧ _))

/-! ### Steps -/

def unpublished (x : Nat) : List FileId :=
  (w.state.rollback.lookup x).elim [] TxnRollback.unpublishedFiles

/-- The new storage of TRUNCATE is storage that `x` has prepared and that nothing uses yet. -/
def PreparedBy (x : Nat) (updates : List TruncateUpdate) : Prop :=
  ∀ f ∈ updates.flatMap TruncateUpdate.files, f ∈ w.unpublished x ∧ w.Free x f.store

instance (x : Nat) (updates : List TruncateUpdate) : Decidable (w.PreparedBy x updates) :=
  inferInstanceAs (Decidable (∀ _ ∈ _, _))

/-- The session of a transaction, with the engine's state. -/
def session (txnId : Nat) (block : Block) : Session :=
  ⟨w.state, txnId, block.savepoints, block.liveSubxids, w.nextXid, w.state.objects⟩

def writingXid (txnId : Nat) (block : Block) : Nat := (w.session txnId block).writingXid

/-- The new state of a session. -/
def resume (txnId : Nat) (phase : Phase) (σ : Session) : World := { w with
    state := σ.state
    nextXid := σ.nextXid
    blocks := w.blocks.insert txnId ⟨σ.savepoints, σ.liveSubxids, phase⟩ }

def running (txnId : Nat) : Option Block :=
  match w.blocks.lookup txnId with
  | some ⟨savepoints, live, .running⟩ => some ⟨savepoints, live, .running⟩
  | _ => none

/-- The statements that are one step. The storage ids that they bring are free. -/
def statement (txnId : Nat) (block : Block) : Session.Statement → Option World
  | .ddl ddl made =>
    let x := w.writingXid txnId block
    let (touches, files) := ddl.effect w.state
    if (∀ f ∈ files, w.Free x f.store) ∧
        (w.withState (w.state.addUnpublished x files)).Each (fun w => w.Allocated x) x
          (touches.take made) then
      ((w.session txnId block).step (.ddl ddl made)).map (w.resume txnId .running)
    else none
  | .prepareTruncate update =>
    let x := w.writingXid txnId block
    if ∀ f ∈ update.files, w.Free x f.store then
      ((w.session txnId block).step (.prepareTruncate update)).map (w.resume txnId .running)
    else none
  | .publishTruncate updates =>
    let x := w.writingXid txnId block
    if w.PreparedBy x updates ∧
        w.EachUpdate (fun w update => w.Each (fun w => w.Allocated x) txnId update.touches)
          txnId updates then
      ((w.session txnId block).step (.publishTruncate updates)).map (w.resume txnId .running)
    else none
  | .savepoint name =>
    ((w.session txnId block).step (.savepoint name)).map (w.resume txnId .running)
  | .release name =>
    ((w.session txnId block).step (.release name)).map (w.resume txnId .running)
  | _ => none

/-- The engine without the published files among the unpublished ones. -/
def publishing (updates : List TruncateUpdate) : World := w.withState { w.state with
    rollback := w.state.rollback.filterMapValues fun rollback =>
      some (retainUnpublished (updates.flatMap TruncateUpdate.files) rollback) }

inductive Action where
  | start
  | statement (txnId : Nat) (statement : Session.Statement)
  | startIndex (txnId : Nat) (schema : IndexSchema)
  | publishIndex (txnId : Nat)
  /-- The backfill fails. -/
  | abandonIndex (txnId : Nat)
  | rollbackTo (txnId : Nat) (name : String)
  | rollback (txnId : Nat)
  | commit (txnId : Nat)
  /-- The next `rollback_txn` or `commit_txn`. -/
  | endNext (txnId : Nat)
  | finish (txnId : Nat)
  /-- `publish_truncate_tables` of an autocommit TRUNCATE. -/
  | publishTruncate (txnId : Nat) (updates : List TruncateUpdate)
  | setTableSchema (schema : TableSchema)
  | capture
  | release (snapshot : Nat)
  /-- The first part of `try_cleanup_retired_generations`. -/
  | collect
  /-- Its second part, for the first candidate. -/
  | removeCandidate
  | requeueCandidate
  /-- `remove_files` of `rollback_txn`, for the first file. -/
  | removeDoomed
  /-- Either of them fails. -/
  | giveUp (candidates doomed : Bool)

/-- The block with a new phase; a savepoint's records go when the transaction ends. -/
def enter (txnId : Nat) (block : Block) : World := { w with blocks := w.blocks.insert txnId block }

def step : Action → Option World
  | .start => some { w with
      blocks := w.blocks.insert w.nextXid ⟨[], [], .running⟩, nextXid := w.nextXid + 1 }
  | .statement txnId statement => (w.running txnId).bind fun block =>
    w.statement txnId block statement
  | .startIndex txnId schema => (w.running txnId).bind fun block =>
    let x := w.writingXid txnId block
    if w.state.objects.lookup (.index schema.id) = none ∧
        ∀ f ∈ (Relation.index schema).files, w.Free x f.store then
      some ((w.withState (w.state.startIndex x schema)).enter txnId
        { block with phase := .building schema })
    else none
  | .publishIndex txnId => (w.blocks.lookup txnId).bind fun block =>
    match block.phase with
    | .building schema =>
      let x := w.writingXid txnId block
      if w.Allocated x ⟨.index schema.id, .relation (.index schema) false⟩ then
        some ((w.withState (w.state.publishIndex x schema)).enter txnId
          { block with phase := .running })
      else none
    | _ => none
  | .abandonIndex txnId => (w.blocks.lookup txnId).bind fun block =>
    match block.phase with
    | .building _ => some (w.enter txnId { block with phase := .running })
    | _ => none
  | .rollbackTo txnId name => (w.running txnId).bind fun block =>
    (Session.findLevel name block.savepoints).map fun found =>
      (w.withState (w.state.rollbackToSavepoint txnId found.1.storage)).enter txnId
        { block with
          phase := .undoing (block.liveSubxids.filter (found.1.subxid ≤ ·)) (some found) }
  | .rollback txnId => (w.running txnId).map fun block =>
    w.enter txnId ⟨[], block.liveSubxids, .undoing (block.liveSubxids.reverse ++ [txnId]) none⟩
  | .commit txnId => (w.running txnId).map fun block =>
    w.enter txnId ⟨[], block.liveSubxids, .committing (block.liveSubxids ++ [txnId])⟩
  | .endNext txnId => (w.blocks.lookup txnId).bind fun block =>
    match block.phase with
    | .undoing (x :: rest) target =>
      let (state, files) := w.state.rollbackTxn x
      some { (w.withState state).enter txnId { block with phase := .undoing rest target } with
        doomed := w.doomed ++ files }
    | .committing (x :: rest) =>
      some ((w.withState (w.state.commitTxn x)).enter txnId
        { block with phase := .committing rest })
    | _ => none
  | .finish txnId => (w.blocks.lookup txnId).bind fun block =>
    match block.phase with
    | .undoing [] (some (level, below)) =>
      some { w.enter txnId ⟨{ level with subxid := w.nextXid } :: below,
          block.liveSubxids.filter (· < level.subxid) ++ [w.nextXid], .running⟩ with
        nextXid := w.nextXid + 1 }
    | .undoing [] none => some { w with blocks := w.blocks.erase txnId }
    | .committing [] => some { w with blocks := w.blocks.erase txnId }
    | _ => none
  | .publishTruncate txnId updates => (w.running txnId).bind fun block =>
    if block.savepoints.isEmpty ∧ w.PreparedBy txnId updates ∧
        (w.publishing updates).Each (fun w => w.Allocated 0) 0
          (updates.flatMap TruncateUpdate.touches) then
      (w.state.publishTruncate updates).map w.withState
    else none
  | .setTableSchema schema =>
    if (w.installed (.table schema.id)).any fun g =>
        g.relation.store = (Relation.table schema).store && !g.dropped then
      (w.state.setTableSchema schema).map w.withState
    else none
  | .capture => some { w with snapshots := w.state.objects :: w.snapshots }
  | .release snapshot => some { w with snapshots := w.snapshots.eraseIdx snapshot }
  | .collect => some { w with
      state := { w.state with
        retiredGenerations := w.state.retiredGenerations.filter fun r => w.referenced r }
      candidates := w.candidates ++ w.state.retiredGenerations.filter fun r => !w.referenced r }
  | .removeCandidate => match w.candidates with
      | [] => none
      | _ :: rest => some { w with candidates := rest }
  | .requeueCandidate => match w.candidates with
      | [] => none
      | r :: rest => some { w with
          state := { w.state with retiredGenerations := w.state.retiredGenerations ++ [r] }
          candidates := rest }
  | .removeDoomed => match w.doomed with
      | [] => none
      | _ :: rest => some { w with doomed := rest }
  | .giveUp candidates doomed => some { w with
      candidates := if candidates then [] else w.candidates
      doomed := if doomed then [] else w.doomed }

/-- The files that an action removes. -/
def removes : Action → List FileId
  | .removeCandidate => (w.candidates.head?).elim [] RetiredGeneration.files
  | .removeDoomed => w.doomed.take 1
  | _ => []

/-- An engine that has been opened: no transaction is open and nothing is retired. -/
def opened (objects : Objects) (nextArc nextXid : Nat) : World :=
  ⟨⟨objects, ∅, [], nextArc⟩, ∅, nextXid, [], [], []⟩

end World

end Saguaro.Relations
