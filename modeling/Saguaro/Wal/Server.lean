/-
The WAL in the server: sessions, checkpoints and recovery.

A `Server` is a WAL with the registry of running transactions beside it, as the
sessions and the checkpoint runner of the server use them. A session takes an id,
appends records under it, and leaves the registry when it is through; a checkpoint
reads the registry, then the end of the log, appends its marker, and then persists the
CLOG (`run_checkpoint` in `crates/server/src/checkpoint.rs`). After a crash the next id
comes from the retained records (`next_txn_id` in `recovery.rs`).

The two readings of a checkpoint are not one step. `Quiet` says that nobody who was
registered between them has appended a commit record before the second.

`Fits` relates a snapshot file to the log, `Tracking` the manager's statuses. What
happens to them at a checkpoint and at a restart is proved here, for the invariant of
`Wal/Durability.lean`.
-/

import Saguaro.Server.Registry
import Saguaro.Wal.Knowledge
import Saguaro.Wal.Runs

namespace Saguaro.Wal

open Crash FileWal Transition List Logged

variable {χ : Type}

/-- The largest id that a record carries: its own, or of a subtransaction it commits. -/
def highId (record : WalRecord χ) : TxnId := max record.txnId.toNat
    (match record.kind with
    | .commitWithSubxids subxids => (subxids.map UInt64.toNat).max?.getD 0
    | _ => 0)

/-- The ids that a record leaves behind: those it commits, and the writer of a change,
which the changed tuples carry. With `strict` every record counts, also an abort. -/
def carried (strict : Bool) (record : WalRecord χ) : List TxnId :=
  committedBy record ++ if strict || record.kind.isRedoOperation then writers record else []

def CarriedIn (strict : Bool) (log : List (Logged χ)) (id : TxnId) : Prop :=
  ∃ entry ∈ log, id ∈ carried strict entry.record

/-- `max_txn_id` in `next_txn_id`. -/
def maxTxnId (records : List (WalRecord χ)) : TxnId := (records.map highId).max?.getD 0

/-- `next_txn_id`. -/
def nextTxnId (records : List (WalRecord χ)) : Result TxnId :=
  if maxTxnId records + 1 ≥ 2 ^ 64 then .error (walError "transaction id overflow")
  else .ok (max (maxTxnId records + 1) FIRST_NORMAL_XID)

/-- What the checkpoint runner has read: the active ids and the next id, and then the
end of the log. -/
inductive Reading where
  | none
  | captured (active : List TxnId) (boundary : TxnId)
  | placed (active : List TxnId) (boundary : TxnId) (endLsn : Nat)
  deriving DecidableEq

structure Server (χ : Type) where
  wal : World χ
  registry : Registry
  /-- The ids that this process has appended a commit record for. -/
  settled : List TxnId
  reading : Reading
  /-- The next id is known and in-flight writers are resolved. -/
  recovered : Bool

inductive Event (χ : Type) where
  | wal (action : Action χ)
  | register
  | registerSubxid (top : TxnId)
  | deregister (ids : List TxnId)
  | captureActive
  | readEnd

namespace Server

variable (params : Params χ)

def init : Server χ := ⟨.init, .new FIRST_NORMAL_XID, [], .none, false⟩

/-- The server without a process, or with one that is just starting. -/
def restarted (s : Server χ) (w : World χ) : Server χ :=
  ⟨w, .new s.registry.nextTxnId, [], .none, false⟩

/-- What an action of the WAL changes in the rest of the server. -/
def after (s : Server χ) (action : Action χ) (w : World χ) : Server χ :=
  if w.live.isNone then s.restarted w
  else
    match action with
    | .append record _ =>
      { s with
        wal := w
        settled := if w.log.length = s.wal.log.length then s.settled
          else committedBy record ++ s.settled }
    | .capture .. => { s with wal := w, reading := .none }
    | .reopen .. => s.restarted w
    | .recover boundary _ => { s with wal := w, registry := .new boundary, recovered := true }
    | _ => { s with wal := w }

def step (s : Server χ) : Event χ → Option (Server χ)
  | .wal action => (World.step params s.wal action).map (s.after action)
  | .register => if s.recovered then some { s with registry := s.registry.registerAllocated.2 } else none
  | .registerSubxid top =>
    if s.recovered then some { s with registry := (s.registry.registerSubxidAllocated top).2 } else none
  | .deregister ids => some { s with registry := s.registry.deregisterAll ids }
  | .captureActive =>
    match s.wal.phase with
    | .idle | .ready _ =>
      if s.recovered then
        some { s with reading := .captured s.registry.active s.registry.nextTxnId }
      else none
    | _ => none
  | .readEnd =>
    match s.reading, s.wal.live with
    | .captured active boundary, some st =>
      if st.poisoned = none then
        some { s with reading := .placed active boundary st.writtenLsn }
      else none
    | _, _ => none

/-- The record that a checkpoint appends once it has read the end of the log. -/
def IsMarker (boundary endLsn flushedLsn : Nat) (record : WalRecord χ) : Prop :=
  record.txnId.toNat = boundary - 1 ∧ (∃ e p c, record.kind = .checkpoint e p c) ∧
    endLsn < record.lsn ∧ record.lsn ≤ flushedLsn

/-- What the sessions, the checkpoint runner, recovery and the file system promise. A
record is about running transactions that have no commit record; while a checkpoint
reads, it holds the fence that every change of a page, a sequence or the catalog needs.
A checkpoint persists the CLOG for what it has read, after its marker was flushed. -/
def ok (s : Server χ) : Event χ → Prop
  | .wal (.append record _) => params.serde.Exact record.kind ∧ s.recovered ∧
      (∀ active boundary, s.reading = .captured active boundary →
        record.kind.isRedoOperation = false) ∧ ∀ st, s.wal.live = some st → st.poisoned = none →
        ∀ id ∈ writers record ++ committedBy record, id ∈ s.registry.active ∧ id ∉ s.settled
  | .wal (.capture proposed active boundary) => s.recovered ∧ Boundary s.wal.log proposed ∧
      ∃ endLsn st, s.wal.live = some st ∧ s.reading = .placed active boundary endLsn ∧
        proposed ≤ endLsn ∧ ∃ entry ∈ s.wal.log, IsMarker boundary endLsn st.flushedLsn entry.record
  | .wal (.recover boundary faults) => s.recovered = false ∧ faults = [] ∧
      ∃ st entries, s.wal.live = some st ∧ st.poisoned = none ∧
        replayEntriesFrom params s.wal.disk st 0 = .ok entries ∧
        nextTxnId (entries.map WalEntry.record) = .ok boundary
  | .wal (.reopen disk _) => Survives params.geometry s.wal.disk disk
  | .wal .kill => True
  | .wal _ => s.recovered
  | _ => True

/-- Nobody commits who was registered after a checkpoint has read the registry, before
the checkpoint reads the end of the log. -/
def Quiet (s : Server χ) : Event χ → Prop
  | .wal (.append record _) => ∀ active boundary, s.reading = .captured active boundary →
      ∀ id ∈ committedBy record, id < boundary
  | _ => True

/-- Nobody who was registered after a checkpoint has read the registry leaves a record before the
checkpoint reads the end of the log, or has a status without a flushed record when the
checkpoint takes the snapshot. -/
def Still (s : Server χ) : Event χ → Prop
  | .wal (.append record _) => ∀ active boundary, s.reading = .captured active boundary →
      ∀ id ∈ writers record ++ committedBy record, id < boundary
  | .wal (.capture _ _ boundary) => ∀ st, s.wal.live = some st → ∀ id status,
      st.clog.statuses.lookup id = some status → id < boundary ∨
        ∃ entry ∈ retained s.wal.log st.flushedLsn, id ∈ writers entry.record ++ committedBy entry.record
  | _ => True

/-- The two disciplines. -/
def Calm (strict : Bool) (s : Server χ) (event : Event χ) : Prop :=
  if strict then s.Still event else s.Quiet event

end Server

/-! ### Ids of records -/

section Ids

variable {strict : Bool} {records more : List (WalRecord χ)} {record : WalRecord χ} {log before after : List (Logged χ)}
  {id : TxnId}

theorem highId_le_maxTxnId (mem : record ∈ records) : highId record ≤ maxTxnId records :=
  le_max?_getD_of_mem (mem_map_of_mem mem)

theorem writers_eq (writer : id ∈ writers record) : id = record.txnId.toNat := by
  unfold writers at writer
  split at writer
  · exact mem_singleton.mp writer
  · cases writer

theorem committedBy_le_highId (commits : id ∈ committedBy record) : id ≤ highId record := by
  unfold committedBy at commits
  unfold highId
  split at commits
  · exact (mem_singleton.mp commits).le.trans (le_max_left _ _)
  · rename_i subxids kind
    obtain _ | ⟨_, mem⟩ := commits
    · exact le_max_left _ _
    · rw [kind]
      exact le_max_of_le_right (le_max?_getD_of_mem mem)
  · cases commits

theorem carried_le_highId (named : id ∈ carried strict record) : id ≤ highId record := by
  obtain commits | writer := mem_append.mp named
  · exact committedBy_le_highId commits
  split at writer
  · exact (writers_eq writer).le.trans (le_max_left _ _)
  · cases writer

theorem CarriedIn.le_maxTxnId (carries : CarriedIn strict log id) :
    id ≤ maxTxnId (log.map Logged.record) := by
  obtain ⟨entry, mem, named⟩ := carries
  exact (carried_le_highId named).trans (highId_le_maxTxnId (mem_map_of_mem mem))

theorem CommittedIn.carriedIn (comm : CommittedIn log id) : CarriedIn strict log id := by
  obtain ⟨entry, mem, commits⟩ := comm
  exact ⟨entry, mem, mem_append_left _ commits⟩

theorem carriedIn_append : CarriedIn strict (before ++ after) id ↔ CarriedIn strict before id ∨ CarriedIn strict after id := by
  simp [CarriedIn, or_and_right, exists_or]

theorem maxTxnId_mono (sub : records ⊆ more) : maxTxnId records ≤ maxTxnId more := by
  unfold maxTxnId
  cases largest : (records.map highId).max? with
  | none => exact Nat.zero_le _
  | some id =>
    obtain ⟨record, mem, rfl⟩ := mem_map.mp (List.max?_mem largest)
    exact highId_le_maxTxnId (sub mem)

theorem nextTxnId_eq {bound : TxnId} (next_eq : nextTxnId records = .ok bound) :
    bound = max (maxTxnId records + 1) FIRST_NORMAL_XID := by
  unfold nextTxnId at next_eq
  split at next_eq
  · cases next_eq
  · exact (Except.ok.inj next_eq).symm

/-- Two cuts of a log, one not behind the other. -/
theorem Framed.split {serde : Serde χ} {before' after' : List (Logged χ)}
    (framed : Framed serde 0 (before ++ after)) (same : before ++ after = before' ++ after')
    (le : (stream before).length ≤ (stream before').length) :
    ∃ mid, before' = before ++ mid ∧ after = mid ++ after' := by
  obtain ⟨mid, rfl, rest⟩ | ⟨mid, rfl, rest⟩ := append_eq_append_iff.mp same
  · exact ⟨mid, rfl, rest⟩
  have behind := (framed_append.mp (framed_append.mp framed).1).2.length_le
  simp only [stream_append, length_append] at le
  obtain rfl := length_eq_zero_iff.mp (by omega : mid.length = 0)
  exact ⟨[], by simp, by simpa using rest.symm⟩

end Ids

/-! ### Snapshots that fit the log -/

def authorizedOf : Option ClogSnapshot → Nat
  | none => 0
  | some snapshot => snapshot.authorizedReplayFloor

/-- The ids that a snapshot file lists. -/
def listedOf : Option ClogSnapshot → List TxnId
  | none => []
  | some snap => snap.committed ++ snap.aborted ++ snap.inProgress

/-- The statuses that a snapshot file, or its absence, gives are right for the part of
the log it covers, and what may be recycled with it leaves a record that carries at
least the ids it commits and the floor. With `strict` the same goes for the ids that the
snapshot lists. -/
def Fits (strict : Bool) (log : List (Logged χ)) (active : List TxnId) (next : TxnId)
    (snapshot : Option ClogSnapshot) : Prop :=
  ∃ recycled kept later, log = recycled ++ kept ++ later ∧
    (stream recycled).length = authorizedOf snapshot ∧
    (stream (recycled ++ kept)).length = (seedOf snapshot).clogLsn ∧
    Knows (seedOf snapshot).clog (seedOf snapshot).vacuumFloor (recycled ++ kept) later active next ∧
    (∀ id, CarriedIn strict recycled id → id ≤ maxTxnId (kept.map record)) ∧
    (seedOf snapshot).clog.committedFloor ≤ max (maxTxnId (kept.map record) + 1) FIRST_NORMAL_XID ∧
    (strict = true → ∀ id ∈ listedOf snapshot, id < next ∧ id ≤ maxTxnId (kept.map record))

/-- The manager has the right statuses. -/
def Tracking (st : WalState) (log : List (Logged χ)) (active : List TxnId) (next : TxnId) : Prop :=
  ∃ past later, log = past ++ later ∧ (stream past).length = st.flushedLsn ∧
    Tracks st.clog st.pendingCommits st.vacuumFloor past later active next

section Fits

variable {strict : Bool} {log : List (Logged χ)} {active active' : List TxnId} {next next' : TxnId}
  {snapshot : Option ClogSnapshot} {entry : Logged χ} {st : WalState}

theorem Fits.append (fits : Fits strict log active next snapshot)
    (runs : ∀ id ∈ writers entry.record, id ∈ active) :
    Fits strict (log ++ [entry]) active next snapshot := by
  obtain ⟨recycled, kept, later, rfl, auth, pos, knows, rest⟩ := fits
  refine ⟨recycled, kept, later ++ [entry], by simp, auth, pos,
    knows.mono le_rfl fun id who => knows.fresh id ?_, rest⟩
  rw [wroteIn_append, wroteIn_singleton] at who
  obtain (wrote | wrote) | who := who
  · exact .inl wrote
  · exact .inr (.inl (runs id wrote))
  · exact .inr who

/-- Who is registered may change, as long as nobody comes back. -/
theorem Fits.sessions (fits : Fits strict log active next snapshot)
    (who : ∀ id, id ∈ active' ∨ next' ≤ id → id ∈ active ∨ next ≤ id) (le : next ≤ next') :
    Fits strict log active' next' snapshot := by
  obtain ⟨recycled, kept, later, split, auth, pos, knows, reserved, floor, listed⟩ := fits
  refine ⟨recycled, kept, later, split, auth, pos,
    knows.mono le_rfl fun id h => knows.fresh id (h.imp_right (who id)), reserved, floor, ?_⟩
  exact fun still id mem => ⟨(listed still id mem).1.trans_le le, (listed still id mem).2⟩

theorem Tracking.sessions (tracking : Tracking st log active next)
    (who : ∀ id, id ∈ active' ∨ next' ≤ id → id ∈ active ∨ next ≤ id) :
    Tracking st log active' next' := by
  obtain ⟨past, later, split, flushed, tracks⟩ := tracking
  exact ⟨past, later, split, flushed,
    tracks.toKnows.mono le_rfl fun id h => tracks.fresh id (h.imp_right (who id)), tracks.pending,
    tracks.unflushed⟩

variable {serde : Serde χ}

/-- A crash loses only what comes after the snapshot. -/
theorem Fits.lose {kept lost : List (Logged χ)}
    (fits : Fits strict (kept ++ lost) active next snapshot) (framed : Framed serde 0 (kept ++ lost))
    (cov : (seedOf snapshot).clogLsn ≤ (stream kept).length) : Fits strict kept active next snapshot := by
  obtain ⟨recycled, kept', later, split, auth, pos, knows, rest⟩ := fits
  obtain ⟨mid, rfl, rfl⟩ := Framed.split (split ▸ framed) split.symm (pos.le.trans cov)
  refine ⟨recycled, kept', mid, rfl, auth, pos, knows.mono le_rfl fun id h => ?_, rest⟩
  exact knows.fresh id (h.imp_left fun wrote => wroteIn_append.mpr (.inl wrote))

theorem mem_listedOf_liveSnapshot {clog : Clog} {clogLsn authorized : Nat} {vacuumFloor bound : TxnId}
    {cap : List TxnId} {id : TxnId}
    (listed : id ∈ listedOf (some (clog.liveSnapshot clogLsn authorized vacuumFloor cap bound))) :
    (∃ status, clog.statuses.lookup id = some status) ∨ id ∈ cap := by
  simp only [listedOf, Clog.liveSnapshot, mem_append, mem_insertionSort, Clog.mem_explicitFrom,
    (Clog.addCaptured_spec clog _ cap Clog.explicitFrom_nodup).2] at listed
  rcases listed with (⟨-, found⟩ | ⟨-, found⟩) | ⟨-, found⟩ | ⟨captured, -⟩
  · exact .inl ⟨_, found⟩
  · exact .inl ⟨_, found⟩
  · exact .inl ⟨_, found⟩
  · exact .inr captured

/-- **A checkpoint's snapshot fits.** It has read who is running and the next id when no
id from there on was committed, and its marker is flushed. -/
theorem Tracking.capture {cap : List TxnId} {bound : TxnId}
    {proposed endLsn : Nat} {before after : List (Logged χ)} (tracking : Tracking st log active next)
    (framed : Framed serde 0 log) (at_ : Boundary log proposed) (le : proposed ≤ endLsn)
    (split : log = before ++ after) (ends : (stream before).length = endLsn)
    (who : ∀ id, WroteIn after id ∨ id ∈ active → id ∈ cap ∨ bound ≤ id)
    (before_lt : ∀ id, CarriedIn strict before id → id < bound)
    (norm : FIRST_NORMAL_XID ≤ bound) (alloc : bound ≤ next)
    (floor : st.clog.committedFloor ≤ bound)
    (marker : entry ∈ log ∧ Server.IsMarker bound endLsn st.flushedLsn entry.record)
    (older : ∀ id ∈ cap, id < bound)
    (still : strict = true → ∀ id status, st.clog.statuses.lookup id = some status →
      id < bound ∨ id < next ∧ CarriedIn strict (retained log st.flushedLsn) id) :
    Fits strict log active next (some (st.clog.liveSnapshot st.flushedLsn proposed st.vacuumFloor cap
      bound)) := by
  obtain ⟨mem, id_eq, -, gt, flushed⟩ := marker
  obtain ⟨past, later, log_eq, pos, tracks⟩ := tracking
  obtain ⟨recycled, rest, cut, auth⟩ := at_
  have framed' := log_eq ▸ framed
  have inside := framed.lsn_le mem
  have reached : (stream recycled).length ≤ (stream before).length := by omega
  have reached' : (stream before).length ≤ (stream past).length := by omega
  obtain ⟨first, rfl, rfl⟩ := Framed.split (cut ▸ framed) (cut.symm.trans split) reached
  obtain ⟨snd, rfl, rfl⟩ := Framed.split (split ▸ framed) (split.symm.trans log_eq) reached'
  -- the marker lies between the floor and the flushed end
  have kept : entry ∈ first ++ snd := by
    have parts := framed_append.mp framed'
    have early := (framed_append.mp (framed_append.mp parts.1).1).1
    rw [log_eq] at mem
    simp only [append_assoc, mem_append] at mem
    obtain mem | mem | mem | mem := mem
    · have := early.lsn_le mem
      omega
    · exact mem_append_left _ mem
    · exact mem_append_right _ mem
    · have := parts.2.lsn_le mem
      omega
  have reserved : bound ≤ maxTxnId ((first ++ snd).map record) + 1 := by
    have carries : entry.record.txnId.toNat ≤ highId entry.record := le_max_left _ _
    have kept := highId_le_maxTxnId (mem_map_of_mem (f := record) kept)
    exact Nat.sub_le_iff_le_add.mp (id_eq.ge.trans (carries.trans kept))
  refine ⟨recycled, first ++ snd, later, by simpa using log_eq, auth,
    (append_assoc recycled first snd).symm ▸ pos, ?_, fun id fixed => ?_, ?_,
    fun strictly id listed => ?_⟩
  · have knows := tracks.capture st.flushedLsn proposed (fun id wrote => who id ?_) alloc
    · simpa [seedOf, Clog.liveSnapshot] using knows
    · exact wrote.imp_left fun wrote => wroteIn_append.mpr (.inr wrote)
  · have below := before_lt id (carriedIn_append.mpr (.inl fixed))
    exact Nat.le_of_lt_succ (below.trans_le reserved)
  · rw [seedOf, Clog.committedFloor_fromSnapshot]
    refine max_le ((max_le (max_le (min_le_right _ _) floor) norm).trans ?_) (le_max_right _ _)
    exact reserved.trans (le_max_left _ _)
  have early (below : id < bound) : id < next ∧ id ≤ maxTxnId ((first ++ snd).map record) :=
    ⟨below.trans_le alloc, Nat.le_of_lt_succ (below.trans_le reserved)⟩
  obtain ⟨status, explicit⟩ | captured := mem_listedOf_liveSnapshot listed
  · obtain below | ⟨lt, carries⟩ := still strictly id status explicit
    · exact early below
    -- the flushed record of the id is among the recycled ones, or is kept
    rw [← pos, log_eq, retained_of_boundary framed', carriedIn_append] at carries
    obtain fixed | later := carries
    · exact early (before_lt id fixed)
    · exact ⟨lt, (CarriedIn.le_maxTxnId later).trans (maxTxnId_mono (map_subset _ (by simp)))⟩
  · exact early (older id captured)

/-- **The next id after a crash** is above everything that is known to be committed. -/
theorem Fits.reserve {before rest : List (Logged χ)} {bound : TxnId}
    (fits : Fits strict log active next snapshot) (framed : Framed serde 0 log) (split : log = before ++ rest)
    (floor : (stream before).length ≤ authorizedOf snapshot)
    (next_eq : nextTxnId (rest.map Logged.record) = .ok bound) :
    Fits strict log [] bound snapshot ∧ ∀ id, CarriedIn strict log id → id < bound := by
  obtain ⟨recycled, kept, later, cut, auth, pos, knows, reserved, seedFloor, listed⟩ := fits
  have boundary_eq := nextTxnId_eq next_eq
  obtain ⟨mid, rfl, rfl⟩ := Framed.split (split ▸ framed)
    (split.symm.trans (cut.trans (append_assoc ..))) (floor.trans auth.ge)
  have more : maxTxnId (kept.map Logged.record) ≤
      maxTxnId ((mid ++ (kept ++ later)).map Logged.record) := maxTxnId_mono (by simp)
  refine ⟨⟨before ++ mid, kept, later, cut, auth, pos,
    knows.mono le_rfl fun id who => ?_, reserved, seedFloor, fun still id mem => ?_⟩,
    fun id fixed => ?_⟩
  · obtain wrote | unknown | le := who
    · exact knows.fresh id (.inl wrote)
    · cases unknown
    refine seedFloor.trans (le_trans ?_ le)
    rw [boundary_eq]
    exact max_le_max (Nat.succ_le_succ more) le_rfl
  · obtain ⟨-, covered⟩ := listed still id mem
    rw [boundary_eq]
    exact ⟨lt_max_of_lt_left (Nat.lt_succ_of_le (covered.trans more)), covered⟩
  have : id ≤ maxTxnId ((mid ++ (kept ++ later)).map Logged.record) := by
    rw [cut, append_assoc, carriedIn_append] at fixed
    obtain fixed | fixed := fixed
    · exact (reserved id fixed).trans more
    · exact CarriedIn.le_maxTxnId (carriedIn_append.mpr (.inr fixed))
  rw [boundary_eq]
  exact lt_max_of_lt_left (Nat.lt_succ_of_le this)

/-- **A manager that was just opened** knows the statuses. -/
theorem Opened.knows (opened : Opened st snapshot log)
    (fits : Fits strict log [] next snapshot) (framed : Framed serde 0 log) (ord : Ordered log) :
    Knows st.clog st.vacuumFloor log [] [] next := by
  obtain ⟨recycled, kept, later, cut, -, pos, knows, -⟩ := fits
  obtain ⟨before, mid, split, pos', clog⟩ := opened.clog
  obtain ⟨extra, same, rfl⟩ := Framed.split (split ▸ framed) (split.symm.trans cut)
    (pos'.trans pos.symm).le
  -- both are cut at the position of the snapshot
  have short : extra = [] := by
    have framed := (framed_append.mp (framed_append.mp (split ▸ framed)).2).1
    have := framed.length_le
    rw [same, stream_append, length_append] at pos
    exact length_eq_zero_iff.mp (by omega)
  subst short
  rw [clog, opened.vacuumFloor, cut]
  exact knows.foldl (cut ▸ ord)

theorem records_entriesFrom (start : Nat) (log : List (Logged χ)) :
    (entriesFrom start log).map WalEntry.record = log.map record := by
  induction log generalizing start with
  | nil => rfl
  | cons entry log ih => exact congrArg (entry.record :: ·) (ih _)

/-- Resolving in-flight writers makes the statuses of a manager that has flushed
everything. -/
theorem Knows.tracking {clog : Clog} (knows : Knows clog st.vacuumFloor log [] [] next)
    (flushed : st.flushedLsn = (stream log).length) (due : st.pendingCommits = []) :
    Tracking { st with clog := clog.resolveAllInProgressAsAborted } log [] next := by
  refine ⟨log, [], (append_nil log).symm, flushed.symm, knows.resolve, fun id => ?_, fun id wrote => ?_⟩
  · simp [due, CommittedIn]
  · simp [WroteIn] at wrote

/-- Without a snapshot file, the floor that recovery derives from the records passes
nobody who is in flight or has aborted. -/
theorem Opened.establish (opened : Opened st none log)
    (knows : Knows st.clog st.vacuumFloor log [] [] next) (ord : Ordered log) (start : Nat) :
    Knows (st.clog.setCommittedFloor (recoveryFloor st.clog (entriesFrom start log) next))
      st.vacuumFloor log [] [] next := by
  refine knows.establish (fun id stat found other => ?_) (recoveryFloor_le_boundary _ _)
  obtain ⟨before, mid, split, pos, clog⟩ := opened.clog
  have wrote : WroteIn log id := by
    rw [split, wroteIn_append]
    rw [clog] at found
    obtain gone | wrote := foldl_explicit _ found other
    · exact absurd (gone.symm.trans (AList.lookup_empty id)) (by simp)
    · exact .inr wrote
  obtain ⟨entry, mem, writer⟩ := wrote
  have norm : FIRST_NORMAL_XID ≤ id := by
    obtain ⟨first, rest, cut⟩ := append_of_mem mem
    exact (ord first entry rest cut id (mem_append_left _ writer)).1
  have ne : id ≠ 0 := ne_of_gt (lt_of_lt_of_le (by decide) norm)
  obtain ⟨represents, rfl⟩ := representsTransaction_of_writer writer ne
  have listed : entry.record ∈ (entriesFrom start log).map WalEntry.record := by
    rw [records_entriesFrom]
    exact mem_map_of_mem mem
  obtain ⟨found', mem', same⟩ := mem_map.mp listed
  rw [← same] at represents found norm ⊢
  refine recoveryFloor_le mem' represents ?_
  rw [Clog.status_of_lookup norm found]
  exact other

end Fits

end Saguaro.Wal
