/-
The WAL as the code that commits sees it (`append` and `flush` of
`crates/wal/src/file.rs`).

A commit record is appended, and the ids it commits wait in `pending_commits` until
some session's flush makes them durable; only then does the CLOG read them as
committed. The manager refuses everything once it is poisoned. What the file system
does in a call is an argument of it (`AppendOutcome`, `FlushOutcome`).

`Dead log id` is what a reported error needs: `id` is not committed, and no flush of
this manager or of a later one can still commit it.
-/

import Saguaro.Wal.Clog

namespace Saguaro.Session

structure CommitLog where
  /-- `pending_commits`: appended and not flushed. -/
  pending : List TxnId
  /-- The ids whose commit record is in front of the durable end in `wal.meta`. -/
  durable : List TxnId
  /-- The CLOG. -/
  status : TxnId → TxnStatus
  poisoned : Option DbError

/-- What the file system does in an append. -/
inductive AppendOutcome where
  | written
  /-- The record cannot be encoded, or the write fails and its traces are removed. -/
  | refused (err : DbError)
  /-- The write fails and its traces cannot be removed (`repair_failed_append`). -/
  | broken (err : DbError)
  deriving DecidableEq

/-- What the file system does in a flush. -/
inductive FlushOutcome where
  | synced
  /-- A sync fails; then `correct_failed_flush` truncates the unflushed records, which may fail,
  too. -/
  | failed (err : DbError) (correction : Option DbError)
  /-- The same when the replacement of `wal.meta` fails before it is visible. -/
  | unreplaced (err : DbError) (correction : Option DbError)
  /-- The replacement of `wal.meta` is visible, and it is unknown whether it persists. -/
  | unknown (cause : String) (landed : Bool)
  deriving DecidableEq

/-- The error says that a commit may or may not be durable. -/
def ambiguous (err : DbError) : Bool := err.kind = .durabilityOutcomeUnknown

def isAmbiguous : Result Unit → Bool
  | .error err => ambiguous err
  | .ok () => false

/-- The errors of a failed sync are I/O errors and errors of the WAL's own. -/
def FlushOutcome.Ordinary : FlushOutcome → Prop
  | .failed err correction | .unreplaced err correction =>
    ambiguous err = false ∧ ∀ e ∈ correction, ambiguous e = false
  | _ => True

instance (outcome : FlushOutcome) : Decidable outcome.Ordinary := by
  cases outcome <;> unfold FlushOutcome.Ordinary <;> infer_instance

namespace CommitLog

def init : CommitLog := ⟨[], [], fun _ => .inProgress, none⟩

def setStatus (log : CommitLog) (ids : List TxnId) (status : TxnStatus) : CommitLog :=
  { log with status := fun id => if id ∈ ids then status else log.status id }

/-- `append` of a `Commit` or `CommitWithSubxids` record of the family `ids`. The top-level id is
noted as a writer before anything else. -/
def appendCommit (log : CommitLog) (ids : List TxnId) (outcome : AppendOutcome) :
    CommitLog × Result Unit :=
  let log := log.setStatus (ids.take 1) .inProgress
  match log.poisoned, outcome with
  | some err, _ => (log, .error err)
  | none, .written => ({ log with pending := log.pending ++ ids }, .ok ())
  | none, .refused err => (log, .error err)
  | none, .broken err => ({ log with poisoned := some err }, .error err)

/-- `append` of the `Abort` records of the family `ids`: the statuses change whether or not
the records can be written. An I/O error is logged and ignored by the caller, so that only a
poisoned manager counts. -/
def appendAborts (log : CommitLog) (ids : List TxnId) : CommitLog × Result Unit :=
  (log.setStatus ids .aborted,
    match log.poisoned with
    | some err => .error err
    | none => .ok ())

/-- The end of a flush that fails before its records are durable. -/
def failFlush (log : CommitLog) (what : String) (err : DbError) :
    Option DbError → CommitLog × Result Unit
  | none =>
    let unavailable := walError ("WAL manager is unavailable after " ++ what ++ ": " ++ err.message)
    ({ log with pending := [], poisoned := some unavailable }, .error err)
  | some correction => ({ log with poisoned := some correction }, .error correction)

/-- `flush`. -/
def flush (log : CommitLog) (outcome : FlushOutcome) : CommitLog × Result Unit :=
  match log.poisoned, outcome with
  | some err, _ => (log, .error err)
  | none, .synced =>
    let published := log.setStatus log.pending .committed
    ({ published with pending := [], durable := log.durable ++ log.pending }, .ok ())
  | none, .failed err correction => log.failFlush "durability failure" err correction
  | none, .unreplaced err correction => log.failFlush "durable-end update failure" err correction
  | none, .unknown cause landed =>
    let err := .durabilityOutcomeUnknown
      ("WAL durable-end replacement has an unknown persistence outcome: " ++ cause)
    ({ log with
        poisoned := some err
        durable := if landed then log.durable ++ log.pending else log.durable }, .error err)

/-- The manager that a restarted process opens: a transaction is committed if its commit
record is durable, and aborted otherwise. -/
def recover (log : CommitLog) : CommitLog :=
  ⟨[], log.durable, fun id => if id ∈ log.durable then .committed else .aborted, none⟩

end CommitLog

/-! ### Transactions that stay uncommitted -/

/-- Nobody has asked for a commit of `id`. -/
structure Untouched (log : CommitLog) (id : TxnId) : Prop where
  pending : id ∉ log.pending
  durable : id ∉ log.durable
  status : log.status id ≠ .committed

/-- `id` is not committed, and never will be. -/
structure Dead (log : CommitLog) (id : TxnId) : Prop where
  pending : id ∈ log.pending → log.poisoned.isSome
  durable : id ∉ log.durable
  status : log.status id ≠ .committed

/-- What happens to `id` when other sessions use the log. -/
structure Spared (log log' : CommitLog) (id : TxnId) : Prop where
  pending : id ∈ log'.pending → id ∈ log.pending
  poisoned : log.poisoned.isSome → log'.poisoned.isSome
  durable : id ∈ log'.durable → id ∈ log.durable ∨ id ∈ log.pending ∧ log.poisoned = none
  status : log'.status id = .committed →
    log.status id = .committed ∨ id ∈ log.pending ∧ log.poisoned = none

namespace CommitLog

variable {log : CommitLog} {ids : List TxnId} {id : TxnId}

theorem status_setStatus_of_mem {stat : TxnStatus} (mem : id ∈ ids) :
    (log.setStatus ids stat).status id = stat := if_pos mem

theorem status_setStatus_of_not_mem {stat : TxnStatus} (other : id ∉ ids) :
    (log.setStatus ids stat).status id = log.status id := if_neg other

/-- A status other than committed commits nobody. -/
theorem of_status_setStatus (ids : List TxnId) (stat : TxnStatus) (ne : stat ≠ .committed)
    (comm : (log.setStatus ids stat).status id = .committed) : log.status id = .committed := by
  by_cases mem : id ∈ ids
  · exact absurd ((status_setStatus_of_mem mem).symm.trans comm) ne
  · exact (status_setStatus_of_not_mem mem).symm.trans comm

/-- **An append** is refused by a poisoned manager, fails, or queues the ids. -/
theorem appendCommit_cases (log : CommitLog) (ids : List TxnId) (out : AppendOutcome) :
    ∃ noted, noted = log.setStatus (ids.take 1) .inProgress ∧
      ((∃ err, log.appendCommit ids out = (noted, .error err)) ∨ (∃ err, log.poisoned = none ∧
        log.appendCommit ids out = ({ noted with poisoned := some err }, .error err)) ∨
      log.poisoned = none ∧ log.appendCommit ids out =
        ({ noted with pending := log.pending ++ ids }, .ok ())) := by
  refine ⟨_, rfl, ?_⟩
  unfold appendCommit
  dsimp only
  split
  · exact .inl ⟨_, rfl⟩
  · exact .inr (.inr ⟨‹_›, rfl⟩)
  · exact .inl ⟨_, rfl⟩
  · exact .inr (.inl ⟨_, ‹_›, rfl⟩)

/-- An append spares every id that it does not name. -/
theorem appendCommit_spared (out : AppendOutcome) (other : id ∉ ids) :
    Spared log (log.appendCommit ids out).1 id := by
  have same (comm : (log.setStatus (ids.take 1) .inProgress).status id = .committed) :=
    of_status_setStatus _ .inProgress nofun comm
  obtain ⟨_, rfl, ⟨err, eq⟩ | ⟨err, fine, eq⟩ | ⟨fine, eq⟩⟩ := appendCommit_cases log ids out
  · rw [eq]
    exact ⟨fun h => h, fun h => h, .inl, fun comm => .inl (same comm)⟩
  · rw [eq]
    exact ⟨fun h => h, fun _ => rfl, .inl, fun comm => .inl (same comm)⟩
  rw [eq]
  refine ⟨fun mem => ?_, fun h => h, .inl, fun comm => .inl (same comm)⟩
  exact (List.mem_append.mp mem).resolve_right other

theorem appendAborts_spared : Spared log (log.appendAborts ids).1 id :=
  ⟨fun h => h, fun h => h, .inl, fun comm => .inl (of_status_setStatus ids .aborted nofun comm)⟩

/-- **A flush** is refused, publishes what is pending, or poisons the manager; only an
ambiguous error may leave records durable that are not published. -/
theorem flush_cases (log : CommitLog) (outcome : FlushOutcome) (ordinary : outcome.Ordinary) :
    (∃ err, log.poisoned = some err ∧ log.flush outcome = (log, .error err)) ∨
    (log.poisoned = none ∧ log.flush outcome = ({ log.setStatus log.pending .committed with
          pending := [], durable := log.durable ++ log.pending }, .ok ())) ∨
    (∃ poison err pending, log.poisoned = none ∧ ambiguous err = false ∧ pending ⊆ log.pending ∧
      log.flush outcome = ({ log with pending, poisoned := some poison }, .error err)) ∨
    ∃ err durable, log.poisoned = none ∧ ambiguous err = true ∧
      (durable = log.durable ∨ durable = log.durable ++ log.pending) ∧
      log.flush outcome = ({ log with poisoned := some err, durable }, .error err) := by
  have failed (fine : log.poisoned = none) (what : String) {err : DbError}
      {correction : Option DbError}
      (ordinary : ambiguous err = false ∧ ∀ e ∈ correction, ambiguous e = false) :
      ∃ poison err' pending, log.poisoned = none ∧ ambiguous err' = false ∧
        pending ⊆ log.pending ∧ log.failFlush what err correction =
          ({ log with pending, poisoned := some poison }, .error err') := by
    cases correction with
    | none => exact ⟨_, _, [], fine, ordinary.1, List.nil_subset _, rfl⟩
    | some e => exact ⟨_, _, _, fine, ordinary.2 _ rfl, fun _ mem => mem, rfl⟩
  unfold flush
  split
  · exact .inl ⟨_, ‹_›, rfl⟩
  · exact .inr (.inl ⟨‹_›, rfl⟩)
  · exact .inr (.inr (.inl (failed ‹_› _ ordinary)))
  · exact .inr (.inr (.inl (failed ‹_› _ ordinary)))
  rename_i cause landed fine
  refine .inr (.inr (.inr ⟨_, _, fine, rfl, ?_, rfl⟩))
  cases landed
  · exact .inl rfl
  · exact .inr rfl

theorem flush_spared (outcome : FlushOutcome) (ordinary : outcome.Ordinary) :
    Spared log (log.flush outcome).1 id := by
  rcases flush_cases log outcome ordinary with
    ⟨err, -, eq⟩ | ⟨fine, eq⟩ | ⟨poison, err, pending, -, -, sub, eq⟩ |
    ⟨err, durable, fine, -, grown, eq⟩
  · rw [eq]
    exact ⟨fun h => h, fun h => h, .inl, .inl⟩
  · rw [eq]
    refine ⟨nofun, fun h => h, fun mem => ?_, fun committed => ?_⟩
    · exact (List.mem_append.mp mem).imp_right (⟨·, fine⟩)
    by_cases mem : id ∈ log.pending
    · exact .inr ⟨mem, fine⟩
    · exact .inl ((status_setStatus_of_not_mem mem).symm.trans committed)
  · rw [eq]
    exact ⟨fun mem => sub mem, fun _ => rfl, .inl, .inl⟩
  rw [eq]
  refine ⟨fun mem => mem, fun _ => rfl, fun mem => ?_, .inl⟩
  rcases grown with rfl | rfl
  · exact .inl mem
  · exact (List.mem_append.mp mem).imp_right (⟨·, fine⟩)

theorem status_recover_of_not_mem (lost : id ∉ log.durable) : log.recover.status id = .aborted :=
  if_neg lost

end CommitLog

variable {log log' : CommitLog} {id : TxnId}

theorem Untouched.dead (fresh : Untouched log id) : Dead log id :=
  ⟨fun mem => absurd mem fresh.pending, fresh.durable, fresh.status⟩

theorem Untouched.spared (fresh : Untouched log id) (spared : Spared log log' id) :
    Untouched log' id where
  pending := fun mem => fresh.pending (spared.pending mem)
  durable := fun mem => (spared.durable mem).elim fresh.durable fun h => fresh.pending h.1
  status := fun committed => (spared.status committed).elim fresh.status fun h => fresh.pending h.1

/-- A record that is pending in a poisoned manager is never flushed. -/
theorem Dead.spared (dead : Dead log id) (spared : Spared log log' id) : Dead log' id := by
  have stuck : ¬(id ∈ log.pending ∧ log.poisoned = none) := by
    rintro ⟨mem, fine⟩
    have := dead.pending mem
    rw [fine] at this
    cases this
  exact
    { pending := fun mem => spared.poisoned (dead.pending (spared.pending mem))
      durable := fun mem => (spared.durable mem).elim dead.durable stuck
      status := fun comm => (spared.status comm).elim dead.status stuck }

theorem Untouched.recover (fresh : Untouched log id) : Untouched log.recover id where
  pending := nofun
  durable := fresh.durable
  status := by
    rw [CommitLog.status_recover_of_not_mem fresh.durable]
    nofun

theorem Dead.recover (dead : Dead log id) : Dead log.recover id where
  pending := nofun
  durable := dead.durable
  status := by
    rw [CommitLog.status_recover_of_not_mem dead.durable]
    nofun

end Saguaro.Session
