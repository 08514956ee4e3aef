/-
What a CLOG knows of a log.

`Knows clog vacuumFloor past later active next` relates a transaction-status map to
the records it has absorbed (`past`) and to those it has not (`later`), to the ids
that may still write (`active`, and `next` and above). It is kept by everything that
is done to a CLOG: folding a record into it, publishing a writer, committing at a
flush, taking the snapshot of a checkpoint, pruning to it, and recovery.
-/

import Saguaro.Wal.Log

namespace Saguaro.Wal

open FileWal List Option Clog WalRecordKind

variable {χ : Type}

/-- The transaction that a record belongs to. -/
def writers (record : WalRecord χ) : List TxnId :=
  if representsTransaction record || record.kind.isSettlement then [record.txnId.toNat] else []

def WroteIn (log : List (Logged χ)) (id : TxnId) : Prop := ∃ entry ∈ log, id ∈ writers entry.record

/-- The log has a commit record for `id`, as the top level or as a subtransaction. -/
def CommittedIn (log : List (Logged χ)) (id : TxnId) : Prop :=
  ∃ entry ∈ log, id ∈ committedBy entry.record

/-- Every record names only normal ids that no earlier record has committed. -/
def Ordered (log : List (Logged χ)) : Prop := ∀ before entry after, log = before ++ entry :: after →
    ∀ id ∈ writers entry.record ++ committedBy entry.record,
      FIRST_NORMAL_XID ≤ id ∧ ¬CommittedIn before id

structure Knows (clog : Clog) (vacuumFloor : TxnId) (past later : List (Logged χ))
    (active : List TxnId) (next : TxnId) : Prop where
  normal : FIRST_NORMAL_XID ≤ clog.committedFloor
  committed : ∀ id, FIRST_NORMAL_XID ≤ id → CommittedIn past id → clog.status id = .committed
  /-- A writer that did not commit is explicit, unless VACUUM has passed it. -/
  written : ∀ id, WroteIn past id → ¬CommittedIn past id → vacuumFloor ≤ id →
    ∃ status, clog.statuses.lookup id = some status ∧ status ≠ .committed
  explicit : ∀ id, clog.statuses.lookup id = some .committed → CommittedIn past id
  above : ∀ id status, clog.statuses.lookup id = some status → status ≠ .committed →
    (status = .aborted → vacuumFloor ≤ id) → clog.committedFloor ≤ id
  /-- The floor has passed nobody who writes later. -/
  fresh : ∀ id, WroteIn later id ∨ id ∈ active ∨ next ≤ id → clog.committedFloor ≤ id

/-! ### Statuses of single ids -/

namespace Clog

variable {clog : Clog} {id : TxnId} {status : TxnStatus}

theorem status_of_lookup (norm : FIRST_NORMAL_XID ≤ id)
    (found : clog.statuses.lookup id = some status) : clog.status id = status := by
  unfold Clog.status
  rw [if_neg (not_lt.mpr norm), found]

theorem status_of_missing (norm : FIRST_NORMAL_XID ≤ id) (gone : clog.statuses.lookup id = none) :
    clog.status id = if id < clog.committedFloor then .committed else .inProgress := by
  unfold status
  rw [if_neg (not_lt.mpr norm), gone]

/-- A status is read off the explicit one and the floor. -/
theorem status_congr {clog' : Clog} (same : clog'.statuses.lookup id = clog.statuses.lookup id)
    (floor : clog'.committedFloor = clog.committedFloor) : clog'.status id = clog.status id := by
  unfold status
  rw [same, floor]

theorem lookup_set (other : TxnId) : (clog.set id status).statuses.lookup other =
    if other = id then some status else clog.statuses.lookup other :=
  clog.statuses.lookup_insert_if other

theorem lookup_setAll (ids : List TxnId) (other : TxnId) :
    (clog.setAll ids status).statuses.lookup other =
      if other ∈ ids then some status else clog.statuses.lookup other := by
  unfold setAll
  induction ids generalizing clog with
  | nil => simp
  | cons id ids ih =>
    rw [foldl_cons, ih, lookup_set]
    by_cases later : other ∈ ids
    · simp [later]
    · by_cases same : other = id <;> simp [later, same]

theorem committedFloor_setAll (ids : List TxnId) :
    (clog.setAll ids status).committedFloor = clog.committedFloor := by
  induction ids generalizing clog with
  | nil => rfl
  | cons id ids ih => exact ih

end Clog

section Log

variable {log before after : List (Logged χ)} {entry : Logged χ} {id : TxnId}

theorem wroteIn_append : WroteIn (before ++ after) id ↔ WroteIn before id ∨ WroteIn after id := by
  simp [WroteIn, or_and_right, exists_or]

theorem committedIn_append :
    CommittedIn (before ++ after) id ↔ CommittedIn before id ∨ CommittedIn after id := by
  simp [CommittedIn, or_and_right, exists_or]

theorem wroteIn_singleton : WroteIn [entry] id ↔ id ∈ writers entry.record := by
  simp [WroteIn]

theorem committedIn_singleton : CommittedIn [entry] id ↔ id ∈ committedBy entry.record := by
  simp [CommittedIn]

theorem wroteIn_cons : WroteIn (entry :: after) id ↔ id ∈ writers entry.record ∨ WroteIn after id := by
  simp [WroteIn]

theorem Ordered.of_append (ord : Ordered (before ++ after)) : Ordered before := by
  rintro first entry rest rfl id named
  exact ord first entry (rest ++ after) (by simp) id named

/-- A record whose ids are normal and not committed yet may follow. -/
theorem Ordered.append (ord : Ordered log)
    (named : ∀ id ∈ writers entry.record ++ committedBy entry.record,
      FIRST_NORMAL_XID ≤ id ∧ ¬CommittedIn log id) : Ordered (log ++ [entry]) := by
  intro first next rest split id mem
  rcases append_eq_append_iff.mp split with ⟨more, rfl, tail⟩ | ⟨more, rfl, tail⟩
  · cases more with
    | nil =>
      obtain ⟨rfl, -⟩ := cons.inj tail
      simpa using named id mem
    | cons head more => simp at tail
  cases more with
  | nil =>
    obtain ⟨rfl, -⟩ := cons.inj tail
    simpa using named id mem
  | cons head more =>
    obtain ⟨rfl, -⟩ := cons.inj tail
    exact ord first _ more rfl id mem

end Log

/-! ### What a record does to the statuses -/

/-- The four things that a record can mean for the statuses: when recovery folds it, and
when an append publishes it. -/
inductive Effect (record : WalRecord χ) : Prop where
  | commit (writer : writers record = [record.txnId.toNat])
      (commits : record.txnId.toNat ∈ committedBy record)
      (folds : ∀ clog, foldStatus clog record = clog.setAll (committedBy record) .committed)
      (publishes : record.txnId ≠ 0 → ∀ clog,
        publishStatus record clog = clog.setInProgress record.txnId.toNat)
  | abort (writer : writers record = [record.txnId.toNat]) (commits : committedBy record = [])
      (folds : ∀ clog, foldStatus clog record = clog.setAborted record.txnId.toNat)
      (publishes : ∀ clog, publishStatus record clog = clog.setAborted record.txnId.toNat)
  | write (writer : writers record = [record.txnId.toNat]) (commits : committedBy record = [])
      (folds : ∀ clog, foldStatus clog record =
        if clog.status record.txnId.toNat = .inProgress then clog.setInProgress record.txnId.toNat
        else clog)
      (publishes : ∀ clog, publishStatus record clog = clog.setInProgress record.txnId.toNat)
  | silent (writer : writers record = []) (commits : committedBy record = [])
      (folds : ∀ clog, foldStatus clog record = clog)
      (publishes : ∀ clog, publishStatus record clog = clog)

theorem effect (record : WalRecord χ) : Effect record := by
  obtain ⟨lsn, txnId, kind⟩ := record
  cases kind with
  | commit =>
    refine .commit (by simp [writers, isSettlement]) (by simp [committedBy])
      (fun _ => rfl) fun norm clog => ?_
    simpa [publishStatus, representsTransaction] using fun zero => absurd zero norm
  | commitWithSubxids subxids =>
    refine .commit (by simp [writers, isSettlement]) (by simp [committedBy])
      (fun clog => ?_) fun norm clog => ?_
    · simp only [foldStatus, committedBy, setAll, foldl_cons, foldl_map]
      rfl
    · simpa [publishStatus, representsTransaction] using fun zero => absurd zero norm
  | abort =>
    exact .abort (by simp [writers, isSettlement]) rfl (fun _ => rfl) fun _ => rfl
  | checkpoint =>
    exact .silent (by simp [writers, representsTransaction, isSettlement]) rfl
      (fun _ => by simp [foldStatus, representsTransaction])
      fun _ => by simp [publishStatus, representsTransaction]
  | _ =>
    by_cases norm : txnId = 0
    · exact .silent (by simp [writers, representsTransaction, isSettlement, norm])
        rfl (fun _ => by simp [foldStatus, representsTransaction, norm])
        fun _ => by simp [publishStatus, representsTransaction, norm]
    · exact .write (by simp [writers, representsTransaction, norm]) rfl
        (fun _ => by simp [foldStatus, representsTransaction, norm])
        fun _ => by simp [publishStatus, representsTransaction, norm]

section Fold

variable {clog : Clog} {vacuumFloor next : TxnId} {past later : List (Logged χ)}
  {active : List TxnId} {entry : Logged χ} {id : TxnId} {status : TxnStatus}

/-- Setting the ids of a commit record. -/
theorem Knows.commit (knows : Knows clog vacuumFloor past later active next) {more : List (Logged χ)}
    {ids : List TxnId} (names : ∀ id, id ∈ ids ↔ CommittedIn more id)
    (written : ∀ id, WroteIn more id → ¬CommittedIn past id → id ∉ ids →
      ∃ status, clog.statuses.lookup id = some status ∧ status ≠ .committed)
    {later' : List (Logged χ)} (fresh : ∀ id, WroteIn later' id → WroteIn later id) :
    Knows (clog.setAll ids .committed) vacuumFloor (past ++ more) later' active next := by
  have same (id : TxnId) (h : id ∉ ids) :
      (clog.setAll ids .committed).statuses.lookup id = clog.statuses.lookup id := by
    rw [lookup_setAll, if_neg h]
  have set (id : TxnId) (h : id ∈ ids) :
      (clog.setAll ids .committed).statuses.lookup id = some .committed := by
    rw [lookup_setAll, if_pos h]
  have floor : (clog.setAll ids .committed).committedFloor = clog.committedFloor :=
    committedFloor_setAll ids
  refine ⟨floor ▸ knows.normal, fun id norm fixed => ?_, fun id wrote open_ passed => ?_,
    fun id found => ?_, fun id status found other passed => ?_, fun id who => ?_⟩
  · by_cases mem : id ∈ ids
    · exact status_of_lookup norm (set id mem)
    rw [committedIn_append, ← names] at fixed
    rw [status_congr (same id mem) floor]
    exact knows.committed id norm (fixed.resolve_right mem)
  · rw [committedIn_append, ← names, not_or] at open_
    rw [same id open_.2]
    rcases wroteIn_append.mp wrote with wrote | wrote
    · exact knows.written id wrote open_.1 passed
    · exact written id wrote open_.1 open_.2
  · rw [committedIn_append, ← names]
    by_cases mem : id ∈ ids
    · exact .inr mem
    · exact .inl (knows.explicit id (same id mem ▸ found))
  · have mem : id ∉ ids := fun mem => other (some.inj (found.symm.trans (set id mem)))
    rw [floor]
    exact knows.above id status (same id mem ▸ found) other passed
  · rw [floor]
    exact knows.fresh id (who.imp_left (fresh id))

/-- A status other than committed, of an id that the floor has not passed. -/
theorem Knows.set (knows : Knows clog vacuumFloor past later active next)
    (above : clog.committedFloor ≤ id) (open_ : ¬CommittedIn past id) (other : status ≠ .committed) :
    Knows (clog.set id status) vacuumFloor past later active next := by
  have same (id' : TxnId) (ne : id' ≠ id) :
      (clog.set id status).statuses.lookup id' = clog.statuses.lookup id' := by
    rw [lookup_set, if_neg ne]
  have set : (clog.set id status).statuses.lookup id = some status := by
    rw [lookup_set, if_pos rfl]
  refine ⟨knows.normal, fun id' norm fixed => ?_, fun id' wrote open_ passed => ?_,
    fun id' found => ?_, fun id' status' found other' passed => ?_, knows.fresh⟩
  · have ne : id' ≠ id := by rintro rfl; exact open_ fixed
    rw [status_congr (same id' ne) rfl]
    exact knows.committed id' norm fixed
  · by_cases ne : id' = id
    · exact ⟨status, ne ▸ set, other⟩
    · rw [same id' ne]
      exact knows.written id' wrote open_ passed
  · by_cases ne : id' = id
    · rw [ne, set] at found
      exact absurd (some.inj found) other
    · exact knows.explicit id' (same id' ne ▸ found)
  · by_cases ne : id' = id
    · exact ne ▸ above
    · exact knows.above id' status' (same id' ne ▸ found) other' passed

/-- A record that commits nobody, and whose writer is explicit, is absorbed. -/
theorem Knows.absorb (knows : Knows clog vacuumFloor past (entry :: later) active next)
    (commits : committedBy entry.record = [])
    (expl : ∀ id ∈ writers entry.record,
      ∃ status, clog.statuses.lookup id = some status ∧ status ≠ .committed) :
    Knows clog vacuumFloor (past ++ [entry]) later active next := by
  have none : ∀ id, id ∈ ([] : List TxnId) ↔ CommittedIn [entry] id := fun id => by
    rw [committedIn_singleton, commits]
  exact knows.commit none (fun id wrote _ _ => expl id (wroteIn_singleton.mp wrote))
    fun id wrote => wroteIn_cons.mpr (.inr wrote)

/-- **Recovery folds a record.** -/
theorem Knows.fold (knows : Knows clog vacuumFloor past (entry :: later) active next)
    (named : ∀ id ∈ writers entry.record ++ committedBy entry.record, ¬CommittedIn past id) :
    Knows (foldStatus clog entry.record) vacuumFloor (past ++ [entry]) later active next := by
  have unsettled (id : TxnId) (h : id ∈ writers entry.record) :
      clog.committedFloor ≤ id ∧ ¬CommittedIn past id :=
    ⟨knows.fresh id (.inl (wroteIn_cons.mpr (.inl h))), named id (mem_append_left _ h)⟩
  rcases effect entry.record with ⟨writer, commits, folds, -⟩ | ⟨writer, commits, folds, -⟩ |
    ⟨writer, commits, folds, -⟩ | ⟨writer, commits, folds, -⟩
  all_goals rw [folds]
  · refine knows.commit (fun id => committedIn_singleton.symm) (fun id wrote _ other => ?_)
      fun id wrote => wroteIn_cons.mpr (.inr wrote)
    rw [wroteIn_singleton, writer, mem_singleton] at wrote
    exact absurd (wrote ▸ commits) other
  · obtain ⟨above, open_⟩ := unsettled _ (writer ▸ mem_singleton_self _)
    refine (knows.set above open_ (by decide)).absorb commits fun id mem => ?_
    rw [writer, mem_singleton] at mem
    exact ⟨.aborted, by rw [lookup_set, if_pos mem], by decide⟩
  · obtain ⟨above, open_⟩ := unsettled _ (writer ▸ mem_singleton_self _)
    split
    · refine (knows.set above open_ (by decide)).absorb commits fun id mem => ?_
      rw [writer, mem_singleton] at mem
      exact ⟨.inProgress, by rw [lookup_set, if_pos mem], by decide⟩
    rename_i fixed
    refine knows.absorb commits fun id mem => ?_
    rw [writer, mem_singleton] at mem
    subst mem
    have norm := knows.normal.trans above
    cases found : clog.statuses.lookup entry.record.txnId.toNat with
    | none =>
      rw [status_of_missing norm found, if_neg (not_lt.mpr above)] at fixed
      exact absurd rfl fixed
    | some status =>
      refine ⟨status, rfl, ?_⟩
      rintro rfl
      exact open_ (knows.explicit _ found)
  · exact knows.absorb commits fun id mem => by simp [writer] at mem

/-- **Recovery folds the rest of the log.** -/
theorem Knows.foldl (knows : Knows clog vacuumFloor past later active next)
    (ord : Ordered (past ++ later)) :
    Knows (later.foldl (fun clog entry => foldStatus clog entry.record) clog) vacuumFloor
      (past ++ later) [] active next := by
  induction later generalizing clog past with
  | nil => simpa using knows
  | cons entry later ih =>
    have named (id : TxnId) (h : id ∈ writers entry.record ++ committedBy entry.record) :=
      (ord past entry later rfl id h).2
    have := ih (knows.fold named) (by simpa using ord)
    simpa using this

/-- VACUUM may advance, and other ids become the ones that may write. -/
theorem Knows.mono (knows : Knows clog vacuumFloor past later active next) {vacuumFloor' next' : TxnId}
    {later' : List (Logged χ)} {active' : List TxnId} (le : vacuumFloor ≤ vacuumFloor')
    (fresh : ∀ id, WroteIn later' id ∨ id ∈ active' ∨ next' ≤ id → clog.committedFloor ≤ id) :
    Knows clog vacuumFloor' past later' active' next' where
  normal := knows.normal
  committed := knows.committed
  written := fun id wrote open_ passed => knows.written id wrote open_ (le.trans passed)
  explicit := knows.explicit
  above := fun id status found other passed =>
    knows.above id status found other fun aborted => le.trans (passed aborted)
  fresh := fresh

end Fold

/-! ### The statuses of a running manager -/

/-- The CLOG of a manager that has flushed `past` and has appended `later`: it also holds
the unflushed writers, and the commits among them are pending. -/
structure Tracks (clog : Clog) (pendingCommits : List TxnId) (vacuumFloor : TxnId)
    (past later : List (Logged χ)) (active : List TxnId) (next : TxnId) : Prop
    extends Knows clog vacuumFloor past later active next where
  pending : ∀ id, id ∈ pendingCommits ↔ CommittedIn later id
  unflushed : ∀ id, WroteIn later id → ¬CommittedIn past id →
    ∃ status, clog.statuses.lookup id = some status ∧ status ≠ .committed

section Tracks

variable {clog : Clog} {pendingCommits active : List TxnId} {vacuumFloor next : TxnId}
  {past later : List (Logged χ)} {record : WalRecord χ} {id : TxnId}

/-- What the sessions promise of a record: it is about running transactions only. -/
def Admitted (active : List TxnId) (log : List (Logged χ)) (record : WalRecord χ) : Prop :=
  ∀ id ∈ writers record ++ committedBy record, id ∈ active ∧ ¬CommittedIn log id

theorem publishStatus_cases (clog : Clog) (norm : ∀ id ∈ writers record, id ≠ 0) :
    writers record = [] ∧ publishStatus record clog = clog ∨
      ∃ id status, writers record = [id] ∧ status ≠ .committed ∧
        publishStatus record clog = clog.set id status := by
  rcases effect record with ⟨writer, -, -, publishes⟩ | ⟨writer, -, -, publishes⟩ |
    ⟨writer, -, -, publishes⟩ | ⟨writer, -, -, publishes⟩
  · have ne : record.txnId ≠ 0 := fun zero =>
      norm record.txnId.toNat (writer ▸ mem_singleton_self _) (zero ▸ rfl)
    exact .inr ⟨_, .inProgress, writer, by decide, publishes ne clog⟩
  · exact .inr ⟨_, .aborted, writer, by decide, publishes clog⟩
  · exact .inr ⟨_, .inProgress, writer, by decide, publishes clog⟩
  · exact .inl ⟨writer, publishes clog⟩

section

variable (tracks : Tracks clog pendingCommits vacuumFloor past later active next)

include tracks

/-- **An append publishes its writer**, whether or not the record gets written. -/
theorem Tracks.publish (adm : Admitted active (past ++ later) record) :
    Tracks (publishStatus record clog) pendingCommits vacuumFloor past later active next ∧
      ∀ id ∈ writers record, ∃ status,
        (publishStatus record clog).statuses.lookup id = some status ∧ status ≠ .committed := by
  have unsettled (id : TxnId) (h : id ∈ writers record) :
      clog.committedFloor ≤ id ∧ ¬CommittedIn past id := by
    obtain ⟨runs, open_⟩ := adm id (mem_append_left _ h)
    exact ⟨tracks.fresh id (.inr (.inl runs)), fun fixed => open_ (committedIn_append.mpr (.inl fixed))⟩
  have norm (id : TxnId) (h : id ∈ writers record) : id ≠ 0 :=
    ne_of_gt (lt_of_lt_of_le (by decide) (tracks.normal.trans (unsettled id h).1))
  rcases publishStatus_cases clog norm with ⟨writer, same⟩ | ⟨id, status, writer, other, set⟩
  · rw [same, writer]
    exact ⟨tracks, fun _ h => absurd h not_mem_nil⟩
  obtain ⟨above, open_⟩ := unsettled id (writer ▸ mem_singleton_self _)
  have found : (clog.set id status).statuses.lookup id = some status := by
    rw [lookup_set, if_pos rfl]
  rw [set, writer]
  refine ⟨⟨tracks.toKnows.set above open_ other, tracks.pending, fun id' wrote open' => ?_⟩,
    fun id' h => ?_⟩
  · by_cases same : id' = id
    · exact ⟨status, same ▸ found, other⟩
    · rw [lookup_set, if_neg same]
      exact tracks.unflushed id' wrote open'
  · rw [mem_singleton.mp h]
    exact ⟨status, found, other⟩

/-- **The record joins the log.** -/
theorem Tracks.append (adm : Admitted active (past ++ later) record) (entry : Logged χ)
    (same : writers entry.record = writers record ∧ committedBy entry.record = committedBy record) :
    Tracks (publishStatus record clog) (pendingCommits ++ committedBy entry.record) vacuumFloor past
      (later ++ [entry]) active next := by
  obtain ⟨pub, expl⟩ := tracks.publish adm
  refine ⟨pub.toKnows.mono le_rfl fun id who => pub.fresh id ?_, fun id => ?_,
    fun id wrote open_ => ?_⟩
  · rcases who with wrote | who
    · rcases wroteIn_append.mp wrote with wrote | wrote
      · exact .inl wrote
      · rw [wroteIn_singleton, same.1] at wrote
        exact .inr (.inl (adm id (mem_append_left _ wrote)).1)
    · exact .inr who
  · rw [mem_append, tracks.pending, committedIn_append, committedIn_singleton]
  rcases wroteIn_append.mp wrote with wrote | wrote
  · exact pub.unflushed id wrote open_
  · rw [wroteIn_singleton, same.1] at wrote
    exact expl id wrote

/-- **A flush commits what is pending.** -/
theorem Tracks.flush :
    Tracks (clog.setAll pendingCommits .committed) [] vacuumFloor (past ++ later) [] active next := by
  have none (id : TxnId) : ¬WroteIn ([] : List (Logged χ)) id := by simp [WroteIn]
  refine ⟨tracks.toKnows.commit tracks.pending (fun id wrote open_ _ => tracks.unflushed id wrote open_)
    fun id wrote => absurd wrote (none id), fun id => by simp [CommittedIn], fun id wrote => absurd wrote (none id)⟩

end

theorem exists_min?_le {ids : List TxnId} (mem : id ∈ ids) : ∃ least, ids.min? = some least ∧ least ≤ id := by
  obtain ⟨least, found⟩ := isSome_iff_exists.mp (isSome_min?_iff.mpr (ne_nil_of_mem mem))
  exact ⟨least, found, (min?_eq_some_iff.mp found).2 id mem⟩

theorem Clog.mem_pinned : id ∈ clog.pinned vacuumFloor ↔ ∃ status, clog.statuses.lookup id = some status ∧
    status ≠ .committed ∧ (status = .aborted → vacuumFloor ≤ id) := by
  have entry (status : TxnStatus) : clog.statuses.lookup id = some status ↔
    ⟨id, status⟩ ∈ clog.statuses.entries := AList.mem_lookup_iff
  unfold pinned
  simp only [mem_filterMap, entry]
  constructor
  · rintro ⟨⟨id', status⟩, mem, pinned⟩
    cases status <;> grind
  rintro ⟨status, mem, other, passed⟩
  refine ⟨_, mem, ?_⟩
  cases status <;> grind

variable {captured : List TxnId} {boundary : TxnId}

/-- The floor of a snapshot passes no pinned id, no captured one and none that is not
allocated yet. -/
theorem Clog.snapshotFloor_le (above : clog.committedFloor ≤ id) (norm : FIRST_NORMAL_XID ≤ id)
    (kept : id ∈ clog.pinned vacuumFloor ∨ id ∈ captured ∨ boundary ≤ id) :
    clog.snapshotFloor vacuumFloor captured boundary ≤ id := by
  refine max_le (max_le ?_ above) norm
  rcases kept with pinned | captured | boundary
  · obtain ⟨least, found, le⟩ := exists_min?_le pinned
    refine min_le_of_left_le ((min?_getD_le_of_mem ?_).trans le)
    simp [found]
  · obtain ⟨least, found, le⟩ := exists_min?_le captured
    refine min_le_of_left_le ((min?_getD_le_of_mem ?_).trans le)
    simp [found]
  · exact min_le_of_right_le boundary

theorem Clog.lookup_fromSnapshot (snap : ClogSnapshot) : (fromSnapshot snap).statuses.lookup id =
      if id ∈ snap.inProgress then some .inProgress
      else if id ∈ snap.aborted then some .aborted
      else if id ∈ snap.committed then some .committed else none := by
  unfold fromSnapshot
  simp only [lookup_setAll]
  congr 2

theorem Clog.committedFloor_fromSnapshot (snap : ClogSnapshot) :
    (fromSnapshot snap).committedFloor = max snap.committedFloor FIRST_NORMAL_XID := by
  unfold fromSnapshot
  simp [committedFloor_setAll]

/-- The snapshot of a checkpoint holds nothing below its floor, and from there on every
explicit status; what it adds is in progress. -/
theorem Clog.lookup_liveSnapshot (clogLsn auth : Nat)
    {floor : TxnId} (floor_eq : clog.snapshotFloor vacuumFloor captured boundary = floor)
    {found : Option TxnStatus}
    (lookup : (fromSnapshot (clog.liveSnapshot clogLsn auth vacuumFloor captured
      boundary)).statuses.lookup id = found) : (id < floor → found = none) ∧
    ∀ status, (floor ≤ id → clog.statuses.lookup id = some status → found = some status) ∧
      (found = some status → clog.statuses.lookup id = some status ∨ status = .inProgress) := by
  have norm : FIRST_NORMAL_XID ≤ floor := floor_eq ▸ le_max_right _ _
  have listed : (clog.explicitFrom floor .inProgress).Nodup := explicitFrom_nodup
  have captures := (addCaptured_spec clog floor captured listed).2 id
  have expl (status : TxnStatus) (norm : FIRST_NORMAL_XID ≤ id)
      (found : clog.statuses.lookup id = some status) := status_of_lookup norm found
  rw [lookup_fromSnapshot] at lookup
  unfold liveSnapshot at lookup
  simp only [floor_eq, mem_insertionSort, captures, mem_explicitFrom] at lookup
  subst lookup
  refine ⟨fun below => ?_, fun status => ⟨fun above found => ?_, fun found => ?_⟩⟩
  · have := not_le.mpr below
    simp [this]
  · have := expl status (norm.trans above) found
    cases status <;> simp [above, found, this]
  · split_ifs at found <;> grind

/-- Raising the floor and forgetting what is below it, where all then reads as committed. -/
theorem Clog.status_raised {clog' : Clog} (raised : clog.committedFloor ≤ clog'.committedFloor)
    (low : id < clog'.committedFloor → clog'.statuses.lookup id = none)
    (high : clog'.committedFloor ≤ id → clog'.statuses.lookup id = clog.statuses.lookup id ∨
      clog.statuses.lookup id = none ∧ clog'.statuses.lookup id = some .inProgress) :
    clog'.status id = if id < clog'.committedFloor then .committed else clog.status id := by
  rcases lt_or_ge id FIRST_NORMAL_XID with reserved | norm
  · simp [status, reserved]
  split
  · rename_i below
    rw [status_of_missing norm (low below), if_pos below]
  rename_i above
  have above := not_lt.mp above
  have still := not_lt.mpr (raised.trans above)
  rcases high above with same | ⟨gone, added⟩
  · unfold status
    simp [same, not_lt.mpr above, still]
  · rw [status_of_missing norm gone, status_of_lookup norm added, if_neg still]

theorem Clog.status_liveSnapshot (clogLsn auth : Nat) :
    (fromSnapshot (clog.liveSnapshot clogLsn auth vacuumFloor captured boundary)).status id =
      if id < clog.snapshotFloor vacuumFloor captured boundary then .committed else clog.status id := by
  obtain ⟨floor, floor_eq⟩ : ∃ floor, clog.snapshotFloor vacuumFloor captured boundary = floor := ⟨_, rfl⟩
  obtain ⟨seed, seed_eq⟩ : ∃ seed, fromSnapshot
    (clog.liveSnapshot clogLsn auth vacuumFloor captured boundary) = seed := ⟨_, rfl⟩
  have seedFloor : seed.committedFloor = floor := by
    rw [← seed_eq, committedFloor_fromSnapshot]
    exact (congrArg (max · _) floor_eq).trans (max_eq_left (floor_eq ▸ le_max_right _ _))
  obtain ⟨below, found⟩ := lookup_liveSnapshot clogLsn auth floor_eq
    (congrArg (fun seed => seed.statuses.lookup id) seed_eq)
  rw [seed_eq, floor_eq]
  rw [← seedFloor] at floor_eq below found ⊢
  refine status_raised (floor_eq ▸ (le_max_right _ _).trans (le_max_left _ _)) below fun above => ?_
  cases known : clog.statuses.lookup id with
  | some status => exact .inl ((found status).1 above known)
  | none =>
    cases added : seed.statuses.lookup id with
    | none => exact .inl rfl
    | some status =>
      obtain rfl := ((found status).2 added).resolve_left (by simp [known])
      exact .inr ⟨rfl, rfl⟩

/-- **The snapshot of a checkpoint**, taken after everybody was captured who writes
later than what is flushed. -/
theorem Tracks.capture (tracks : Tracks clog pendingCommits vacuumFloor past later active next)
    (clogLsn auth : Nat)
    (who : ∀ id, WroteIn later id ∨ id ∈ active → id ∈ captured ∨ boundary ≤ id)
    (alloc : boundary ≤ next) :
    Knows (fromSnapshot (clog.liveSnapshot clogLsn auth vacuumFloor captured boundary))
      vacuumFloor past later active next := by
  obtain ⟨floor, floor_eq⟩ : ∃ floor, clog.snapshotFloor vacuumFloor captured boundary = floor := ⟨_, rfl⟩
  have norm : FIRST_NORMAL_XID ≤ floor := floor_eq ▸ le_max_right _ _
  have kept {id : TxnId} (above : clog.committedFloor ≤ id)
      (kept : id ∈ clog.pinned vacuumFloor ∨ id ∈ captured ∨ boundary ≤ id) : floor ≤ id :=
    floor_eq ▸ snapshotFloor_le above (tracks.normal.trans above) kept
  obtain ⟨seed, seed_eq⟩ : ∃ seed, fromSnapshot
    (clog.liveSnapshot clogLsn auth vacuumFloor captured boundary) = seed := ⟨_, rfl⟩
  have seedFloor : seed.committedFloor = floor := by
    rw [← seed_eq, committedFloor_fromSnapshot]
    exact (congrArg (max · _) floor_eq).trans (max_eq_left norm)
  have found (id : TxnId) := lookup_liveSnapshot clogLsn auth floor_eq
    (congrArg (fun seed => seed.statuses.lookup id) seed_eq)
  rw [seed_eq]
  refine ⟨seedFloor ▸ norm, fun id norm fixed => ?_, fun id wrote open_ passed => ?_,
    fun id comm => ?_, fun id status expl _ _ => ?_, fun id later => ?_⟩
  · rw [← seed_eq, status_liveSnapshot]
    split
    · rfl
    · exact tracks.committed id norm fixed
  · obtain ⟨status, known, other⟩ := tracks.written id wrote open_ passed
    have above := tracks.above id status known other fun _ => passed
    have pinned := mem_pinned.mpr ⟨status, known, other, fun _ => passed⟩
    exact ⟨status, ((found id).2 status).1 (kept above (.inl pinned)) known, other⟩
  · exact tracks.explicit id ((((found id).2 _).2 comm).resolve_right (by decide))
  · rw [seedFloor]
    refine Nat.le_of_not_lt fun below => ?_
    rw [(found id).1 below] at expl
    cases expl
  rw [seedFloor]
  refine kept (tracks.fresh id later) (.inr ?_)
  rcases later with wrote | active | unallocated
  · exact who id (.inl wrote)
  · exact who id (.inr active)
  · exact .inr (alloc.trans unallocated)

theorem Clog.lookup_pruneTo (floor : TxnId) : (clog.pruneTo floor).statuses.lookup id =
      if (clog.pruneTo floor).committedFloor ≤ id then clog.statuses.lookup id else none := by
  exact AList.lookup_retain.trans (if_congr decide_eq_true_iff rfl rfl)

theorem Clog.status_pruneTo (floor : TxnId) : (clog.pruneTo floor).status id =
    if id < (clog.pruneTo floor).committedFloor then .committed else clog.status id := by
  refine status_raised ((le_max_left _ _).trans (le_max_left _ _)) (fun below => ?_) fun above => ?_
  · rw [lookup_pruneTo, if_neg (not_le.mpr below)]
  · exact .inl (by rw [lookup_pruneTo, if_pos above])

/-- A checkpoint of the CLOG: the file reads back, and neither the rebuilt CLOG nor the pruned one
changes a status that somebody may still ask for. No file is read that was not written. -/
theorem checkpoint_keeps_status (serde : ClogSerde) (clog : Clog) (vacuumFloor boundary : TxnId)
    (captured : List TxnId) {clogLsn authorized : Nat} (allowed : authorized ≤ clogLsn)
    {snapshot : ClogSnapshot}
    (taken : clog.liveSnapshot clogLsn authorized vacuumFloor captured boundary = snapshot) :
    (∀ payload, serde.toVec snapshot = .ok payload → payload.length ≤ MAX_CLOG_PAYLOAD_BYTES →
      snapshot.committed.length ≤ MAX_CLOG_STATUS_COUNT →
      snapshot.aborted.length ≤ MAX_CLOG_STATUS_COUNT →
      snapshot.inProgress.length ≤ MAX_CLOG_STATUS_COUNT →
      ∃ bytes, encodeClog serde snapshot = .ok bytes ∧ decodeClog serde bytes = .ok snapshot) ∧
    (∀ id, clog.status id = .committed ∨ clog.committedFloor ≤ id ∧
        (id ∈ captured ∨ vacuumFloor ≤ id ∧ clog.statuses.lookup id = some .aborted) →
      (Clog.fromSnapshot snapshot).status id = clog.status id) ∧
    (∀ id, (clog.pruneTo snapshot.committedFloor).status id = (Clog.fromSnapshot snapshot).status id) ∧
    (∀ floor id, (clog.pruneTo floor).status id ≠ clog.status id →
      clog.status id ≠ .committed ∧ id < max clog.committedFloor floor) ∧
    ∀ bytes found, serde.Detects bytes → decodeClog serde bytes = .ok found →
      found.Canonical ∧ encodeClog serde found = .ok bytes := by
  subst taken
  have canonical := clog.liveSnapshot_canonical vacuumFloor captured boundary allowed
  refine ⟨fun payload written fits committed aborted inProgress => ?_, fun id kept => ?_,
    fun id => ?_, fun floor id changed => ?_, fun bytes found => encodeClog_decodeClog⟩
  · have encoded := encodeClog_eq_ok.mpr ⟨⟨committed, aborted, inProgress⟩, payload, written, fits, rfl⟩
    exact ⟨_, encoded, (decodeClog_encodeClog canonical encoded).2⟩
  · rw [status_liveSnapshot]
    split
    · rename_i below
      rcases kept with committed | ⟨above, kept⟩
      · exact committed.symm
      rcases lt_or_ge id FIRST_NORMAL_XID with reserved | normal
      · simp [Clog.status, reserved]
      refine absurd (snapshotFloor_le above normal ?_) (not_le.mpr below)
      refine kept.elim (.inr ∘ .inl) fun ⟨passed, aborted⟩ => .inl ?_
      exact mem_pinned.mpr ⟨_, aborted, by decide, fun _ => passed⟩
    · rfl
  · rw [status_liveSnapshot, status_pruneTo]
    have floor : (clog.pruneTo (clog.snapshotFloor vacuumFloor captured boundary)).committedFloor =
        clog.snapshotFloor vacuumFloor captured boundary := by
      have raised : clog.committedFloor ≤ clog.snapshotFloor vacuumFloor captured boundary :=
        (le_max_right _ _).trans (le_max_left _ _)
      exact (sup_eq_left.mpr (le_max_of_le_right (le_max_right _ _))).trans (sup_eq_right.mpr raised)
    exact if_congr (by rw [← floor]; rfl) rfl rfl
  · rw [status_pruneTo] at changed
    split at changed
    · rename_i below
      refine ⟨changed.symm, (lt_max_iff.mp below).resolve_right fun reserved => changed ?_⟩
      simp [Clog.status, reserved]
    · exact absurd rfl changed

/-- Transaction 7 is running, 5 was rolled back and is not vacuumed yet. -/
theorem checkpoint_keeps_status_running :
    let clog := ((Clog.new.setCommitted 4).setAborted 5).setInProgress 7
    let snapshot := clog.liveSnapshot 9 9 5 [7] 8
    (∃ bytes, encodeClog (.only snapshot) snapshot = .ok bytes ∧
      decodeClog (.only snapshot) bytes = .ok snapshot) ∧
    (Clog.fromSnapshot snapshot).status 7 = .inProgress ∧
      (Clog.fromSnapshot snapshot).status 5 = .aborted := by
  intro clog snapshot
  obtain ⟨file, kept, -⟩ := checkpoint_keeps_status (.only snapshot) clog 5 8 [7] (le_refl 9) rfl
  exact ⟨file _ (ClogSerde.only_toVec snapshot) (by decide +kernel) (by decide +kernel) (by decide +kernel)
    (by decide +kernel), (kept 7 (by decide +kernel)).trans (by decide +kernel),
    (kept 5 (by decide +kernel)).trans (by decide +kernel)⟩

/-- An abort that is recorded below the floor is lost, and so is a writer that has not been heard
of when the CLOG is pruned past it. -/
theorem checkpoint_loses_status :
    let clog := (Clog.new.setCommittedFloor 10).setAborted 8
    clog.status 8 = .aborted ∧
      (Clog.fromSnapshot (clog.liveSnapshot 0 0 5 [] 20)).status 8 = .committed ∧
      Clog.new.status 5 = .inProgress ∧ (Clog.new.pruneTo 10).status 5 = .committed := by
  decide +kernel

/-- **Pruning to the stored snapshot**, which may be older than what is flushed by now. -/
theorem Tracks.prune {snap : ClogSnapshot} {before mid : List (Logged χ)}
    (tracks : Tracks clog pendingCommits vacuumFloor (before ++ mid) later active next)
    (kept : Knows (fromSnapshot snap) snap.vacuumFloor before (mid ++ later) active next)
    (le : snap.vacuumFloor ≤ vacuumFloor) :
    Tracks (clog.pruneTo snap.committedFloor) pendingCommits vacuumFloor (before ++ mid) later
      active next := by
  obtain ⟨pruned, pruned_eq⟩ : ∃ pruned, clog.pruneTo snap.committedFloor = pruned := ⟨_, rfl⟩
  have floor : pruned.committedFloor =
      max clog.committedFloor (fromSnapshot snap).committedFloor := by
    rw [← pruned_eq, committedFloor_fromSnapshot, ← max_assoc]
    rfl
  have found (id : TxnId) : pruned.statuses.lookup id =
      if pruned.committedFloor ≤ id then clog.statuses.lookup id else none := by
    rw [← pruned_eq]
    exact lookup_pruneTo _
  have known (id : TxnId) (above : pruned.committedFloor ≤ id) :
      pruned.statuses.lookup id = clog.statuses.lookup id := (found id).trans (if_pos above)
  have fresh (id : TxnId) (who : WroteIn later id ∨ id ∈ active ∨ next ≤ id) :
      pruned.committedFloor ≤ id := by
    rw [floor]
    exact max_le (tracks.fresh id who) (kept.fresh id (who.imp_left fun wrote => wroteIn_append.mpr (.inr wrote)))
  rw [pruned_eq]
  refine ⟨⟨floor ▸ le_max_of_le_left tracks.normal, fun id norm fixed => ?_,
    fun id wrote open_ passed => ?_, fun id comm => ?_, fun id status expl _ _ => ?_, fresh⟩,
    tracks.pending, fun id wrote open_ => ?_⟩
  · rw [← pruned_eq, status_pruneTo]
    split
    · rfl
    · exact tracks.committed id norm fixed
  · obtain ⟨status, expl, other⟩ := tracks.written id wrote open_ passed
    have above := tracks.above id status expl other fun _ => passed
    refine ⟨status, (known id ?_).trans expl, other⟩
    rw [floor]
    refine max_le above ?_
    rcases wroteIn_append.mp wrote with wrote | wrote
    · have open_ := fun fixed => open_ (committedIn_append.mpr (.inl fixed))
      obtain ⟨status, expl, other⟩ := kept.written id wrote open_ (le.trans passed)
      exact kept.above id status expl other fun _ => le.trans passed
    · exact kept.fresh id (.inl (wroteIn_append.mpr (.inl wrote)))
  · rw [found] at comm
    split at comm
    · exact tracks.explicit id comm
    · cases comm
  · rw [found] at expl
    split at expl
    · assumption
    · cases expl
  · rw [known id (fresh id (.inl wrote))]
    exact tracks.unflushed id wrote open_

end Tracks

/-! ### Recovery -/

section Recovery

variable {clog : Clog} {active : List TxnId} {vacuumFloor next : TxnId} {log past later : List (Logged χ)}
  {record : WalRecord χ} {id : TxnId} {status : TxnStatus}

theorem representsTransaction_of_writer (writer : id ∈ writers record) (norm : id ≠ 0) :
    representsTransaction record = true ∧ record.txnId.toNat = id := by
  unfold writers at writer
  split at writer
  · rename_i kind
    obtain rfl := mem_singleton.mp writer
    have ne : record.txnId ≠ 0 := fun zero => norm (zero ▸ rfl)
    refine ⟨?_, rfl⟩
    unfold representsTransaction isSettlement at *
    grind
  · cases writer

/-- A record makes only its writer explicit, except for commits. -/
theorem foldStatus_explicit (found : (foldStatus clog record).statuses.lookup id = some status)
    (other : status ≠ .committed) : clog.statuses.lookup id = some status ∨ id ∈ writers record := by
  have set {status' : TxnStatus}
      (found : (clog.set record.txnId.toNat status').statuses.lookup id = some status) :
      clog.statuses.lookup id = some status ∨ id ∈ [record.txnId.toNat] := by
    rw [lookup_set] at found
    split at found
    · exact .inr (mem_singleton.mpr ‹_›)
    · exact .inl found
  rcases effect record with ⟨writer, -, folds, -⟩ | ⟨writer, -, folds, -⟩ |
    ⟨writer, -, folds, -⟩ | ⟨writer, -, folds, -⟩ <;> rw [folds] at found <;> rw [writer]
  · rw [lookup_setAll] at found
    split at found
    · exact absurd (some.inj found).symm other
    · exact .inl found
  · exact set found
  · split at found
    · exact set found
    · exact .inl found
  · exact .inl found

theorem foldl_explicit (clog : Clog)
    (found : (later.foldl (fun clog entry => foldStatus clog entry.record) clog).statuses.lookup id =
      some status) (other : status ≠ .committed) :
    clog.statuses.lookup id = some status ∨ WroteIn later id := by
  induction later generalizing clog with
  | nil => exact .inl found
  | cons entry later ih =>
    rw [wroteIn_cons]
    rcases ih _ found with found | wrote
    · exact (foldStatus_explicit found other).imp_right .inl
    · exact .inr (.inr wrote)

/-- The floor that recovery derives passes no writer that did not commit. -/
theorem recoveryFloor_le {ents : List (WalEntry χ)} {entry : WalEntry χ}
    (mem : entry ∈ ents) (writer : representsTransaction entry.record = true)
    (open_ : clog.status entry.record.txnId.toNat ≠ .committed) :
    recoveryFloor clog ents next ≤ entry.record.txnId.toNat := by
  have listed : entry.record.txnId.toNat ∈ ents.filterMap fun entry =>
      if representsTransaction entry.record && !clog.isCommitted entry.record.txnId.toNat then
        some entry.record.txnId.toNat
      else none := mem_filterMap.mpr ⟨entry, mem, by simp [writer, isCommitted, open_]⟩
  obtain ⟨least, found, le⟩ := exists_min?_le listed
  unfold recoveryFloor oldestNonCommitted
  rw [found]
  exact (min_le_right _ _).trans le

theorem recoveryFloor_le_boundary (clog : Clog) (ents : List (WalEntry χ)) :
    recoveryFloor clog ents next ≤ next := by
  unfold recoveryFloor
  split
  · exact min_le_left _ _
  · exact le_rfl

/-- **A floor without a snapshot file.** -/
theorem Knows.establish (knows : Knows clog vacuumFloor log [] [] next) {floor : TxnId}
    (expl : ∀ id status, clog.statuses.lookup id = some status → status ≠ .committed → floor ≤ id)
    (le : floor ≤ next) : Knows (clog.setCommittedFloor floor) vacuumFloor log [] [] next := by
  have raised : (clog.setCommittedFloor floor).committedFloor = max clog.committedFloor floor :=
    max_eq_left (knows.normal.trans (le_max_left _ _))
  refine ⟨le_max_right _ _, fun id norm fixed => ?_, knows.written, knows.explicit,
    fun id status found other passed => ?_, fun id who => ?_⟩
  · have comm := knows.committed id norm fixed
    cases found : clog.statuses.lookup id with
    | none =>
      have found' : (clog.setCommittedFloor floor).statuses.lookup id = none := found
      rw [status_of_missing norm found] at comm
      rw [status_of_missing norm found', raised]
      split at comm
      · exact if_pos (lt_max_of_lt_left ‹_›)
      · cases comm
    | some status =>
      have found' : (clog.setCommittedFloor floor).statuses.lookup id = some status := found
      rw [status_of_lookup norm found']
      rwa [status_of_lookup norm found] at comm
  · rw [raised]
    exact max_le (knows.above id status found other passed) (expl id status found other)
  · rw [raised]
    refine max_le (knows.fresh id who) (le.trans ?_)
    simpa [WroteIn] using who

/-- **In-flight writers are resolved.** -/
theorem Knows.resolve (knows : Knows clog vacuumFloor past later active next) :
    Knows clog.resolveAllInProgressAsAborted vacuumFloor past later active next := by
  have lookup (id : TxnId) : clog.resolveAllInProgressAsAborted.statuses.lookup id =
      (clog.statuses.lookup id).map fun status => if status = .inProgress then .aborted else status := by
    rw [resolveAllInProgressAsAborted, AList.lookup_filterMapValues]
    cases clog.statuses.lookup id <;> rfl
  refine ⟨knows.normal, fun id norm fixed => ?_, fun id wrote open_ passed => ?_, fun id found => ?_,
    fun id status found other passed => ?_, knows.fresh⟩
  · have comm := knows.committed id norm fixed
    have after := lookup id
    cases found : clog.statuses.lookup id with
    | none =>
      rw [found] at after
      rw [status_of_missing norm found] at comm
      rw [status_of_missing norm after]
      exact comm
    | some status =>
      rw [found] at after
      rw [status_of_lookup norm found] at comm
      rw [status_of_lookup norm after, comm]
      rfl
  · obtain ⟨status, found, other⟩ := knows.written id wrote open_ passed
    rw [lookup, found]
    refine ⟨_, rfl, ?_⟩
    dsimp only
    split
    · decide
    · exact other
  · rw [lookup] at found
    obtain ⟨status, found, same⟩ := map_eq_some_iff.mp found
    split at same
    · cases same
    · exact knows.explicit id (same ▸ found)
  rw [lookup] at found
  obtain ⟨status', found, same⟩ := map_eq_some_iff.mp found
  split at same
  · rename_i inProgress
    exact knows.above id status' found (by rw [inProgress]; decide)
      fun abort => absurd (inProgress.symm.trans abort) (by decide)
  · exact knows.above id status (same ▸ found) other passed

end Recovery

end Saguaro.Wal
