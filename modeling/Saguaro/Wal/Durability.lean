/-
Which transactions are committed after a crash.

`Known` is the invariant of every quiet run of a server: the statuses that the manager
holds are right for what is flushed, those in the snapshot file for what it covers, and
no running or future id is below a committed floor. From it follow the two main results:
after a crash and a recovery, an id with a record in the log reads as committed exactly
if a commit record of it survived (`recovered_status_iff_commit_durable`), and no id is
committed before that (`no_transaction_born_committed`).
-/

import Saguaro.Wal.Server

namespace Saguaro.Wal

open Crash FileWal Transition List Option Server Except

variable {χ : Type} {strict : Bool} {faults : List Fault} {record : WalRecord χ}

/-- What a manager that may be poisoned still guarantees: no running or future id is
below the floor, and an explicit commit is durable. -/
structure Guarded (w : World χ) (st : WalState) (registry : Registry) : Prop where
  floor : ∀ id, id ∈ registry.active ∨ registry.nextTxnId ≤ id → st.clog.committedFloor ≤ id
  explicit : ∀ id, st.clog.statuses.lookup id = some .committed →
    ∀ found, w.disk.walMeta = some found → CommittedIn (retained w.log found.durableEnd) id

/-- What a checkpoint can rely on that has read who is running and the next id, with the
log `before` at that time. -/
structure Reads (strict : Bool) (s : Server χ) (active : List TxnId) (boundary : TxnId)
    (before after : List (Logged χ)) : Prop where
  log : s.wal.log = before ++ after
  recovered : s.recovered = true
  phase : s.wal.phase = .idle ∨ ∃ floor, s.wal.phase = .ready floor
  normal : FIRST_NORMAL_XID ≤ boundary
  allocated : boundary ≤ s.registry.nextTxnId
  who : ∀ id, WroteIn after id ∨ id ∈ s.registry.active → id ∈ active ∨ boundary ≤ id
  older : ∀ id ∈ active, id < boundary
  carried : ∀ id, CarriedIn strict before id → id < boundary
  floor : ∀ st, s.wal.live = some st → st.clog.committedFloor ≤ boundary

def ReadingOk (strict : Bool) (s : Server χ) : Prop :=
  match s.reading with
  | .none => True
  | .captured active boundary => Reads strict s active boundary s.wal.log []
  | .placed active boundary endLsn => ∃ before after, (stream before).length = endLsn ∧
      Reads strict s active boundary before after

theorem ReadingOk.of_none {s : Server χ} (unread : s.reading = .none) : ReadingOk strict s := by
  unfold ReadingOk
  rw [unread]
  trivial

theorem ReadingOk.imp {s s' : Server χ} (ok : ReadingOk strict s) (same : s'.reading = s.reading)
    (cap : ∀ active boundary, s.reading = .captured active boundary →
      Reads strict s active boundary s.wal.log [] → Reads strict s' active boundary s'.wal.log [])
    (placed : ∀ active boundary prior after, Reads strict s active boundary prior after →
      ∃ after', Reads strict s' active boundary prior after') : ReadingOk strict s' := by
  unfold ReadingOk at ok ⊢
  rw [same]
  split
  · trivial
  · rename_i is
    rw [is] at ok
    exact cap _ _ is ok
  rename_i is
  rw [is] at ok
  obtain ⟨prior, after, ends, reads⟩ := ok
  obtain ⟨after', reads'⟩ := placed _ _ prior after reads
  exact ⟨prior, after', ends, reads'⟩

/-- What the manager of a running process knows. -/
def LiveOk (s : Server χ) (st : WalState) (snapshot : Option ClogSnapshot) : Prop :=
  match s.recovered with
  | false => Opened st snapshot s.wal.log
  | true => Tracking st s.wal.log s.registry.active s.registry.nextTxnId ∧
      (seedOf snapshot).vacuumFloor ≤ st.vacuumFloor ∧
      ∀ snap, s.wal.phase = .captured snap → snap.vacuumFloor ≤ st.vacuumFloor

theorem LiveOk.of_recovered {s : Server χ} {st : WalState} {snapshot : Option ClogSnapshot}
    (recovered : s.recovered = true)
    (ok : Tracking st s.wal.log s.registry.active s.registry.nextTxnId ∧
      (seedOf snapshot).vacuumFloor ≤ st.vacuumFloor ∧
      ∀ snap, s.wal.phase = .captured snap → snap.vacuumFloor ≤ st.vacuumFloor) :
    LiveOk s st snapshot := by
  unfold LiveOk
  rwa [recovered]

/-- **The invariant of every quiet run.** -/
structure Known (strict : Bool) (params : Params χ) (s : Server χ) : Prop where
  ordered : Ordered s.wal.log
  stored : ∀ snapshot, storedClog params s.wal.disk = .ok snapshot →
    Fits strict s.wal.log s.registry.active s.registry.nextTxnId snapshot
  captured : ∀ snap, s.wal.phase = .captured snap →
    Fits strict s.wal.log s.registry.active s.registry.nextTxnId (some snap)
  sessions : ∀ id ∈ s.registry.active, id < s.registry.nextTxnId ∧
    (CommittedIn s.wal.log id → id ∈ s.settled)
  carried : s.recovered = true → ∀ id, CarriedIn strict s.wal.log id → id < s.registry.nextTxnId
  down : s.wal.live = none → s.recovered = false
  starting : s.recovered = false → s.wal.phase = .idle ∧ s.reading = .none
  reading : ReadingOk strict s
  guarded : ∀ st, s.wal.live = some st → s.recovered = true → Guarded s.wal st s.registry
  live : ∀ st, s.wal.live = some st → st.poisoned = none → ∀ snapshot,
    storedClog params s.wal.disk = .ok snapshot → LiveOk s st snapshot

/-! ### Guarantees that outlast a failure -/

section Guarded

variable {params : Params χ} {s : Server χ} {w : World χ} {st st' : WalState} {d : Disk} {floor flushed : Nat}
  {snapshot : Option ClogSnapshot} {registry : Registry} {log : List (Logged χ)}

theorem CommittedIn.mono {prior after : List (Logged χ)} {id : TxnId} (comm : CommittedIn prior id)
    (sub : prior ⊆ after) : CommittedIn after id := by
  obtain ⟨entry, mem, commits⟩ := comm
  exact ⟨entry, sub mem, commits⟩

theorem retained_mono {pos pos' : Nat} (le : pos ≤ pos') : retained log pos ⊆ retained log pos' := by
  unfold retained
  induction log with
  | nil => simp
  | cons entry log ih =>
    intro x mem
    rw [takeWhile_cons] at mem ⊢
    split at mem
    · rename_i early
      have : entry.record.lsn ≤ pos' := (decide_eq_true_iff.mp early).trans le
      rw [if_pos (decide_eq_true this)]
      exact (mem_cons.mp mem).elim (fun same => same ▸ .head _ ..) fun mem => .tail _ (ih mem)
    · cases mem

/-- Statuses that were right for what is flushed stay guarded, whatever part of a
section was done. -/
theorem Tracking.guarded (tracking : Tracking st log registry.active registry.nextTxnId)
    (logged : w.log = log) (running : Running params w.disk floor st.flushedLsn snapshot log)
    (same : st'.clog.committedFloor = st.clog.committedFloor)
    (explicit : ∀ id, st'.clog.statuses.lookup id = some .committed →
      st.clog.statuses.lookup id = some .committed) : Guarded w st' registry := by
  obtain ⟨past, later, split, position, tracks⟩ := tracking
  obtain ⟨durableEnd, le, stored, -⟩ := running
  refine ⟨fun id who => same ▸ tracks.fresh id (.inr who), fun id h found walMeta => ?_⟩
  have framed := stored.framed
  cases stored.recorded.walMeta.symm.trans walMeta
  have retained_eq : retained log st.flushedLsn = past := by
    rw [split, ← position]
    exact retained_of_boundary (split ▸ framed)
  rw [logged]
  refine (tracks.explicit id (explicit id h)).mono ?_
  exact retained_eq ▸ retained_mono le

theorem Guarded.mono (guarded : Guarded s.wal st s.registry) (log : w.log = s.wal.log)
    (walMeta : w.disk.walMeta = s.wal.disk.walMeta)
    (same : st'.clog.committedFloor = st.clog.committedFloor)
    (expl : ∀ id, st'.clog.statuses.lookup id = some .committed →
      st.clog.statuses.lookup id = some .committed) : Guarded w st' s.registry :=
  ⟨fun id who => same ▸ guarded.floor id who, fun id h found here => by
    rw [log]
    exact guarded.explicit id (expl id h) found (walMeta ▸ here)⟩

theorem publishStatus_committed (record : WalRecord χ) (clog : Clog) :
    (publishStatus record clog).committedFloor = clog.committedFloor ∧
      ∀ id, (publishStatus record clog).statuses.lookup id = some .committed →
        clog.statuses.lookup id = some .committed := by
  have set (stat : TxnStatus) (other : stat ≠ .committed) (id : TxnId)
      (found : (clog.set record.txnId.toNat stat).statuses.lookup id = some .committed) :
      clog.statuses.lookup id = some .committed := by
    rw [Clog.lookup_set] at found
    split at found
    · exact absurd (some.inj found) other
    · exact found
  unfold publishStatus
  split
  · exact ⟨rfl, set .aborted (by decide)⟩
  split
  · exact ⟨rfl, set .inProgress (by decide)⟩
  · exact ⟨rfl, fun _ h => h⟩

/-- Only the statuses and the flushed position matter. -/
theorem Tracking.congr {active : List TxnId} {next : TxnId} (tracking : Tracking st log active next)
    (statuses : st'.statuses = st.statuses) (flushed : st'.flushedLsn = st.flushedLsn) :
    Tracking st' log active next := by
  obtain ⟨past, later, split, pos, tracks⟩ := tracking
  have clog : st'.clog = st.clog := congrArg Statuses.clog statuses
  have due : st'.pendingCommits = st.pendingCommits := congrArg Statuses.pendingCommits statuses
  have vacuum : st'.vacuumFloor = st.vacuumFloor := congrArg Statuses.vacuumFloor statuses
  refine ⟨past, later, split, pos.trans flushed.symm, ?_⟩
  rw [clog, due, vacuum]
  exact tracks

/-- Whether or not the writer was published. -/
theorem published_committed {clog : Clog}
    (pub : clog = st.clog ∨ clog = publishStatus record st.clog) :
    clog.committedFloor = st.clog.committedFloor ∧ ∀ id, clog.statuses.lookup id = some .committed →
        st.clog.statuses.lookup id = some .committed := by
  rcases pub with rfl | rfl
  · exact ⟨rfl, fun _ h => h⟩
  · exact publishStatus_committed record st.clog

end Guarded

/-- What a record of a calm run leaves behind, while a checkpoint reads, is older than that. -/
theorem Server.Calm.carried {s : Server χ} {active : List TxnId} {boundary id : TxnId}
    (calm : Calm strict s (.wal (.append record faults)))
    (reads : s.reading = .captured active boundary)
    (settles : record.kind.isRedoOperation = false) (mem : id ∈ Wal.carried strict record) :
    id < boundary := by
  unfold Calm at calm
  cases strict with
  | false =>
    rw [Wal.carried, settles] at mem
    exact calm active boundary reads id (by simpa using mem)
  | true =>
    rw [Wal.carried, mem_append] at mem
    exact calm active boundary reads id (mem_append.mpr mem.symm)

/-- In a strictly calm run, a checkpoint meets statuses of old ids or of flushed records. -/
theorem Server.Calm.explicit {s : Server χ} {st : WalState} {proposed : Nat} {active : List TxnId}
    {boundary id : TxnId} {status : TxnStatus}
    (calm : Calm strict s (.wal (.capture proposed active boundary))) (strictly : strict = true)
    (up : s.wal.live = some st) (found : st.clog.statuses.lookup id = some status) :
    id < boundary ∨ CarriedIn strict (retained s.wal.log st.flushedLsn) id := by
  subst strictly
  refine (calm st up id status found).imp_right fun ⟨entry, mem, names⟩ => ⟨entry, mem, ?_⟩
  rw [Wal.carried, mem_append]
  exact (mem_append.mp names).symm

theorem CarriedIn.mono {log more : List (Logged χ)} {id : TxnId} (carries : CarriedIn strict log id)
    (sub : log ⊆ more) : CarriedIn strict more id := by
  obtain ⟨entry, mem, names⟩ := carries
  exact ⟨entry, sub mem, names⟩

theorem retained_subset (log : List (Logged χ)) (endPos : Nat) : retained log endPos ⊆ log :=
  IsPrefix.subset <| takeWhile_prefix _

theorem Opens.stored {params : Params χ} {d : Disk} {snapshot : Option ClogSnapshot}
    {log : List (Logged χ)} {acked : Nat} (opens : Opens params d snapshot log acked) :
    storedClog params d = .ok snapshot := by
  rcases opens with ⟨fresh, rfl, -⟩ | ⟨found, kept, -⟩
  · rw [storedClog, fresh.clog]
  · exact kept.stored

namespace Known

variable {params : Params χ} {s : Server χ} {w : World χ} {st : WalState} {floor flushed : Nat}
  {snapshot : Option ClogSnapshot}

section

variable (known : Known strict params s)

include known

/-- The process ends, or a new one starts: only the log and the directory stay. -/
theorem restarted (log : w.log = s.wal.log) (phase : w.phase = .idle) (down : w.live = none)
    (stored : storedClog params w.disk = .ok snapshot)
    (fits : Fits strict s.wal.log s.registry.active s.registry.nextTxnId snapshot) :
    Known strict params (s.restarted w) where
  ordered := log ▸ known.ordered
  stored := fun found present => by
    obtain rfl := ok.inj (stored.symm.trans present)
    refine Fits.sessions (log ▸ fits) (fun id who => ?_) le_rfl
    exact .inr (by simpa [Server.restarted, Registry.new] using who)
  captured := fun snap h => by simp [Server.restarted, phase] at h
  sessions := fun id h => by simp [Server.restarted, Registry.new] at h
  carried := fun h => by simp [Server.restarted] at h
  down := fun _ => rfl
  starting := fun _ => ⟨phase, rfl⟩
  reading := trivial
  guarded := fun st up => by simp [Server.restarted, down] at up
  live := fun st up => by simp [Server.restarted, down] at up

/-! ### Sessions come and go -/

theorem of_registry {registry : Registry}
    (who : ∀ id, id ∈ registry.active ∨ registry.nextTxnId ≤ id →
      id ∈ s.registry.active ∨ s.registry.nextTxnId ≤ id)
    (le : s.registry.nextTxnId ≤ registry.nextTxnId)
    (sessions : ∀ id ∈ registry.active, id < registry.nextTxnId ∧
      (CommittedIn s.wal.log id → id ∈ s.settled)) : Known strict params { s with registry } where
  ordered := known.ordered
  stored := fun snapshot found => (known.stored snapshot found).sessions who le
  captured := fun snap h => (known.captured snap h).sessions who le
  sessions := sessions
  carried := fun recovered id h => (known.carried recovered id h).trans_le le
  down := known.down
  starting := known.starting
  reading := by
    have reads {active : List TxnId} {boundary : TxnId} {before after : List (Logged χ)}
        (reads : Reads strict s active boundary before after) :
        Reads strict { s with registry } active boundary before after := by
      refine { reads with allocated := reads.allocated.trans le, who := fun id h => ?_ }
      rcases h with wrote | running
      · exact reads.who id (.inl wrote)
      · exact (who id (.inl running)).elim (fun h => reads.who id (.inr h))
          fun h => .inr (reads.allocated.trans h)
    exact known.reading.imp rfl (fun _ _ _ => reads) fun _ _ _ after h => ⟨after, reads h⟩
  guarded := fun st up recovered =>
    let guarded := known.guarded st up recovered
    ⟨fun id h => guarded.floor id (who id h), guarded.explicit⟩
  live := fun st up available snapshot found => by
    have live := known.live st up available snapshot found
    unfold LiveOk at live ⊢
    split
    · rename_i recovered
      rwa [recovered] at live
    rename_i recovered
    rw [recovered] at live
    exact ⟨live.1.sessions who, live.2⟩

/-- `register_allocated`, for a transaction or a savepoint. -/
theorem register (recovered : s.recovered = true) {registry : Registry}
    (active : registry.active = s.registry.nextTxnId :: s.registry.active)
    (next : registry.nextTxnId = s.registry.nextTxnId + 1) : Known strict params { s with registry } := by
  refine known.of_registry (fun id h => ?_) (next ▸ Nat.le_succ _) fun id h => ?_
  · rw [active, next] at h
    rcases h with h | h
    · exact (mem_cons.mp h).elim (fun same => .inr same.ge) .inl
    · exact .inr (Nat.le_of_succ_le h)
  rw [active] at h
  rw [next]
  rcases h with _ | ⟨_, h⟩
  · exact ⟨Nat.lt_succ_self _, fun fixed =>
      absurd (known.carried recovered _ fixed.carriedIn) (lt_irrefl _)⟩
  · exact ⟨Nat.lt_succ_of_lt (known.sessions id h).1, (known.sessions id h).2⟩

/-- `deregister_all`. -/
theorem deregister (ids : List TxnId) :
    Known strict params { s with registry := s.registry.deregisterAll ids } := by
  have sub (id : TxnId) (h : id ∈ (s.registry.deregisterAll ids).active) : id ∈ s.registry.active :=
    mem_of_mem_filter h
  exact known.of_registry (fun id h => h.imp_left (sub id)) le_rfl fun id h => known.sessions id (sub id h)

/-! ### What a checkpoint reads -/

theorem of_reading {reading : Reading}
    (ok : ReadingOk strict { s with reading }) (recovered : s.recovered = true) :
    Known strict params { s with reading } := { known with
    reading := ok
    starting := fun fresh => absurd (recovered.symm.trans fresh) (by decide) }

theorem captureActive (recovered : s.recovered = true)
    (phase : s.wal.phase = .idle ∨ ∃ floor, s.wal.phase = .ready floor)
    (norm : FIRST_NORMAL_XID ≤ s.registry.nextTxnId) :
    Known strict params { s with reading := .captured s.registry.active s.registry.nextTxnId } := by
  refine known.of_reading ⟨(append_nil _).symm, recovered, phase, norm, le_rfl, fun id h => ?_,
    fun id h => (known.sessions id h).1, known.carried recovered, fun st up => (known.guarded st up recovered).floor _ (.inr le_rfl)⟩ recovered
  exact h.elim (fun wrote => by simp [WroteIn] at wrote) .inl

theorem readEnd {active : List TxnId} {boundary : TxnId}
    (cap : s.reading = .captured active boundary) {endLsn : Nat}
    (ends : (stream s.wal.log).length = endLsn) :
    Known strict params { s with reading := .placed active boundary endLsn } := by
  have reading := known.reading
  unfold ReadingOk at reading
  rw [cap] at reading
  exact known.of_reading ⟨s.wal.log, [], ends, { reading with }⟩ reading.recovered

/-! ### Actions of the WAL -/

/-- A section that leaves the log as it is. -/
theorem of_same_log (up : s.wal.live = some st) {st' : WalState}
    (up' : w.live = some st') (log : w.log = s.wal.log) {found : Option ClogSnapshot}
    (stored : storedClog params w.disk = .ok found)
    (fits : Fits strict s.wal.log s.registry.active s.registry.nextTxnId found)
    (captured : ∀ snap, w.phase = .captured snap →
      Fits strict s.wal.log s.registry.active s.registry.nextTxnId (some snap))
    (reading : s.reading = .none ∨ st'.clog.committedFloor = st.clog.committedFloor ∧
      (w.phase = s.wal.phase ∨ w.phase = .idle))
    (recovered : s.recovered = true) (guarded : Guarded w st' s.registry)
    (live : st'.poisoned = none → Tracking st' s.wal.log s.registry.active s.registry.nextTxnId ∧
        (seedOf found).vacuumFloor ≤ st'.vacuumFloor ∧
        ∀ snap, w.phase = .captured snap → snap.vacuumFloor ≤ st'.vacuumFloor) :
    Known strict params { s with wal := w } where
  ordered := log ▸ known.ordered
  stored := fun snapshot present => by
    obtain rfl := ok.inj (stored.symm.trans present)
    exact log ▸ fits
  captured := fun snap h => log ▸ captured snap h
  sessions := fun id h => log ▸ known.sessions id h
  carried := fun recovered id h => known.carried recovered id (log ▸ h)
  down := fun down => absurd (up'.symm.trans down) (by simp)
  starting := fun fresh => absurd (recovered.symm.trans fresh) (by decide)
  reading := by
    rcases reading with unread | ⟨floor, phase⟩
    · exact ReadingOk.of_none unread
    have reads {active : List TxnId} {boundary : TxnId} {before after : List (Logged χ)}
        (reads : Reads strict s active boundary before after) :
        Reads strict { s with wal := w } active boundary before after := by
      refine { reads with log := log.trans reads.log, phase := ?_, floor := fun st'' up'' => ?_ }
      · exact phase.elim (fun same => by simpa [same] using reads.phase) .inl
      · cases up'.symm.trans up''
        exact floor.le.trans (reads.floor st up)
    exact known.reading.imp rfl (fun _ _ _ h => reads (log.symm ▸ h))
      fun _ _ _ after h => ⟨after, reads h⟩
  guarded := fun st'' up'' _ => by
    cases up'.symm.trans up''
    exact guarded
  live := fun st'' up'' available snapshot present => by
    cases up'.symm.trans up''
    obtain rfl := ok.inj (stored.symm.trans present)
    exact .of_recovered recovered (log ▸ live available)

/-- A section that leaves the log and the segments as they are. -/
theorem of_same_segments (up : s.wal.live = some st) {st' : WalState}
    (up' : w.live = some st') (log : w.log = s.wal.log)
    (walMeta : w.disk.walMeta = s.wal.disk.walMeta) {found : Option ClogSnapshot}
    (kept : storedClog params w.disk = .ok found)
    (fits : Fits strict s.wal.log s.registry.active s.registry.nextTxnId found)
    (cap : ∀ snap, w.phase = .captured snap →
      Fits strict s.wal.log s.registry.active s.registry.nextTxnId (some snap))
    (reading : s.reading = .none ∨ w.phase = s.wal.phase ∨ w.phase = .idle)
    (recovered : s.recovered = true) (floor : st'.clog.committedFloor = st.clog.committedFloor)
    (expl : ∀ id, st'.clog.statuses.lookup id = some .committed →
      st.clog.statuses.lookup id = some .committed)
    (live : st'.poisoned = none → Tracking st' s.wal.log s.registry.active s.registry.nextTxnId ∧
        (seedOf found).vacuumFloor ≤ st'.vacuumFloor ∧
        ∀ snap, w.phase = .captured snap → snap.vacuumFloor ≤ st'.vacuumFloor) :
    Known strict params { s with wal := w } :=
  known.of_same_log up up' log kept fits cap (reading.imp_right fun phase => ⟨floor, phase⟩)
    recovered ((known.guarded st up recovered).mono log walMeta floor expl) live

/-- While a checkpoint is between its readings and its sections, nothing is read. -/
theorem reading_none (busy : ¬(s.wal.phase = .idle ∨ ∃ floor, s.wal.phase = .ready floor)) :
    s.reading = .none := by
  have reading := known.reading
  unfold ReadingOk at reading
  split at reading
  · assumption
  · exact absurd reading.phase busy
  · obtain ⟨_, _, _, reads⟩ := reading
    exact absurd reads.phase busy

end

section Steps

variable (known : Known strict params s) (up : s.wal.live = some st)
  (serving : World.Serving params s.wal st floor flushed snapshot)

include serving in
theorem storedNow : storedClog params s.wal.disk = .ok snapshot := by
  obtain ⟨durableEnd, -, kept, -⟩ := serving.running
  exact kept.stored

variable {t : Disk}

include known serving

/-- The snapshot file fits. -/
theorem fits : Fits strict s.wal.log s.registry.active s.registry.nextTxnId snapshot :=
  known.stored _ (storedNow serving)

/-- The process stops, on a directory with the same snapshot file. -/
theorem stopped (action : Action χ) (same : storedClog params t = .ok snapshot) :
    Known strict params (s.after action (s.wal.down t)) :=
  known.restarted rfl rfl rfl same (known.fits serving)

include up

theorem tracking (recovered : s.recovered = true) (avail : st.poisoned = none) :
    Tracking st s.wal.log s.registry.active s.registry.nextTxnId ∧
      (seedOf snapshot).vacuumFloor ≤ st.vacuumFloor ∧
      ∀ snap, s.wal.phase = .captured snap → snap.vacuumFloor ≤ st.vacuumFloor := by
  have live := known.live st up avail snapshot (storedNow serving)
  unfold LiveOk at live
  rwa [recovered] at live

/-- What the sessions promise of a record, from what is known. -/
theorem admitted (recovered : s.recovered = true) (avail : st.poisoned = none)
    (runs : ∀ id ∈ writers record ++ committedBy record,
      id ∈ s.registry.active ∧ id ∉ s.settled) : Admitted s.registry.active s.wal.log record ∧
      ∀ id ∈ writers record ++ committedBy record, FIRST_NORMAL_XID ≤ id := by
  obtain ⟨⟨past, later, -, -, tracks⟩, -⟩ := known.tracking up serving recovered avail
  refine ⟨fun id h => ?_, fun id h => ?_⟩
  · obtain ⟨active, open_⟩ := runs id h
    exact ⟨active, fun fixed => open_ ((known.sessions id active).2 fixed)⟩
  · exact tracks.normal.trans (tracks.fresh id (.inr (.inl (runs id h).1)))

/-- The record is in the log. -/
theorem appended (recovered : s.recovered = true) (avail : st.poisoned = none)
    {kept : WalRecord χ} {frame : Bytes} {a : Nat} {first : Option Nat} {d' : Disk}
    (runs : ∀ id ∈ writers record ++ committedBy record, id ∈ s.registry.active ∧ id ∉ s.settled)
    (fenced : ∀ active boundary, s.reading = .captured active boundary →
      ∀ id ∈ Wal.carried strict record, id < boundary)
    (same : kept = { record with lsn := kept.lsn })
    (live' : Live params ⟨d', { st with clog := publishStatus record st.clog }.appended kept a first⟩
      snapshot (s.wal.log ++ [⟨kept, frame⟩])) : Known strict params { s with
      wal := { s.wal with
        disk := d'
        live := some ({ st with clog := publishStatus record st.clog }.appended kept a first)
        log := s.wal.log ++ [⟨kept, frame⟩] }
      settled := committedBy record ++ s.settled } := by
  obtain ⟨⟨past, later, split, pos, tracks⟩, vacuum⟩ := known.tracking up serving recovered avail
  obtain ⟨adm, norm⟩ := known.admitted up serving recovered avail runs
  have writers_eq : writers kept = writers record := by rw [same]; rfl
  have commits_eq : committedBy kept = committedBy record := by rw [same]; rfl
  have kind_eq : kept.kind = record.kind := by rw [same]
  have writing (id : TxnId) (h : id ∈ writers kept) : id ∈ s.registry.active :=
    (runs id (mem_append_left _ (writers_eq ▸ h))).1
  have carrying (id : TxnId) (h : id ∈ Wal.carried strict kept) : id ∈ s.registry.active := by
    unfold Wal.carried at h
    rw [writers_eq, commits_eq] at h
    refine (runs id ?_).1
    rcases mem_append.mp h with h | h
    · exact mem_append_right _ h
    split at h
    · exact mem_append_left _ h
    · cases h
  have tracks' := tracks.append (split ▸ adm) ⟨kept, frame⟩ ⟨writers_eq, commits_eq⟩
  have tracking' : Tracking ({ st with clog := publishStatus record st.clog }.appended kept a first)
      (s.wal.log ++ [⟨kept, frame⟩]) s.registry.active s.registry.nextTxnId :=
    ⟨past, later ++ [(⟨kept, frame⟩ : Logged χ)], by rw [split, append_assoc], pos, tracks'⟩
  refine
    { ordered := known.ordered.append fun id h => ?_
      stored := fun found here => ?_
      captured := fun snap h => (known.captured snap h).append writing
      sessions := fun id h => ⟨(known.sessions id h).1, fun fixed => ?_⟩
      carried := fun _ id h => ?_
      down := fun down => by cases down
      starting := fun fresh => absurd (recovered.symm.trans fresh) (by decide)
      reading := ?_
      guarded := fun st' up' _ => ?_
      live := fun st' up' _ found here => ?_ }
  · rw [writers_eq, commits_eq] at h
    exact ⟨norm id h, (adm id h).2⟩
  · obtain rfl := ok.inj (live'.stored.symm.trans here)
    exact (known.stored _ (storedNow serving)).append writing
  · rw [committedIn_append, committedIn_singleton, commits_eq] at fixed
    rcases fixed with fixed | fixed
    · exact mem_append_right _ ((known.sessions id h).2 fixed)
    · exact mem_append_left _ fixed
  · rcases carriedIn_append.mp h with h | ⟨entry, mem, h⟩
    · exact known.carried recovered id h
    · rw [mem_singleton.mp mem] at h
      exact (known.sessions id (carrying id h)).1
  · have same_floor := (publishStatus_committed record st.clog).1
    have floor {boundary : TxnId} (le : st.clog.committedFloor ≤ boundary) (st' : WalState)
        (up' : some ({ st with clog := publishStatus record st.clog }.appended kept a first) =
          some st') : st'.clog.committedFloor ≤ boundary := by
      rw [← some.inj up']
      exact same_floor.le.trans le
    refine known.reading.imp rfl (fun active boundary cap reading => ?_)
      fun active boundary prior after reads => ?_
    · refine ⟨(append_nil _).symm, recovered, reading.phase, reading.normal, reading.allocated,
        reading.who, reading.older, fun id h => ?_, floor (reading.floor st up)⟩
      rcases carriedIn_append.mp h with h | ⟨entry, mem, h⟩
      · exact reading.carried id h
      · rw [mem_singleton.mp mem, Wal.carried, kind_eq, writers_eq, commits_eq] at h
        exact fenced active boundary cap id h
    refine ⟨after ++ [⟨kept, frame⟩], by simp [reads.log], recovered, reads.phase, reads.normal,
      reads.allocated, fun id h => reads.who id ?_, reads.older, reads.carried,
      floor (reads.floor st up)⟩
    rw [wroteIn_append, wroteIn_singleton] at h
    rcases h with (wrote | writer) | active
    · exact .inl wrote
    · exact .inr (writing id writer)
    · exact .inr active
  · cases up'
    exact tracking'.guarded rfl (live'.running (.refl live'.sized)) rfl fun _ h => h
  · cases up'
    obtain rfl := ok.inj (live'.stored.symm.trans here)
    exact .of_recovered recovered ⟨tracking', vacuum⟩

/-- A section that failed and changed nothing but the phase. -/
theorem gaveUp (recovered : s.recovered = true) {phase : Phase}
    (idle : phase = s.wal.phase ∨ phase = .idle) :
    Known strict params { s with wal := (s.wal.up ⟨s.wal.disk, st⟩).inPhase phase } := by
  refine known.of_same_segments up rfl rfl rfl (storedNow serving) (known.fits serving) (fun snap h => ?_)
    (.inr idle) recovered rfl (fun _ h => h) fun avail => ?_
  · rcases idle with rfl | rfl
    · exact known.captured snap h
    · cases h
  obtain ⟨tracking, vacuum, cap⟩ := known.tracking up serving recovered avail
  refine ⟨tracking, vacuum, fun snap h => ?_⟩
  rcases idle with rfl | rfl
  · exact cap snap h
  · cases h

theorem append (admits : Server.ok params s (.wal (.append record faults)))
    (calm : Server.Calm strict s (.wal (.append record faults))) :
    Known strict params (s.after (.append record faults) (s.wal.run st (appendPositioned params record) faults
      (World.logged params record) id)) := by
  obtain ⟨exact_, recovered, fenced, runs⟩ := admits
  refine World.run_of_wp (P := fun w => Known strict params (s.after (.append record faults) w)) ?_
  by_cases avail : st.poisoned = none
  · obtain ⟨live, rfl, rfl⟩ := serving.live avail
    have runs := runs st up avail
    apply wp_appendPositioned exact_ live
    · intro d' a kept frame first enc st' live'
      have same := (encodeRecordAt_ok exact_ enc).2
      have := known.appended up serving recovered avail runs
        (fun active boundary h _ => calm.carried h (fenced active boundary h)) (by rw [same]) live'
      unfold World.logged
      rw [enc]
      simpa [Server.after, World.up] using this
    · intro wal clog pub bad
      obtain ⟨runs', clog_eq, live'⟩ := bad
      obtain ⟨durableEnd, le, kept, anchored⟩ := id runs'
      obtain ⟨tracking, vacuum⟩ := known.tracking up serving recovered avail
      obtain ⟨adm, -⟩ := known.admitted up serving recovered avail runs
      subst clog_eq
      obtain ⟨floor_eq, expl⟩ := published_committed pub
      have after := known.of_same_log (w := s.wal.up wal) up rfl rfl kept.stored
        (known.fits serving) known.captured (.inr ⟨floor_eq, .inl rfl⟩)
        recovered
        (tracking.guarded rfl runs' floor_eq expl) fun avail' => ?_
      · simpa [Server.after, World.up] using after
      obtain ⟨-, -, flushed, statuses⟩ := live' avail'
      obtain ⟨past, later, split, pos, tracks⟩ := tracking
      have tracking' : Tracking { st with clog := wal.state.clog } s.wal.log s.registry.active
          s.registry.nextTxnId := by
        refine ⟨past, later, split, pos, ?_⟩
        rcases pub with same | same
        · exact same ▸ tracks
        · exact same ▸ (tracks.publish (split ▸ adm)).1
      have vacuum_eq : wal.state.vacuumFloor = st.vacuumFloor :=
        congrArg Statuses.vacuumFloor statuses
      rw [vacuum_eq]
      exact ⟨tracking'.congr statuses flushed, vacuum⟩
    · intro _ wal runs'
      obtain ⟨durableEnd, -, kept, -⟩ := runs'
      exact known.stopped serving _ kept.stored
  · refine wp_appendPositioned_poisoned record avail fun clog pub => ?_
    obtain ⟨floor_eq, expl⟩ := published_committed pub
    have after := known.of_same_segments (w := s.wal.up ⟨s.wal.disk, { st with clog }⟩) up rfl rfl
      rfl (storedNow serving) (known.fits serving) known.captured (.inr (.inl rfl)) recovered
      floor_eq expl
      fun avail' => absurd avail' avail
    simpa [Server.after, World.up] using after

theorem flush (recovered : s.recovered = true) :
    Known strict params (s.after (.flush faults) (s.wal.run st (FileWal.flush params) faults
      (fun lsn w => { w with acked := lsn }) id)) := by
  refine World.run_of_wp (P := fun w => Known strict params (s.after (.flush faults) w)) ?_
  by_cases avail : st.poisoned = none
  · obtain ⟨live, rfl, rfl⟩ := serving.live avail
    obtain ⟨tracking, vacuum⟩ := known.tracking up serving recovered avail
    obtain ⟨past, later, split, pos, tracks⟩ := id tracking
    apply wp_flush live
    · intro t live'
      have tracking' : Tracking st.flush s.wal.log s.registry.active s.registry.nextTxnId := by
        refine ⟨past ++ later, [], by rw [split, append_nil], ?_, tracks.flush⟩
        rw [← split]
        exact live'.written.symm
      refine known.of_same_log up rfl rfl live'.stored (known.fits serving) known.captured
        (.inr ⟨Clog.committedFloor_setAll _, .inl rfl⟩)
        recovered
        (tracking'.guarded rfl (live'.running (.refl live'.sized)) rfl fun _ h => h)
        fun _ => ⟨tracking', vacuum⟩
    · intro t st' runs bad clog
      obtain ⟨durableEnd, le, kept, anchored⟩ := id runs
      exact known.of_same_log up rfl rfl kept.stored (known.fits serving)
        known.captured (.inr ⟨congrArg Clog.committedFloor clog, .inl rfl⟩)
        recovered
        (tracking.guarded rfl runs (congrArg Clog.committedFloor clog) fun id h => clog ▸ h)
        fun avail' => absurd avail' bad
    · intro _ t st' runs
      obtain ⟨durableEnd, -, kept, -⟩ := runs
      exact known.stopped serving _ kept.stored
  · refine wp_flush_poisoned avail ?_
    exact known.gaveUp up serving recovered (.inl rfl)

theorem capture {proposed : Nat} {active : List TxnId} {boundary : TxnId}
    (admits : ok params s (.wal (.capture proposed active boundary)))
    (calm : Server.Calm strict s (.wal (.capture proposed active boundary))) :
    Known strict params (s.after (.capture proposed active boundary) (s.wal.run st
      (captureClog proposed active boundary) [] (fun snapshot w => w.inPhase (.captured snapshot))
      (·.inPhase .idle))) := by
  obtain ⟨recovered, at_, endLsn, st', up', placed, le, entry, mem, marker⟩ := admits
  cases up.symm.trans up'
  have read : Known strict params { s with reading := .none } := known.of_reading trivial recovered
  refine World.run_of_wp
    (P := fun w => Known strict params (s.after (.capture proposed active boundary) w)) ?_
  by_cases avail : st.poisoned = none
  · obtain ⟨live, rfl, rfl⟩ := serving.live avail
    obtain ⟨tracking, vacuum, -⟩ := known.tracking up serving recovered avail
    have reading := known.reading
    unfold ReadingOk at reading
    rw [placed] at reading
    obtain ⟨prior, after, ends, reads⟩ := reading
    have fits := tracking.capture live.framed at_ le reads.log ends reads.who reads.carried reads.normal
      reads.allocated (reads.floor st up) ⟨mem, marker⟩ reads.older fun strictly id status found =>
        (calm.explicit strictly up found).imp_right fun carries =>
          ⟨known.carried recovered id (carries.mono (retained_subset _ _)), carries⟩
    apply wp_captureClog live
    · intro _ _
      refine of_same_segments read up rfl rfl rfl (storedNow serving) (known.fits serving) (fun snap h => ?_)
        (.inl rfl) recovered rfl (fun _ h => h) fun _ => ⟨tracking, vacuum, fun snap h => ?_⟩
      · obtain rfl := Phase.captured.inj h
        exact fits
      · obtain rfl := Phase.captured.inj h
        exact le_rfl
    · exact gaveUp read up serving recovered (.inr rfl)
  · apply WP.bind
    apply wp_lockState_poisoned avail
    exact gaveUp read up serving recovered (.inr rfl)

section

variable (recovered : s.recovered = true)

include recovered

theorem writeClog {snap : ClogSnapshot} (phase : s.wal.phase = .captured snap) :
    Known strict params (s.after (.writeClog faults) (s.wal.run st (onDisk (writeClogFile params snap)) faults
      (fun _ w => w.inPhase (.written snap)) (·.inPhase .idle))) := by
  refine World.run_of_wp (P := fun w => Known strict params (s.after (.writeClog faults) w)) ?_
  have ok := serving.phase
  rw [phase] at ok
  have unread := known.reading_none (by simp [phase])
  have fits := known.captured snap phase
  apply wp_walOnDisk
  apply wp_writeClogFile ok.1
  · exact ⟨known.gaveUp up serving recovered (.inr rfl), known.stopped serving _ (storedNow serving)⟩
  intro bytes repl
  have next (phase' : Phase) (other : ∀ snap, phase' ≠ .captured snap) : Known strict params { s with
        wal := (s.wal.up ⟨{ s.wal.disk with clog := some bytes }, st⟩).inPhase phase' } := by
    refine known.of_same_segments up rfl rfl rfl repl fits (fun snap h => absurd h (other snap))
      (.inl unread) recovered rfl (fun _ h => h) fun avail => ?_
    obtain ⟨tracking, -, cap⟩ := known.tracking up serving recovered avail
    exact ⟨tracking, cap snap phase, fun snap h => absurd h (other snap)⟩
  exact ⟨next _ (by simp), next _ (by simp), known.restarted rfl rfl rfl repl fits⟩

theorem adopt {snap : ClogSnapshot} (phase : s.wal.phase = .written snap) :
    Known strict params (s.after .adopt (s.wal.run st (adoptSnapshot snap) []
      (fun _ w => w.inPhase (.ready snap.authorizedReplayFloor)) (·.inPhase .idle))) := by
  refine World.run_of_wp (P := fun w => Known strict params (s.after .adopt w)) ?_
  have unread := known.reading_none (by simp [phase])
  apply WP.bind
  by_cases avail : st.poisoned = none
  · obtain ⟨live, rfl, rfl⟩ := serving.live avail
    have wrote := serving.phase
    rw [phase] at wrote
    obtain rfl := wrote
    obtain ⟨tracking, vacuum, -⟩ := known.tracking up serving recovered avail
    obtain ⟨past, later, split, pos, tracks⟩ := tracking
    obtain ⟨recycled, kept, rest, cut, -, cov, knows, -⟩ := known.stored _ (storedNow serving)
    have le : (stream (recycled ++ kept)).length ≤ (stream past).length := by
      rw [cov, pos]
      exact live.covers.2.2.1
    obtain ⟨mid, rfl, rfl⟩ := Framed.split (cut ▸ live.framed) (cut.symm.trans split) le
    have tracking' : Tracking { st with clog := st.clog.pruneTo snap.committedFloor } s.wal.log
        s.registry.active s.registry.nextTxnId :=
      ⟨recycled ++ kept ++ mid, later, split, pos, tracks.prune knows vacuum⟩
    refine wp_lockState avail ?_
    apply wp_update
    exact known.of_same_log up rfl rfl (storedNow serving) (known.fits serving) (fun snap h => by cases h)
      (.inl unread) recovered
      (tracking'.guarded rfl serving.running rfl fun _ h => h)
      fun _ => ⟨tracking'.congr rfl rfl, vacuum, fun snap h => by cases h⟩
  · apply wp_lockState_poisoned avail
    exact known.gaveUp up serving recovered (.inr rfl)

theorem storeControl :
    Known strict params (s.after .storeControl (s.wal.up ⟨{ s.wal.disk with manifest := true }, st⟩)) :=
  known.of_same_segments up rfl rfl rfl (storedNow serving) (known.fits serving) known.captured
    (.inr (.inl rfl)) recovered rfl (fun _ h => h) (known.tracking up serving recovered)

theorem recycle {lsn : Nat} (phase : s.wal.phase = .ready lsn) :
    Known strict params (s.after (.recycle faults) (s.wal.run st (recycleThrough params lsn) faults
      (fun _ w => w.inPhase .idle) fun w => w.down w.disk)) := by
  refine World.run_of_wp (P := fun w => Known strict params (s.after (.recycle faults) w)) ?_
  have ready := serving.phase
  rw [phase] at ready
  obtain ⟨snap, rfl, at_⟩ := ready
  by_cases avail : st.poisoned = none
  · obtain ⟨live, rfl, rfl⟩ := serving.live avail
    obtain ⟨tracking, vacuum, cap⟩ := known.tracking up serving recovered avail
    apply wp_recycleThrough live at_
    · intro t a live'
      have tracking' : Tracking { st with activeNumber := a, replayFloor := lsn } s.wal.log
        s.registry.active s.registry.nextTxnId := tracking.congr rfl rfl
      exact known.of_same_log up rfl rfl live'.stored (known.fits serving) (fun snap h => by cases h)
        (.inr ⟨rfl, .inr rfl⟩)
        recovered
        (tracking'.guarded rfl (live'.running (.refl live'.sized)) rfl fun _ h => h)
        fun _ => ⟨tracking', vacuum, fun snap h => by cases h⟩
    · exact fun t st' opens => known.stopped serving _ opens.stored
    · exact fun _ t st' opens => known.stopped serving _ opens.stored
  · apply WP.bind
    apply wp_lockState_poisoned avail
    exact known.stopped serving _ (storedNow serving)

theorem setVacuumFloor (boundary : TxnId) :
    Known strict params (s.after (.setVacuumFloor boundary) (s.wal.run st (FileWal.setVacuumFloor boundary) []
      (fun _ w => w) id)) := by
  refine World.run_of_wp (P := fun w => Known strict params (s.after (.setVacuumFloor boundary) w)) ?_
  apply WP.bind
  by_cases avail : st.poisoned = none
  · obtain ⟨live, rfl, rfl⟩ := serving.live avail
    obtain ⟨⟨past, later, split, pos, tracks⟩, vacuum, cap⟩ :=
      known.tracking up serving recovered avail
    have raised : st.vacuumFloor ≤ max st.vacuumFloor boundary := le_max_left _ _
    have tracking' : Tracking { st with vacuumFloor := max st.vacuumFloor boundary } s.wal.log
        s.registry.active s.registry.nextTxnId :=
      ⟨past, later, split, pos, tracks.toKnows.mono raised tracks.fresh, tracks.pending,
        tracks.unflushed⟩
    refine wp_lockState avail ?_
    apply wp_update
    exact known.of_same_log up rfl rfl (storedNow serving) (known.fits serving) known.captured
      (.inr ⟨rfl, .inl rfl⟩) recovered
      (tracking'.guarded rfl serving.running rfl fun _ h => h)
      fun _ => ⟨tracking', vacuum.trans raised, fun snap h => (cap snap h).trans raised⟩
  · apply wp_lockState_poisoned avail
    exact known.gaveUp up serving recovered (.inl rfl)

end

end Steps

end Known

/-! ### Restart -/

theorem Opens.framed {params : Params χ} {d : Disk} {snapshot : Option ClogSnapshot}
    {log : List (Logged χ)} {acked : Nat} (opens : Opens params d snapshot log acked) :
    Framed params.serde 0 log := by
  rcases opens with ⟨-, -, framed, -⟩ | ⟨found, kept, -⟩
  · exact framed
  · exact kept.framed

/-- An opening finds a part of the log from its beginning. -/
theorem retained_append (log : List (Logged χ)) (endPos : Nat) :
    ∃ lost, log = retained log endPos ++ lost := ⟨_, takeWhile_append_dropWhile.symm⟩

section Restart

variable {params : Params χ} {d : Disk} {st : WalState} {snapshot : Option ClogSnapshot}
  {log : List (Logged χ)} {active : List TxnId} {next boundary : TxnId}

/-- The log that an opening finds, with the snapshot file: it fits. -/
theorem Fits.retained (fits : Fits strict log active next snapshot) (framed : Framed params.serde 0 log)
    (live : Live params ⟨d, st⟩ snapshot (retained log st.flushedLsn)) :
    Fits strict (retained log st.flushedLsn) active next snapshot := by
  obtain ⟨lost, split⟩ := retained_append log st.flushedLsn
  obtain ⟨-, -, le, -⟩ := live.covers.seed
  have reached : st.flushedLsn ≤ (stream (Wal.retained log st.flushedLsn)).length :=
    live.durableEnd.le
  have fits' : Fits strict (Wal.retained log st.flushedLsn ++ lost) active next snapshot := by
    rw [← split]
    exact fits
  have framed' : Framed params.serde 0 (Wal.retained log st.flushedLsn ++ lost) := by
    rw [← split]
    exact framed
  exact fits'.lose framed' (le.trans reached)

/-- The next id that recovery reads off the retained records. -/
theorem Live.reserve (live : Live params ⟨d, st⟩ snapshot log) (fits : Fits strict log active next snapshot)
    {ents : List (WalEntry χ)} (redone : replayEntriesFrom params d st 0 = .ok ents)
    (next_eq : nextTxnId (ents.map WalEntry.record) = .ok boundary) :
    Fits strict log [] boundary snapshot ∧ ∀ id, CarriedIn strict log id → id < boundary := by
  obtain ⟨prior, rest, split, floor⟩ := live.floor
  obtain rfl := ok.inj ((live.replay split floor).symm.trans redone)
  rw [records_entriesFrom] at next_eq
  have cov : (stream prior).length ≤ authorizedOf snapshot := by
    rw [floor]
    cases snapshot with
    | none => exact live.covers.le
    | some snap => exact live.covers.1
  exact fits.reserve live.framed split cov next_eq

/-- **Recovery** on a manager that was just opened gives the right statuses. -/
theorem wp_recoverStatuses {F : Prop} {C E : FileWal → Prop} {Q : Unit → FileWal → Prop}
    (live : Live params ⟨d, st⟩ snapshot log) (opened : Opened st snapshot log) (ord : Ordered log)
    (fits : Fits strict log [] boundary snapshot)
    (done : ∀ clog, Knows clog st.vacuumFloor log [] [] boundary →
      Tracking { st with clog } log [] boundary → Q () ⟨d, { st with clog }⟩)
    (hurt : F → E ⟨d, st⟩ ∧ C ⟨d, st⟩) :
    WP F C (World.recoverStatuses params boundary) Q E ⟨d, st⟩ := by
  have knows := opened.knows fits live.framed ord
  have flushed : st.flushedLsn = (stream log).length := opened.flushed.trans live.written
  have resolve (clog : Clog) (knows : Knows clog st.vacuumFloor log [] [] boundary) :
      WP F C resolveAllInFlightAsAborted Q E ⟨d, { st with clog }⟩ := by
    apply WP.bind
    refine wp_lockState live.available ?_
    apply wp_update
    exact done _ knows.resolve (knows.tracking flushed opened.pendingCommits)
  apply WP.bind
  apply wp_establishRecoveryCommittedFloor live
  · exact fun _ => resolve st.clog knows
  · intro prior rest split floor notLoaded
    -- no snapshot was loaded, so nothing was recycled
    cases snapshot with
    | some snap => exact absurd (notLoaded.symm.trans opened.clogLoadedFromSnapshot) (by simp [seedOf])
    | none =>
      have zero : st.replayFloor = 0 := live.covers
      have nothing : prior = [] := by
        have := (framed_append.mp (split ▸ live.framed)).1.length_le
        exact length_eq_zero_iff.mp (by omega)
      subst nothing
      obtain rfl : log = rest := split
      exact resolve _ (opened.establish knows ord st.replayFloor)
  · exact hurt

end Restart

namespace Known

variable {params : Params χ} {s s' : Server χ} {st : WalState} {floor flushed : Nat}
  {snapshot : Option ClogSnapshot}

theorem recover (known : Known strict params s) (up : s.wal.live = some st)
    (serving : World.Serving params s.wal st floor flushed snapshot) {boundary : TxnId}
    (admits : ok params s (.wal (.recover boundary faults))) :
    Known strict params (s.after (.recover boundary faults) (s.wal.run st
      (World.recoverStatuses params boundary) faults (fun _ w => w) id)) := by
  obtain ⟨fresh, rfl, st', ents, up', avail, redone, next_eq⟩ := admits
  cases up.symm.trans up'
  obtain ⟨live, rfl, rfl⟩ := serving.live avail
  have opened : Opened st snapshot s.wal.log := by
    have := known.live st up avail snapshot live.stored
    unfold LiveOk at this
    rwa [fresh] at this
  obtain ⟨fits, carried⟩ := live.reserve (known.stored snapshot live.stored) redone next_eq
  have spec : WP False (fun _ => False) (World.recoverStatuses params boundary)
      (fun _ wal => ∃ clog, wal = ⟨s.wal.disk, { st with clog }⟩ ∧
        Tracking { st with clog } s.wal.log [] boundary) (fun _ => False) ⟨s.wal.disk, st⟩ :=
    wp_recoverStatuses live opened known.ordered fits (fun clog _ h => ⟨clog, rfl, h⟩)
      fun may => may.elim
  obtain ⟨_, m, ran, clog, state_eq, tracking⟩ := WP.run_undisturbed spec
  have after : s.wal.run st (World.recoverStatuses params boundary) [] (fun _ w => w) id =
      s.wal.up ⟨s.wal.disk, { st with clog }⟩ := by
    unfold World.run
    rw [ran, ← state_eq]
  rw [after]
  obtain ⟨phase, unread⟩ := known.starting fresh
  exact
    { ordered := known.ordered
      stored := fun found here => by
        obtain rfl := ok.inj (live.stored.symm.trans here)
        exact fits
      captured := fun snap h => absurd (phase.symm.trans h) (by simp)
      sessions := fun id h => by cases h
      carried := fun _ => carried
      down := fun down => by cases down
      starting := fun fresh => by cases fresh
      reading := ReadingOk.of_none unread
      guarded := fun st' up' _ => by
        cases up'
        have runs : Running params s.wal.disk st.replayFloor
          ({ st with clog } : WalState).flushedLsn snapshot s.wal.log := serving.running
        exact tracking.guarded rfl runs rfl fun _ h => h
      live := fun st' up' _ found here => by
        cases up'
        obtain rfl := ok.inj (live.stored.symm.trans here)
        exact ⟨tracking, opened.vacuumFloor.ge, fun snap h => absurd (phase.symm.trans h) (by simp)⟩ }

theorem reopen (known : Known strict params s) (down : s.wal.live = none) {d : Disk}
    (opens : Opens params s.wal.disk snapshot s.wal.log s.wal.acked)
    (crash : Survives params.geometry s.wal.disk d) :
    Known strict params (s.after (.reopen d faults) (s.wal.opened (openWal params ⟨d, faults⟩))) := by
  have fits := known.stored snapshot opens.stored
  have spec : WP True (fun t => storedClog params t = .ok snapshot) (openWal params)
      (fun st t => Known strict params (s.restarted
        ⟨t, some st, .idle, retained s.wal.log st.flushedLsn, s.wal.acked⟩))
      (fun t => storedClog params t = .ok snapshot) d := by
    apply wp_openWal (opens.survives crash)
    · intro t st live _ opened
      obtain ⟨lost, split⟩ := retained_append s.wal.log st.flushedLsn
      have fits' := fits.retained opens.framed live
      exact
        { ordered := Ordered.of_append (split ▸ known.ordered)
          stored := fun found here => by
            obtain rfl := ok.inj (live.stored.symm.trans here)
            exact fits'.sessions (fun id h => .inr (h.resolve_left (not_mem_nil))) le_rfl
          captured := fun snap h => by cases h
          sessions := fun id h => by cases h
          carried := fun h => by cases h
          down := fun _ => rfl
          starting := fun _ => ⟨rfl, rfl⟩
          reading := trivial
          guarded := fun st' up' h => by cases h
          live := fun st' up' _ found here => by
            cases up'
            obtain rfl := ok.inj (live.stored.symm.trans here)
            exact opened }
    · exact fun _ t opens => ⟨opens.stored, opens.stored⟩
  have phase : s.wal.phase = .idle := (known.starting (known.down down)).1
  have bad (t : Disk) (same : storedClog params t = .ok snapshot) :
      Known strict params (s.after (.reopen d faults) { s.wal with disk := t }) := by
    unfold Server.after
    rw [if_pos (by simp [down])]
    exact known.restarted rfl phase down same fits
  rcases spec.run faults with ⟨a, m, ran, post⟩ | ⟨e, m, ran, post⟩ | ⟨m, ran, post⟩ <;> rw [ran]
  · exact post
  · exact bad _ post
  · exact bad _ post

theorem init : Known strict params (Server.init : Server χ) where
  ordered := fun before entry after split => by simp [Server.init, World.init] at split
  stored := fun found present => by
    obtain rfl := ok.inj present
    refine ⟨[], [], [], rfl, rfl, rfl, ⟨le_rfl, ?_, ?_, ?_, ?_, ?_⟩, ?_, le_max_right _ _,
      fun _ id listed => nomatch listed⟩
    · exact fun id _ settled => by simp [CommittedIn] at settled
    · exact fun id wrote => by simp [WroteIn] at wrote
    · exact fun id h => absurd (h.symm.trans (AList.lookup_empty id)) (by simp)
    · exact fun id status h => absurd (h.symm.trans (AList.lookup_empty id)) (by simp)
    · intro id who
      have floor : FIRST_NORMAL_XID ≤ id := by simpa [WroteIn, Server.init, Registry.new] using who
      exact floor
    · exact fun id h => by simp [CarriedIn] at h
  captured := fun snap h => by cases h
  sessions := fun id h => by cases h
  carried := fun h => by cases h
  down := fun _ => rfl
  starting := fun _ => ⟨rfl, rfl⟩
  reading := trivial
  guarded := fun st up => by cases up
  live := fun st up => by cases up

/-- While a process is up, its next id is a normal one. -/
theorem normal (known : Known strict params s) (here : storedClog params s.wal.disk = .ok snapshot) :
    FIRST_NORMAL_XID ≤ s.registry.nextTxnId := by
  obtain ⟨_, _, _, _, _, _, knows, _⟩ := known.stored snapshot here
  exact knows.normal.trans (knows.fresh _ (.inr (.inr le_rfl)))

end Known

namespace Server

variable {params : Params χ} {s s' : Server χ} {event : Event χ} {action : Action χ} {w : World χ}

theorem after_wal : (s.after action w).wal = w := by
  unfold after
  split
  · rfl
  · split <;> rfl

/-- The promises of the sessions include those to the WAL. -/
theorem ok.world (admits : ok params s (.wal action)) : World.ok params s.wal action := by
  cases action with
  | append => exact admits.1
  | capture => exact admits.2.1
  | reopen => exact admits
  | _ => trivial

/-- An action of the WAL keeps the invariant. -/
theorem known_wal (inv : World.Inv params s.wal) (known : Known strict params s)
    (admits : ok params s (.wal action)) (calm : Calm strict s (.wal action))
    (moved : World.step params s.wal action = some w) : Known strict params (s.after action w) := by
  unfold World.step at moved
  unfold World.Inv at inv
  cases up : s.wal.live with
  | none =>
    rw [up] at moved inv
    obtain ⟨snapshot, opens⟩ := inv
    cases action <;> simp only [reduceCtorEq, some.injEq] at moved
    subst moved
    exact known.reopen up opens admits
  | some st =>
    rw [up] at moved inv
    obtain ⟨floor, flushed, snapshot, serving⟩ := inv
    cases action with
    | append record faults => exact some.inj moved ▸ known.append up serving admits calm
    | flush faults => exact some.inj moved ▸ known.flush up serving admits
    | capture proposed active boundary =>
      dsimp only at moved
      split at moved <;> cases moved <;> exact known.capture up serving admits calm
    | writeClog faults =>
      dsimp only at moved
      split at moved <;> cases moved
      exact known.writeClog up serving admits ‹_›
    | adopt =>
      dsimp only at moved
      split at moved <;> cases moved
      exact known.adopt up serving admits ‹_›
    | storeControl =>
      dsimp only at moved
      split at moved <;> cases moved
      exact known.storeControl up serving admits
    | recycle faults =>
      dsimp only at moved
      split at moved <;> cases moved
      exact known.recycle up serving admits ‹_›
    | setVacuumFloor boundary =>
      exact some.inj moved ▸ known.setVacuumFloor up serving admits boundary
    | recover boundary faults => exact some.inj moved ▸ known.recover up serving admits
    | kill => exact some.inj moved ▸ known.stopped serving _ (Known.storedNow serving)
    | reopen disk faults => cases moved

/-- **The step lemma.** -/
theorem inv_step (inv : World.Inv params s.wal ∧ Known strict params s) (admits : ok params s event)
    (calm : Calm strict s event) (moved : step params s event = some s') :
    World.Inv params s'.wal ∧ Known strict params s' := by
  obtain ⟨wal, known⟩ := inv
  cases event with
  | wal action =>
    obtain ⟨w, taken, rfl⟩ := map_eq_some_iff.mp moved
    exact ⟨after_wal ▸ World.inv_step wal admits.world taken, known_wal wal known admits calm taken⟩
  | register =>
    obtain ⟨recovered, after⟩ := ite_none_right_eq_some.mp moved
    cases after
    exact ⟨wal, known.register recovered rfl rfl⟩
  | registerSubxid top =>
    obtain ⟨recovered, after⟩ := ite_none_right_eq_some.mp moved
    cases after
    exact ⟨wal, known.register recovered rfl rfl⟩
  | deregister ids =>
    cases moved
    exact ⟨wal, known.deregister ids⟩
  | captureActive =>
    obtain ⟨snapshot, opens⟩ := wal.opens
    have next := known.normal opens.stored
    have taken (phase : s.wal.phase = .idle ∨ ∃ floor, s.wal.phase = .ready floor)
        (moved : (if s.recovered then
            some { s with reading := .captured s.registry.active s.registry.nextTxnId }
          else none) = some s') : World.Inv params s'.wal ∧ Known strict params s' := by
      obtain ⟨recovered, after⟩ := ite_none_right_eq_some.mp moved
      cases after
      exact ⟨wal, known.captureActive recovered phase next⟩
    simp only [step] at moved
    split at moved
    · exact taken (.inl ‹_›) moved
    · exact taken (.inr ⟨_, ‹_›⟩) moved
    · cases moved
  | readEnd =>
    simp only [step] at moved
    split at moved
    · rename_i active boundary st cap up
      obtain ⟨avail, after⟩ := ite_none_right_eq_some.mp moved
      cases after
      refine ⟨wal, known.readEnd cap ?_⟩
      unfold World.Inv at wal
      rw [up] at wal
      obtain ⟨floor, flushed, snapshot, serving⟩ := wal
      exact (serving.live avail).1.written.symm
    · cases moved

theorem inv_init : World.Inv params (init : Server χ).wal ∧ Known strict params (init : Server χ) :=
  ⟨World.inv_init, Known.init⟩

/-- **The run lemma.** -/
theorem inv_run {events : List (Event χ)}
    (run : Run (step params) (fun s event => ok params s event ∧ Calm strict s event) init events s) :
    World.Inv params s.wal ∧ Known strict params s :=
  run.invariant (fun _ _ _ inv admits moved => inv_step inv admits.1 admits.2 moved) inv_init

theorem inv_quiet {events : List (Event χ)}
    (run : Run (step params) (fun s event => ok params s event ∧ Quiet s event) init events s) :
    World.Inv params s.wal ∧ Known false params s := inv_run run

theorem inv_still {events : List (Event χ)}
    (run : Run (step params) (fun s event => ok params s event ∧ Still s event) init events s) :
    World.Inv params s.wal ∧ Known true params s := inv_run run

end Server

/-! ### Runs that can be executed -/

/-- Equality of directories, compared by their lists of segments. -/
def Disk.same (d e : Disk) : Bool :=
  d.walDir == e.walDir && decide (d.walMeta = e.walMeta) && decide (d.segments.entries = e.segments.entries) &&
    d.unlinked == e.unlinked && decide (d.clog = e.clog) && d.manifest == e.manifest

theorem Disk.eq_of_same {d e : Disk} (same : d.same e = true) : d = e := by
  simp only [Disk.same, Bool.and_eq_true, beq_iff_eq, decide_eq_true_eq] at same
  obtain ⟨⟨⟨⟨⟨walDir, walMeta⟩, segments⟩, unlinked⟩, clog⟩, man⟩ := same
  cases d
  cases e
  simp_all [AList.ext_iff]

namespace Server

/-- `ok` as far as it can be evaluated, for restarts on what was synced. -/
def check (params : Params χ) (s : Server χ) : Event χ → Bool
  | .wal (.append record _) => (match record.kind with
      | .catalogChange _ => false
      | _ => true) && s.recovered &&
      (match s.reading with
      | .captured .. => !record.kind.isRedoOperation
      | _ => true) &&
      (writers record ++ committedBy record).all fun id =>
        s.registry.active.contains id && !s.settled.contains id
  | .wal (.capture proposed active boundary) => s.recovered &&
      ((range (s.wal.log.length + 1)).any fun n => (stream (s.wal.log.take n)).length == proposed) &&
      match s.wal.live, s.reading with
      | some st, .placed active' boundary' endLsn =>
        active' == active && boundary' == boundary && decide (proposed ≤ endLsn) &&
          s.wal.log.any fun entry => entry.record.txnId.toNat == boundary - 1 &&
            (match entry.record.kind with
            | .checkpoint .. => true
            | _ => false) &&
            decide (endLsn < entry.record.lsn) && decide (entry.record.lsn ≤ st.flushedLsn)
      | _, _ => false
  | .wal (.recover boundary faults) => !s.recovered && faults.isEmpty &&
      match s.wal.live with
      | some st => st.poisoned.isNone &&
          match replayEntriesFrom params s.wal.disk st 0 with
          | .ok entries =>
            match nextTxnId (entries.map WalEntry.record) with
            | .ok next => next == boundary
            | .error _ => false
          | .error _ => false
      | none => false
  | .wal (.reopen disk _) => disk.same s.wal.disk.crop &&
      s.wal.disk.segments.entries.all fun e => decide (e.2.synced ≤ e.2.payload.length) &&
        decide (e.2.payload.length ≤ params.geometry.payloadBytes)
  | .wal .kill => true
  | .wal _ => s.recovered
  | _ => true

/-- `Quiet`, evaluated. -/
def quiet (s : Server χ) : Event χ → Bool
  | .wal (.append record _) =>
    match s.reading with
    | .captured _ boundary => (committedBy record).all fun id => decide (id < boundary)
    | _ => true
  | _ => true

/-- `Still`, evaluated. -/
def still (s : Server χ) : Event χ → Bool
  | .wal (.append record _) =>
    match s.reading with
    | .captured _ boundary =>
      (writers record ++ committedBy record).all fun id => decide (id < boundary)
    | _ => true
  | .wal (.capture _ _ boundary) =>
    match s.wal.live with
    | some st => st.clog.statuses.entries.all fun explicit => decide (explicit.1 < boundary) ||
        (retained s.wal.log st.flushedLsn).any fun entry =>
          (writers entry.record ++ committedBy entry.record).contains explicit.1
    | none => true
  | _ => true

/-- A restart after a crash that leaves only what was synced. -/
def cropped (s : Server χ) : Event χ := .wal (.reopen s.wal.disk.crop [])

theorem ok_of_check {params : Params χ} {s : Server χ} {event : Event χ}
    (checked : check params s event = true) : ok params s event := by
  cases event with
  | wal action =>
    cases action with
    | append record faults =>
      simp only [check, Bool.and_eq_true, List.all_eq_true, Bool.not_eq_true',
        contains_eq_mem, decide_eq_false_iff_not, decide_eq_true_eq] at checked
      obtain ⟨⟨⟨other, recovered⟩, fence⟩, named⟩ := checked
      refine ⟨Serde.exact_of_ne fun changeSet is => ?_, recovered, fun active boundary reads => ?_,
        fun st _ _ id mem => named id mem⟩
      · rw [is] at other
        cases other
      rw [reads] at fence
      simpa using fence
    | capture proposed active boundary =>
      simp only [check, Bool.and_eq_true, List.any_eq_true, beq_iff_eq] at checked
      obtain ⟨⟨recovered, n, -, length⟩, placed⟩ := checked
      refine ⟨recovered, ⟨_, _, (take_append_drop n _).symm, length⟩, ?_⟩
      split at placed
      · rename_i st active' boundary' endLsn up reads
        simp only [Bool.and_eq_true, beq_iff_eq, decide_eq_true_eq, List.any_eq_true] at placed
        obtain ⟨⟨⟨rfl, rfl⟩, le⟩, entry, logged, ⟨⟨id, kind⟩, gt⟩, flushed⟩ := placed
        refine ⟨endLsn, st, up, reads, le, entry, logged, id, ?_, gt, flushed⟩
        split at kind
        · exact ⟨_, _, _, by assumption⟩
        · cases kind
      · cases placed
    | recover boundary faults =>
      simp only [check, Bool.and_eq_true, Bool.not_eq_true', List.isEmpty_iff] at checked
      obtain ⟨⟨starting, rfl⟩, known⟩ := checked
      refine ⟨starting, rfl, ?_⟩
      split at known
      · rename_i st up
        simp only [Bool.and_eq_true, isNone_iff_eq_none] at known
        obtain ⟨healthy, known⟩ := known
        split at known
        · rename_i ents redone
          split at known
          · rename_i next next_eq
            exact ⟨st, ents, up, healthy, redone, next_eq.trans (by rw [beq_iff_eq.mp known])⟩
          · cases known
        · cases known
      · cases known
    | reopen disk faults =>
      simp only [check, Bool.and_eq_true, decide_eq_true_eq, List.all_eq_true] at checked
      obtain ⟨same, sized⟩ := checked
      obtain rfl := Disk.eq_of_same same
      exact survives_crop fun n seg found => sized _ (AList.mem_lookup_iff.mp found)
    | kill => trivial
    | _ => exact checked
  | _ => trivial

theorem quiet_of_check {s : Server χ} {event : Event χ} (ok : quiet s event = true) :
    Quiet s event := by
  cases event with
  | wal action =>
    cases action with
    | append record faults =>
      intro active boundary reads
      simp only [quiet, reads, List.all_eq_true, decide_eq_true_eq] at ok
      exact ok
    | _ => trivial
  | _ => trivial

theorem still_of_check {s : Server χ} {event : Event χ} (ok : still s event = true) :
    Still s event := by
  cases event with
  | wal action =>
    cases action with
    | append record faults =>
      intro active boundary reads
      simp only [still, reads, List.all_eq_true, decide_eq_true_eq] at ok
      exact ok
    | capture proposed active boundary =>
      intro st up id status found
      simp only [still, up, List.all_eq_true, Bool.or_eq_true, decide_eq_true_eq, List.any_eq_true,
        contains_eq_mem] at ok
      exact ok ⟨id, status⟩ (AList.mem_lookup_iff.mp found)
    | _ => trivial
  | _ => trivial

/-- A script that was played to a state of which an evaluation holds. -/
theorem run_of_play (params : Params χ) {s : Server χ} (script : List (Server χ → Event χ))
    {P : Server χ → Prop} [DecidablePred P]
    (done : (play (step params) (check params) s script).any (fun s' => decide (P s')) = true) :
    ∃ events s', Run (step params) (ok params) s events s' ∧ P s' := by
  obtain ⟨s', played, holds⟩ := (Option.any_eq_true ..).mp done
  obtain ⟨events, run⟩ := Run.of_play played
  exact ⟨events, s', run.mono fun _ _ checked => ok_of_check checked, of_decide_eq_true holds⟩

/-- The same with a further guard on the steps. -/
theorem run_of_play_guarded (params : Params χ) {s : Server χ} (script : List (Server χ → Event χ))
    (guard : Server χ → Event χ → Bool) {G : Server χ → Event χ → Prop}
    (sound : ∀ {s event}, guard s event = true → G s event) {P : Server χ → Prop} [DecidablePred P]
    (done : (play (step params) (fun s event => check params s event && guard s event) s script).any
      (fun s' => decide (P s')) = true) :
    ∃ events s', Run (step params) (fun s event => ok params s event ∧ G s event) s events s' ∧
      P s' := by
  obtain ⟨s', played, holds⟩ := (Option.any_eq_true ..).mp done
  obtain ⟨events, run⟩ := Run.of_play played
  refine ⟨events, s', run.mono fun _ _ checked => ?_, of_decide_eq_true holds⟩
  obtain ⟨adm, calm⟩ := Bool.and_eq_true_iff.mp checked
  exact ⟨ok_of_check adm, sound calm⟩

end Server

/-- A restart with the next id `boundary`. -/
def restartScript (boundary : TxnId) : List (Server Empty → Event Empty) :=
  [fun _ => .wal .kill, cropped, fun _ => .wal (.recover boundary [])]

/-- Transaction 4 commits and is flushed; of 3 there is a record that is not. -/
def writerScript : List (Server Empty → Event Empty) :=
  [cropped, fun _ => .wal (.recover 3 []), fun _ => .register, fun _ => .register,
    fun _ => .wal (.append ⟨0, 4, .commit⟩ []), fun _ => .wal (.flush []),
    fun _ => .wal (.append ⟨0, 3, .heapInit 0 0⟩ [])]

/-- Transaction 4 commits, and a checkpoint recycles its commit record. Transaction 3 runs all the
while and writes after the checkpoint. -/
def checkpointScript : List (Server Empty → Event Empty) :=
  [cropped, fun _ => .wal (.recover 3 []), fun _ => .register, fun _ => .register,
    fun _ => .wal (.append ⟨0, 4, .commit⟩ []), fun _ => .wal (.flush []), fun _ => .deregister [4],
    fun _ => .captureActive, fun _ => .readEnd,
    fun _ => .wal (.append ⟨0, 4, .checkpoint 33 33 33⟩ []), fun _ => .wal (.flush []),
    fun _ => .wal (.capture 33 [3] 5), fun _ => .wal (.writeClog []), fun _ => .wal .adopt,
    fun _ => .wal .storeControl, fun _ => .wal (.recycle []),
    fun _ => .wal (.append ⟨0, 3, .heapInit 0 0⟩ []), fun _ => .wal (.flush [])]

/-- Transaction 3 starts and commits between the two readings of a checkpoint, which then
recycles its commit record. After a restart the id 3 is given out again. -/
def reissueScript : List (Server Empty → Event Empty) :=
  [cropped, fun _ => .wal (.recover 3 []), fun _ => .captureActive, fun _ => .register,
    fun _ => .wal (.append ⟨0, 3, .commit⟩ []), fun _ => .readEnd,
    fun _ => .wal (.append ⟨0, 2, .checkpoint 33 33 33⟩ []), fun _ => .wal (.flush []),
    fun _ => .deregister [3], fun _ => .wal (.capture 33 [] 3), fun _ => .wal (.writeClog []),
    fun _ => .wal .adopt, fun _ => .wal .storeControl, fun _ => .wal (.recycle [])] ++
  restartScript 3 ++ [fun _ => .register]

/-- What a restart on the synced part of the directory finds, if there is a next id: the vacuum
floor, the replay floor and the records that survived. -/
def Server.findings (params : Params χ) (s : Server χ) :
    Option (TxnId × Nat × List (WalRecord χ)) :=
  match openWal params ⟨s.wal.disk.crop, []⟩ with
  | (.ok st, m) =>
    match replayEntriesFrom params m.state st 0 with
    | .ok entries =>
      match nextTxnId (entries.map WalEntry.record) with
      | .ok _ => some (st.vacuumFloor, st.replayFloor,
          (retained s.wal.log st.flushedLsn).map Logged.record)
      | .error _ => none
    | .error _ => none
  | _ => none

/-- What the manager of a running server reads for an id. -/
def Server.statusOf (s : Server χ) (id : TxnId) : Option TxnStatus :=
  s.wal.live.map fun st => st.clog.status id

/-! ### After a crash -/

section Crash

variable {params : Params χ} {s : Server χ} {d : Disk}

/-- What is left of the process and of its log when a crash was survived and recovery is
through. -/
theorem Known.comesBack (inv : World.Inv params s.wal) (known : Known strict params s)
    (crash : Survives params.geometry s.wal.disk d) :
    ∃ snapshot st m entries, storedClog params d = .ok snapshot ∧
      openWal params ⟨d, []⟩ = (.ok st, m) ∧ s.wal.acked ≤ st.flushedLsn ∧
      st.vacuumFloor = (seedOf snapshot).vacuumFloor ∧
      replayEntriesFrom params m.state st 0 = .ok entries ∧
      ∀ boundary, nextTxnId (entries.map WalEntry.record) = .ok boundary →
        ∃ clog m', World.recoverStatuses params boundary ⟨⟨m.state, st⟩, []⟩ = (.ok (), m') ∧
          m'.state.state.clog = clog ∧
          Knows clog st.vacuumFloor (retained s.wal.log st.flushedLsn) [] [] boundary := by
  obtain ⟨snapshot, opens⟩ := inv.opens
  have survived := opens.survives crash
  have spec : WP False (fun _ => False) (openWal params) (fun st t =>
      Live params ⟨t, st⟩ snapshot (retained s.wal.log st.flushedLsn) ∧ s.wal.acked ≤ st.flushedLsn ∧
        Opened st snapshot (retained s.wal.log st.flushedLsn)) (fun _ => False) d :=
    wp_openWal survived (fun t st live le opened => ⟨live, le, opened⟩) fun may => may.elim
  obtain ⟨st, m, opens', live, le, opened⟩ := WP.run_undisturbed spec
  obtain ⟨prior, rest, split, floor⟩ := live.floor
  have redone := live.replay split floor
  refine ⟨snapshot, st, m, _, survived.stored, opens', le, opened.vacuumFloor, redone, ?_⟩
  intro boundary next_eq
  obtain ⟨lost, cut⟩ := retained_append s.wal.log st.flushedLsn
  have fits := (known.stored snapshot opens.stored).retained opens.framed live
  have reserved := (live.reserve fits redone next_eq).1
  have ord : Ordered (retained s.wal.log st.flushedLsn) := Ordered.of_append (cut ▸ known.ordered)
  have recover : WP False (fun _ => False) (World.recoverStatuses params boundary)
      (fun _ wal => ∃ clog, wal = ⟨m.state, { st with clog }⟩ ∧
        Knows clog st.vacuumFloor (retained s.wal.log st.flushedLsn) [] [] boundary)
      (fun _ => False) ⟨m.state, st⟩ :=
    wp_recoverStatuses live opened ord reserved (fun clog h _ => ⟨clog, rfl, h⟩) fun may => may.elim
  obtain ⟨_, m', ran, clog, state, knows⟩ := WP.run_undisturbed recover
  exact ⟨clog, m', ran, by rw [state], knows⟩

theorem Ordered.normal {log : List (Logged χ)} (ord : Ordered log) {id : TxnId}
    (named : WroteIn log id ∨ CommittedIn log id) : FIRST_NORMAL_XID ≤ id := by
  have of (entry : Logged χ) (mem : entry ∈ log)
      (h : id ∈ writers entry.record ++ committedBy entry.record) : FIRST_NORMAL_XID ≤ id := by
    obtain ⟨first, rest, cut⟩ := append_of_mem mem
    exact (ord first entry rest cut id h).1
  rcases named with ⟨entry, mem, h⟩ | ⟨entry, mem, h⟩
  · exact of entry mem (mem_append_left _ h)
  · exact of entry mem (mem_append_right _ h)

/-- **Commits are durable, and only they.** In every quiet run, and whatever a crash
leaves of the directory: it can be opened with all that was flushed, and once recovery
has resolved the in-flight writers, every id that the surviving log has a record of or
commits reads as committed exactly if a commit record of it survived; except that an id
below the persisted vacuum floor may read as committed without one. In particular an id
that was in flight at the crash, at or above that floor, does not. -/
theorem recovered_status_iff_commit_durable (params : Params χ) {events : List (Event χ)}
    (run : Run (Server.step params) (fun s event => Server.ok params s event ∧ Server.Quiet s event)
      Server.init events s) (crash : Survives params.geometry s.wal.disk d) :
    ∃ snapshot st m entries, storedClog params d = .ok snapshot ∧
      openWal params ⟨d, []⟩ = (.ok st, m) ∧ s.wal.acked ≤ st.flushedLsn ∧
      st.vacuumFloor = (seedOf snapshot).vacuumFloor ∧
      replayEntriesFrom params m.state st 0 = .ok entries ∧
      ∀ boundary, nextTxnId (entries.map WalEntry.record) = .ok boundary →
        ∃ m', World.recoverStatuses params boundary ⟨⟨m.state, st⟩, []⟩ = (.ok (), m') ∧
          ∀ id, WroteIn (retained s.wal.log st.flushedLsn) id ∨
              CommittedIn (retained s.wal.log st.flushedLsn) id →
            (CommittedIn (retained s.wal.log st.flushedLsn) id →
              m'.state.state.clog.status id = .committed) ∧
            (st.vacuumFloor ≤ id → m'.state.state.clog.status id = .committed →
              CommittedIn (retained s.wal.log st.flushedLsn) id) ∧
            (st.vacuumFloor ≤ id → id ∈ s.registry.active → id ∉ s.settled →
              m'.state.state.clog.status id ≠ .committed) := by
  obtain ⟨inv, known⟩ := Server.inv_quiet run
  obtain ⟨snapshot, st, m, entries, stored, opened, acked, vacuum, replayed, recovers⟩ :=
    known.comesBack inv crash
  refine ⟨snapshot, st, m, entries, stored, opened, acked, vacuum, replayed, fun boundary next => ?_⟩
  obtain ⟨clog, m', ran, rfl, knows⟩ := recovers boundary next
  obtain ⟨lost, cut⟩ := retained_append s.wal.log st.flushedLsn
  have ordered : Ordered (retained s.wal.log st.flushedLsn) :=
    Ordered.of_append (cut ▸ known.ordered)
  refine ⟨m', ran, fun id named => ?_⟩
  have normal := ordered.normal named
  have honest (passed : st.vacuumFloor ≤ id) (reads : m'.state.state.clog.status id = .committed) :
      CommittedIn (retained s.wal.log st.flushedLsn) id := by
    by_contra open_
    obtain ⟨status, found, other⟩ := knows.written id (named.resolve_right open_) open_ passed
    exact other ((Clog.status_of_lookup normal found).symm.trans reads)
  refine ⟨knows.committed id normal, honest, fun passed active unsettled reads => unsettled ?_⟩
  exact (known.sessions id active).2 ((honest passed reads).mono (retained_subset _ _))

/-- Transaction 4 committed before a checkpoint that recycled its commit record, 3 has a flushed
record and did not commit. -/
theorem recovered_status_iff_commit_durable_writer :
    let params := Params.small ⟨139, 33, 3, 3, [4], [], [3]⟩
    ∃ events s st m boundary m',
      Run (Server.step params) (fun s event => Server.ok params s event ∧ Server.Quiet s event)
        Server.init events s ∧ 3 ∈ s.registry.active ∧
      openWal params ⟨s.wal.disk.crop, []⟩ = (.ok st, m) ∧ st.replayFloor = 33 ∧
      World.recoverStatuses params boundary ⟨⟨m.state, st⟩, []⟩ = (.ok (), m') ∧
      m'.state.state.clog.status 4 = .committed ∧ m'.state.state.clog.status 3 ≠ .committed := by
  intro params
  obtain ⟨events, s, run, running, unsettled, found⟩ := Server.run_of_play_guarded params
    checkpointScript quiet quiet_of_check (s := Server.init)
    (P := fun s => 3 ∈ s.registry.active ∧ 3 ∉ s.settled ∧ s.findings params = some (3, 33,
      [⟨33, 4, .commit⟩, ⟨139, 4, .checkpoint 33 33 33⟩, ⟨172, 3, .heapInit 0 0⟩])) (by decide +kernel)
  obtain ⟨snapshot, opens⟩ := (Server.inv_quiet run).1.opens
  obtain ⟨-, st, m, entries, -, opened, -, -, replayed, recovers⟩ :=
    recovered_status_iff_commit_durable params run (survives_crop opens.sized)
  simp only [Server.findings, opened, replayed] at found
  split at found
  case h_2 => cases found
  rename_i boundary next
  simp only [some.injEq, Prod.mk.injEq] at found
  obtain ⟨floor, recycled, records⟩ := found
  obtain ⟨m', ran, statuses⟩ := recovers boundary next
  have named (record : WalRecord Empty) (mem : record ∈ [⟨33, 4, .commit⟩, ⟨172, 3, .heapInit 0 0⟩]) :
      ∃ entry ∈ retained s.wal.log st.flushedLsn, entry.record = record := by
    refine mem_map.mp (records ▸ ?_)
    revert record
    decide
  obtain ⟨commit, mem, commit_eq⟩ := named ⟨33, 4, .commit⟩ (by decide)
  obtain ⟨change, mem', change_eq⟩ := named ⟨172, 3, .heapInit 0 0⟩ (by decide)
  have committed : CommittedIn (retained s.wal.log st.flushedLsn) 4 := ⟨commit, mem, by rw [commit_eq]; decide⟩
  have wrote : WroteIn (retained s.wal.log st.flushedLsn) 3 := ⟨change, mem', by rw [change_eq]; decide⟩
  exact ⟨events, s, st, m, boundary, m', run, running, opened, recycled, ran,
    (statuses 4 (.inr committed)).1 committed, (statuses 3 (.inl wrote)).2.2 floor.le running unsettled⟩

/-- Without the restriction to records that survived, or to quiet runs, a transaction
that never committed reads as committed after a crash: transaction 3, whose only record is
lost, is covered by the floor that recovery derives; and an in-flight transaction that
was given the id of an earlier one reads that one's status. -/
theorem uncommitted_reads_committed : (∃ params : Params Empty, ∃ events s events' s',
      Run (Server.step params) (fun s event => Server.ok params s event ∧ Server.Quiet s event)
        Server.init events s ∧ WroteIn s.wal.log 3 ∧ ¬CommittedIn s.wal.log 3 ∧
      Run (Server.step params) (fun s event => Server.ok params s event ∧ Server.Quiet s event)
        s events' s' ∧ s'.recovered ∧ s'.statusOf 3 = some .committed ∧
      s'.wal.live.map WalState.vacuumFloor = some 3) ∧
    ∃ params : Params Empty, ∃ events s events' s',
      Run (Server.step params) (Server.ok params) Server.init events s ∧
      3 ∈ s.registry.active ∧ 3 ∉ s.settled ∧ WroteIn (retained s.wal.log s.wal.acked) 3 ∧
      Run (Server.step params) (Server.ok params) s events' s' ∧ s'.recovered ∧
      s'.statusOf 3 = some .committed ∧ s'.wal.live.map WalState.vacuumFloor = some 3 := by
  constructor
  · let params := Params.small ⟨0, 0, 3, 3, [], [], []⟩
    obtain ⟨events, s, run, wrote, uncommitted, restarts⟩ := Server.run_of_play_guarded params
      writerScript quiet quiet_of_check (s := Server.init)
      (P := fun s => (∃ entry ∈ s.wal.log, 3 ∈ writers entry.record) ∧
        (¬∃ entry ∈ s.wal.log, 3 ∈ committedBy entry.record) ∧
        (play (Server.step params) (fun s event => Server.check params s event && Server.quiet s event)
          s (restartScript 5)).any (fun s' => decide (s'.recovered ∧ s'.statusOf 3 = some .committed ∧
            s'.wal.live.map WalState.vacuumFloor = some 3)) = true) (by decide +kernel)
    obtain ⟨events', s', run', reads⟩ := Server.run_of_play_guarded params (restartScript 5)
      quiet quiet_of_check restarts
    exact ⟨params, events, s, events', s', run, wrote, uncommitted, run', reads⟩
  · let params := Params.small ⟨139, 33, 3, 3, [3], [], []⟩
    obtain ⟨events, s, run, running, unsettled, wrote, restarts⟩ := Server.run_of_play params
      (reissueScript ++ [fun _ => .wal (.append ⟨0, 3, .heapInit 0 0⟩ []), fun _ => .wal (.flush [])])
      (s := Server.init)
      (P := fun s => 3 ∈ s.registry.active ∧ 3 ∉ s.settled ∧
        (∃ entry ∈ retained s.wal.log s.wal.acked, 3 ∈ writers entry.record) ∧
        (play (Server.step params) (Server.check params) s (restartScript 4)).any (fun s' =>
          decide (s'.recovered ∧ s'.statusOf 3 = some .committed ∧
            s'.wal.live.map WalState.vacuumFloor = some 3)) = true) (by decide +kernel)
    obtain ⟨events', s', run', reads⟩ := Server.run_of_play params (restartScript 4) restarts
    exact ⟨params, events, s, events', s', run, running, unsettled, wrote, run', reads⟩

/-- **No transaction is born committed.** In every state of every run that keeps still around its
checkpoints, the floor is at most the next id and every running one, an id that runs or comes later
reads as committed only with a durable commit record, and the next id is above every id that a
record ever in the log names, as a change of a page, a commit or an abort, and every id that the
snapshot file lists. -/
theorem no_transaction_born_committed (params : Params χ) {events : List (Event χ)}
    (run : Run (Server.step params) (fun s event => Server.ok params s event ∧ Server.Still s event)
      Server.init events s) {st : WalState} (up : s.wal.live = some st)
    (recovered : s.recovered = true) : st.clog.committedFloor ≤ s.registry.nextTxnId ∧
    (∀ id ∈ s.registry.active, st.clog.committedFloor ≤ id) ∧
    (∀ id, id ∈ s.registry.active ∨ s.registry.nextTxnId ≤ id → st.clog.status id = .committed →
      ∃ found, s.wal.disk.walMeta = some found ∧
        CommittedIn (retained s.wal.log found.durableEnd) id) ∧
    (∀ id, s.registry.nextTxnId ≤ id → st.clog.status id ≠ .committed) ∧
    (∀ entry ∈ s.wal.log, ∀ id ∈ writers entry.record ++ committedBy entry.record,
      id < s.registry.nextTxnId) ∧
    ∀ snap, storedClog params s.wal.disk = .ok (some snap) →
      ∀ id ∈ snap.committed ++ snap.aborted ++ snap.inProgress, id < s.registry.nextTxnId := by
  obtain ⟨inv, known⟩ := Server.inv_still run
  have guarded := known.guarded st up recovered
  have carried := known.carried recovered
  unfold World.Inv at inv
  rw [up] at inv
  obtain ⟨floor, flushed, snapshot, serving⟩ := inv
  obtain ⟨durableEnd, -, stored, -⟩ := serving.running
  obtain ⟨_, _, _, _, _, _, seed, _⟩ := known.stored snapshot stored.stored
  have durable (id : TxnId) (who : id ∈ s.registry.active ∨ s.registry.nextTxnId ≤ id)
      (reads : st.clog.status id = .committed) :
      CommittedIn (retained s.wal.log durableEnd) id := by
    have normal := seed.normal.trans (seed.fresh id (.inr who))
    have above := guarded.floor id who
    cases found : st.clog.statuses.lookup id with
    | none =>
      rw [Clog.status_of_missing normal found, if_neg (not_lt.mpr above)] at reads
      cases reads
    | some status =>
      rw [Clog.status_of_lookup normal found] at reads
      exact guarded.explicit id (reads ▸ found) _ stored.recorded.walMeta
  refine ⟨guarded.floor _ (.inr le_rfl), fun id active => guarded.floor id (.inl active),
    fun id who reads => ⟨_, stored.recorded.walMeta, durable id who reads⟩, fun id unborn reads => ?_,
    fun entry mem id names => ?_, fun snap present id listed => ?_⟩
  · have settled := (durable id (.inr unborn) reads).mono (retained_subset _ _)
    exact absurd (carried id settled.carriedIn) (not_lt.mpr unborn)
  · refine carried id ⟨entry, mem, ?_⟩
    rw [Wal.carried, mem_append]
    exact (mem_append.mp names).symm
  · obtain ⟨_, _, _, _, _, _, _, _, _, lists⟩ := known.stored _ present
    exact (lists rfl id listed).1

/-- After the checkpoint of a run in which 4 has committed and 3 runs, and a restart: the snapshot
lists both, and the next id is above them. -/
theorem no_transaction_born_committed_writer :
    let params := Params.small ⟨139, 33, 3, 3, [4], [], [3]⟩
    ∃ events s st, Run (Server.step params)
        (fun s event => Server.ok params s event ∧ Server.Still s event) Server.init events s ∧
      s.wal.live = some st ∧ s.recovered = true ∧ st.clog.committedFloor ≤ s.registry.nextTxnId ∧
      storedClog params s.wal.disk = .ok (some ⟨139, 33, 3, 3, [4], [], [3]⟩) ∧
      ∀ id ∈ [4, 3], id < s.registry.nextTxnId := by
  intro params
  obtain ⟨events, s, run, recovered, live, lists⟩ := Server.run_of_play_guarded params
    (checkpointScript ++ restartScript 5) still still_of_check (s := Server.init)
    (P := fun s => s.recovered = true ∧ s.wal.live.isSome ∧
      storedClog params s.wal.disk = .ok (some ⟨139, 33, 3, 3, [4], [], [3]⟩)) (by decide +kernel)
  obtain ⟨st, up⟩ := isSome_iff_exists.mp live
  obtain ⟨floor, -, -, -, -, listed⟩ := no_transaction_born_committed params run up recovered
  exact ⟨events, s, st, run, up, recovered, floor, lists, listed _ lists⟩

/-- Without that restriction a transaction is born committed: it is given an
id that a durable commit record carries. -/
theorem reissued_id_born_committed : ∃ params : Params Empty, ∃ events s st,
      Run (Server.step params) (Server.ok params) Server.init events s ∧
      s.wal.live = some st ∧ 3 ∈ s.registry.active ∧ 3 ∉ s.settled ∧
      st.clog.status 3 = .committed ∧ CommittedIn (retained s.wal.log s.wal.acked) 3 := by
  let params := Params.small ⟨139, 33, 3, 3, [3], [], []⟩
  obtain ⟨events, s, run, running, unsettled, reads, committed⟩ := Server.run_of_play params
    reissueScript (s := Server.init)
    (P := fun s => 3 ∈ s.registry.active ∧ 3 ∉ s.settled ∧ s.statusOf 3 = some .committed ∧
      ∃ entry ∈ retained s.wal.log s.wal.acked, 3 ∈ committedBy entry.record) (by decide +kernel)
  obtain ⟨st, up, status⟩ := map_eq_some_iff.mp reads
  exact ⟨params, events, s, st, run, up, running, unsettled, status, committed⟩

end Crash

end Saguaro.Wal
