/-
The invariant of the transactions.

`Ids` is about who is registered, `Life` about the statuses that go with each stage of a
transaction, `Sees` about the snapshots in use, `Tables` about locks and writers. The
facts that the results are read off are these:

* the status of an id that is not registered does not change (`Moves.settled`), and an
  aborted status never changes (`Moves.aborted`);
* everything that is registered is concurrent to every snapshot but its own
  (`Sees.registered`), and not below its `xmin` (`Sees.xmin_active`);
* a family that ends committed is on one side of every snapshot (`Sees.whole`);
* a registered id that has written to a table belongs to a transaction that holds the
  lock of the table (`Tables.locked`).
-/

import Saguaro.Txn.World
import Saguaro.Wal.Knowledge

namespace Saguaro.Txn

open Wal Crash Transition List Option Function World Clog Snapshot Transaction WalRecordKind

variable {χ : Type} {params : Params χ} {w w' : World} {top id : TxnId} {t t' : Transaction}
  {result : Result Unit} {kind : WalRecordKind χ}

/-! ### What the operations do -/

theorem World.inStage_eq_some {stage : Stage} :
    w.inStage top stage = some t ↔ w.txns top = some t ∧ t.stage = stage := by
  simp [inStage, filter_eq_some_iff]

@[simp] theorem mem_family : id ∈ t.family top ↔ id = top ∨ id ∈ t.liveSubxids := mem_cons

/-- The status that a record gives its writer. -/
def writtenStatus : WalRecordKind χ → TxnStatus
  | .abort => .aborted
  | _ => .inProgress

/-- Of the statuses only that of `id` changes. -/
structure Touches (st st' : WalState) (id : TxnId) : Prop where
  floor : st'.clog.committedFloor = st.clog.committedFloor
  others : ∀ other, other ≠ id → st'.clog.statuses.lookup other = st.clog.statuses.lookup other
  poisoned : st'.poisoned = none → st.poisoned = none

theorem Touches.status {st st' : WalState} {other : TxnId} (hit : Touches st st' id)
    (ne : other ≠ id) : st'.clog.status other = st.clog.status other :=
  status_congr (hit.others other ne) hit.floor

theorem publishStatus_eq (norm : id ≠ 0) (bound : id < 2 ^ 64)
    (isTxn : kind.isRedoOperation = true ∨ kind.isSettlement = true) (clog : Clog) :
    FileWal.publishStatus ⟨0, UInt64.ofNat id, kind⟩ clog = clog.set id (writtenStatus kind) := by
  have toNat : (UInt64.ofNat id).toNat = id := by
    rw [UInt64.toNat_ofNat']
    exact Nat.mod_eq_of_lt bound
  have ne : UInt64.ofNat id ≠ 0 := by
    intro zero
    rw [zero] at toNat
    exact norm toNat.symm
  generalize UInt64.ofNat id = xid at *
  cases kind <;>
    simp_all [FileWal.publishStatus, representsTransaction, writtenStatus, Clog.setAborted,
      Clog.setInProgress, isRedoOperation, isSettlement]

/-- **Appending a record** under `id`. -/
theorem World.append_spec {faults : List Fault} (norm : id ≠ 0) (bound : id < 2 ^ 64)
    (isTxn : kind.isRedoOperation = true ∨ kind.isSettlement = true)
    (added : w.append params id kind faults = some (result, w')) :
    ∃ wal, w' = { w with wal } ∧ Touches w.wal.state wal.state id ∧
    match result with
    | .ok () => wal.state.pendingCommits =
          w.wal.state.pendingCommits ++ committedBy ⟨0, UInt64.ofNat id, kind⟩ ∧
        wal.state.clog.statuses.lookup id = some (writtenStatus kind)
    | .error _ => wal.state.pendingCommits = w.wal.state.pendingCommits ∧
        (wal.state.clog.statuses.lookup id = some (writtenStatus kind) ∨ kind.isSettlement = false ∧
            wal.state.clog.statuses.lookup id = w.wal.state.clog.statuses.lookup id) := by
  have pub := publishStatus_eq norm bound isTxn w.wal.state.clog
  unfold append at added
  have ends : WP True (fun _ => True)
      (FileWal.appendPositioned params ⟨0, UInt64.ofNat id, kind⟩) _ _ w.wal :=
    wp_appendPositioned_status _
  rcases ends.run faults with ⟨_, m, ran, done⟩ | ⟨e, m, ran, bad⟩ | ⟨m, ran, -⟩ <;> rw [ran] at added
  · cases added
    have clog := done.clog.trans pub
    refine ⟨_, rfl, ⟨by rw [clog]; rfl, fun other ne => ?_, fun _ => done.available⟩, done.pending, ?_⟩
    · rw [clog, lookup_set, if_neg ne]
    · rw [clog, lookup_set, if_pos rfl]
  · cases added
    have poisoned : m.state.state.poisoned = none → w.wal.state.poisoned = none := fun avail => by
      by_contra poisoned
      exact bad.poisoned poisoned avail
    rcases bad.clog with clog | ⟨unsettled, clog⟩
    · rw [pub] at clog
      refine ⟨_, rfl, ⟨by rw [clog]; rfl, fun other ne => ?_, poisoned⟩, bad.pending, .inl ?_⟩
      · rw [clog, lookup_set, if_neg ne]
      · rw [clog, lookup_set, if_pos rfl]
    · exact ⟨_, rfl, ⟨by rw [clog], fun other _ => by rw [clog], poisoned⟩, bad.pending,
        .inr ⟨unsettled, by rw [clog]⟩⟩
  · cases added

/-- An abort record gives its writer the status, even when it cannot be written. -/
theorem World.appendAbort_spec {faults : List Fault} (norm : FIRST_NORMAL_XID ≤ id)
    (bound : id < 2 ^ 64) (added : w.appendAbort params id faults = some w') :
    ∃ wal, w' = { w with wal } ∧ Touches w.wal.state wal.state id ∧
      wal.state.pendingCommits = w.wal.state.pendingCommits ∧ wal.state.clog.status id = .aborted := by
  have ne : id ≠ 0 := ne_of_gt (lt_of_lt_of_le (by decide) norm)
  unfold appendAbort at added
  cases ran : w.append params id .abort faults with
  | none => simp [ran] at added
  | some result =>
    obtain ⟨out, w₁⟩ := result
    obtain ⟨wal, rfl, hit, rest⟩ := append_spec ne bound (.inr rfl) ran
    rw [ran] at added
    cases out with
    | ok =>
      obtain ⟨due, found⟩ := rest
      exact ⟨wal, (some.inj added).symm, hit, by simpa [committedBy] using due,
        status_of_lookup norm found⟩
    | error e =>
      obtain ⟨due, found⟩ := rest
      have same := (ite_none_left_eq_some.mp added).2
      exact ⟨wal, (some.inj same).symm, hit, due,
        status_of_lookup norm (found.resolve_right fun h => by simp [isSettlement] at h)⟩

/-- **Flushing.** -/
theorem World.flush_spec {faults : List Fault}
    (flushed : w.flush params faults = some (result, w')) : ∃ wal, w' = { w with wal } ∧
    match result with
    | .ok () => FlushDone w.wal.state wal.state
    | .error _ => wal.state.clog = w.wal.state.clog ∧ wal.state.poisoned ≠ none := by
  unfold flush at flushed
  rcases flush_cases params w.wal faults with
    ⟨_, m, ran, done⟩ | ⟨e, m, ran, bad⟩ | ⟨m, ran⟩ <;> rw [ran] at flushed
  · cases flushed
    exact ⟨_, rfl, done⟩
  · cases flushed
    exact ⟨_, rfl, bad⟩
  · cases flushed

/-! ### The invariant -/

/-- Who is registered, and what is known of those who are not yet. -/
structure Ids (active : List TxnId) (next : TxnId) (clog : Clog)
    (txns : TxnId → Option Transaction) : Prop where
  bound : next ≤ 2 ^ 64
  above : ∀ id, id ∈ active ∨ next ≤ id → clog.committedFloor ≤ id ∧ FIRST_NORMAL_XID ≤ id
  fresh : ∀ id, next ≤ id → clog.statuses.lookup id = none
  active_lt : ∀ id ∈ active, id < next
  family : ∀ top t, txns top = some t → ∀ id ∈ t.family top, FIRST_NORMAL_XID ≤ id ∧ id < next
  disjoint : ∀ top t top' t' id, txns top = some t → txns top' = some t' →
    id ∈ t.family top → id ∈ t'.family top' → top = top'

/-- The registrations and statuses of a family in each stage. -/
def Life (active : List TxnId) (st : WalState) (top : TxnId) (t : Transaction) : Prop :=
  match t.stage with
  | .running | .restarting _ => ∀ id ∈ t.family top, id ∈ active ∧ st.clog.status id = .inProgress
  | .rollingBack _ level left => (∀ id ∈ t.family top, id ∈ active) ∧
      (∀ id ∈ t.family top, id < level.subxid → st.clog.status id = .inProgress) ∧
      ∀ id ∈ left, id ∈ t.liveSubxids ∧ level.subxid ≤ id
  | .flushing => ∀ id ∈ t.family top, id ∈ active ∧ st.clog.status id ≠ .aborted ∧
      (st.poisoned = none → id ∈ st.pendingCommits ∨ st.clog.status id = .committed)
  | .committed => ∀ id ∈ t.family top, id ∈ active ∧ st.clog.status id = .committed
  | .abortingSubxids left => (∀ id ∈ t.family top, id ∈ active) ∧
      (∀ id ∈ left, id ∈ t.liveSubxids) ∧
      ∀ id ∈ t.liveSubxids, id ∉ left → st.clog.status id = .aborted
  | .abortingTop => top ∈ active ∧ ∀ id ∈ t.liveSubxids, id ∉ active ∧ st.clog.status id = .aborted
  | .aborted => top ∈ active ∧ st.clog.status top = .aborted ∧
      ∀ id ∈ t.liveSubxids, id ∉ active ∧ st.clog.status id = .aborted
  | .ended => (∀ id ∈ t.family top, id ∉ active) ∧
      ((∀ id ∈ t.family top, st.clog.status id = .committed) ∨
        ∀ id ∈ t.family top, st.clog.status id ≠ .committed)

structure Lives (active : List TxnId) (st : WalState) (txns : TxnId → Option Transaction) : Prop where
  life : ∀ top t, txns top = some t → Life active st top t
  pending : st.poisoned = none → ∀ id ∈ st.pendingCommits,
    ∃ top t, txns top = some t ∧ t.stage = .flushing ∧ id ∈ t.family top

/-- A snapshot in use, captured by `own`. -/
structure Sees (active : List TxnId) (next : TxnId) (clog : Clog)
    (txns : TxnId → Option Transaction) (own : TxnId) (snapshot : Snapshot) : Prop where
  owner : own = INVALID_XID ∨ ∃ t, txns own = some t
  xmax_le : snapshot.xmax ≤ next
  xmin_le : snapshot.xmin ≤ snapshot.xmax
  xip : ∀ id ∈ snapshot.xip, snapshot.xmin ≤ id
  xmin_active : ∀ id ∈ active, snapshot.xmin ≤ id
  registered : ∀ id ∈ active, id ≠ own → snapshot.concurrent id = true
  whole : ∀ top t, txns top = some t → t.stage = .ended → top ≠ own →
    (∀ id ∈ t.family top, clog.status id = .committed) →
      (∀ id ∈ t.family top, snapshot.concurrent id = true) ∨
      ∀ id ∈ t.family top, snapshot.concurrent id = false

/-- The savepoints of a transaction: what was written before a level was established was
written under a lock that the level remembers. -/
structure Levels (stamped : List (TxnId × TableId)) (top : TxnId) (t : Transaction) : Prop where
  newer : ∀ id ∈ t.liveSubxids, top < id
  sorted : t.savepoints.Pairwise (·.subxid < ·.subxid)
  mem : ∀ level ∈ t.savepoints, level.subxid ∈ t.liveSubxids
  held : ∀ level ∈ t.savepoints, ∀ e ∈ stamped, e.1 ∈ t.family top → e.1 < level.subxid →
    e.2 ∈ level.objectLocks
  back : ∀ idx level left, t.stage = .rollingBack idx level left → t.savepoints[idx]? = some level
  again : ∀ level, t.stage = .restarting level → ∀ e ∈ stamped, e.1 ∈ t.family top →
    e.2 ∈ level.objectLocks

structure Tables (active : List TxnId) (next : TxnId) (txns : TxnId → Option Transaction)
    (stamped locks shares : List (TxnId × TableId)) : Prop where
  levels : ∀ top t, txns top = some t → Levels stamped top t
  locked : ∀ e ∈ stamped, e.1 ∈ active →
    ∃ top t, txns top = some t ∧ e.1 ∈ t.family top ∧ (top, e.2) ∈ locks
  stamped_lt : ∀ e ∈ stamped, e.1 < next
  exclusive : ∀ l ∈ locks, ∀ s ∈ shares, l.2 ≠ s.2

/-- **The invariant of every run.** -/
structure Inv (w : World) : Prop where
  ids : Ids w.registry.active w.registry.nextTxnId w.wal.state.clog w.txns
  lives : Lives w.registry.active w.wal.state w.txns
  sees : ∀ e ∈ w.snapshots,
    Sees w.registry.active w.registry.nextTxnId w.wal.state.clog w.txns e.1 e.2
  xmins : w.registry.xmins.Perm (w.snapshots.map fun e => e.2.xmin)
  tables : Tables w.registry.active w.registry.nextTxnId w.txns w.stamped w.locks w.shares

theorem World.Start.inv (start : w.Start) : Inv w where
  ids :=
    { bound := start.bound
      above := fun id h => by
        have above : w.registry.nextTxnId ≤ id := h.resolve_left (by simp [start.active])
        exact ⟨start.floor.trans above, start.normal.trans above⟩
      fresh := start.fresh
      active_lt := by simp [start.active]
      family := fun top t found => by simp [start.txns] at found
      disjoint := fun top t top' t' id found => by simp [start.txns] at found }
  lives :=
    { life := fun top t found => by simp [start.txns] at found
      pending := by simp [start.pending] }
  sees := by simp [start.snapshots]
  xmins := by simp [start.snapshots, start.xmins]
  tables :=
    { levels := fun top t found => by simp [start.txns] at found
      locked := by simp [start.active]
      stamped_lt := start.stamped
      exclusive := by simp [start.locks] }

/-! ### How the parts of the invariant are kept -/

section Parts

variable {active active' : List TxnId} {next next' : TxnId} {clog clog' : Clog} {st st' : WalState}
  {txns txns' : TxnId → Option Transaction} {stamped locks shares : List (TxnId × TableId)}
  {own : TxnId} {snapshot : Snapshot}

theorem of_update {P : TxnId → Transaction → Prop} (new : P top t')
    (old : ∀ top' t₁, top' ≠ top → txns top' = some t₁ → P top' t₁) (top' : TxnId)
    (t₁ : Transaction) (found : update txns top (some t') top' = some t₁) : P top' t₁ := by
  rcases update_eq_some.mp found with ⟨rfl, rfl⟩ | ⟨other, prior⟩
  · exact new
  · exact old top' t₁ other prior

theorem exists_update {top' : TxnId} {t₁ : Transaction} (found : txns top' = some t₁) :
    ∃ t₂, update txns top (some t') top' = some t₂ := by
  by_cases same : top' = top
  · exact ⟨t', update_eq_some.mpr (.inl ⟨same, rfl⟩)⟩
  · exact ⟨t₁, update_eq_some.mpr (.inr ⟨same, found⟩)⟩

/-- What a member of another family relies on, and what it is given in this one. -/
theorem member_update {P Q : TxnId → Transaction → Prop}
    (h : ∃ top' t₁, txns top' = some t₁ ∧ P top' t₁)
    (here : ∀ t, txns top = some t → P top t → Q top t')
    (other : ∀ top' t₁, top' ≠ top → P top' t₁ → Q top' t₁) :
    ∃ top' t₁, update txns top (some t') top' = some t₁ ∧ Q top' t₁ := by
  obtain ⟨top', t₁, found, holds⟩ := h
  by_cases same : top' = top
  · subst same
    exact ⟨top', t', update_eq_some.mpr (.inl ⟨rfl, rfl⟩), here t₁ found holds⟩
  · exact ⟨top', t₁, update_eq_some.mpr (.inr ⟨same, found⟩), other top' t₁ same holds⟩

/-- Families only lose members, and only registered ids leave. -/
theorem Ids.mono (ids : Ids active next clog txns) (sub : active' ⊆ active)
    (families : ∀ top t', txns' top = some t' →
      ∃ t, txns top = some t ∧ t'.family top ⊆ t.family top) : Ids active' next clog txns' where
  bound := ids.bound
  above id h := ids.above id (h.imp_left fun mem => sub mem)
  fresh := ids.fresh
  active_lt id mem := ids.active_lt id (sub mem)
  family top t' found id mem := by
    obtain ⟨t, before, le⟩ := families top t' found
    exact ids.family top t before id (le mem)
  disjoint top t top' t' id found found' mem mem' := by
    obtain ⟨_, before, le⟩ := families _ _ found
    obtain ⟨_, before', le'⟩ := families _ _ found'
    exact ids.disjoint _ _ _ _ id before before' (le mem) (le' mem')

/-- Statuses of ids that were given out may change. -/
theorem Ids.publish (ids : Ids active next clog txns) (floor : clog'.committedFloor = clog.committedFloor)
    (others : ∀ id, next ≤ id → clog'.statuses.lookup id = clog.statuses.lookup id) :
    Ids active next clog' txns := { ids with
    above := fun id h => floor ▸ ids.above id h
    fresh := fun id h => (others id h).trans (ids.fresh id h) }

/-- The next id is given out, to a new transaction or to one that is there. -/
theorem Ids.allocate (ids : Ids active next clog txns) (left : next < 2 ^ 64)
    (family : ∀ id ∈ t'.family top, id = next ∨ ∃ t, txns top = some t ∧ id ∈ t.family top) :
    Ids (next :: active) (next + 1) clog (update txns top (some t')) where
  bound := left
  above id h := by
    refine ids.above id ?_
    rcases h with mem | above
    · rcases mem with _ | ⟨_, mem⟩
      · exact .inr le_rfl
      · exact .inl mem
    · exact .inr (Nat.le_of_succ_le above)
  fresh id above := ids.fresh id (Nat.le_of_succ_le above)
  active_lt id mem := by
    rcases mem with _ | ⟨_, mem⟩
    · exact Nat.lt_succ_self _
    · exact Nat.lt_succ_of_lt (ids.active_lt id mem)
  family top' t'' found id mem := by
    rcases update_eq_some.mp found with ⟨rfl, rfl⟩ | ⟨-, before⟩
    · rcases family id mem with rfl | ⟨t, before, mem⟩
      · exact ⟨(ids.above _ (.inr le_rfl)).2, Nat.lt_succ_self _⟩
      · exact (ids.family _ t before id mem).imp_right Nat.lt_succ_of_lt
    · exact (ids.family _ _ before id mem).imp_right Nat.lt_succ_of_lt
  disjoint top₁ t₁ top₂ t₂ id found₁ found₂ mem₁ mem₂ := by
    have fresh (top : TxnId) (t : Transaction) (before : txns top = some t) : next ∉ t.family top :=
      fun mem => absurd (ids.family top t before next mem).2 (lt_irrefl _)
    rcases update_eq_some.mp found₁ with ⟨rfl, rfl⟩ | ⟨ne₁, before₁⟩ <;>
      rcases update_eq_some.mp found₂ with ⟨rfl, rfl⟩ | ⟨ne₂, before₂⟩
    · rfl
    · rcases family id mem₁ with rfl | ⟨t, before, mem⟩
      · exact absurd mem₂ (fresh _ _ before₂)
      · exact ids.disjoint _ _ _ _ id before before₂ mem mem₂
    · rcases family id mem₂ with rfl | ⟨t, before, mem⟩
      · exact absurd mem₁ (fresh _ _ before₁)
      · exact ids.disjoint _ _ _ _ id before₁ before mem₁ mem
    · exact ids.disjoint _ _ _ _ id before₁ before₂ mem₁ mem₂

/-- A family that a step does not concern. -/
theorem Life.congr (life : Life active st top t)
    (reg : ∀ id ∈ t.family top, id ∈ active' ↔ id ∈ active)
    (stat : ∀ id ∈ t.family top, st'.clog.status id = st.clog.status id)
    (due : st'.poisoned = none → ∀ id ∈ t.family top, id ∈ st.pendingCommits →
      id ∈ st'.pendingCommits)
    (bad : st'.poisoned = none → st.poisoned = none) : Life active' st' top t := by
  have sub (id : TxnId) (mem : id ∈ t.liveSubxids) : id ∈ t.family top := mem_family.mpr (.inr mem)
  have self : top ∈ t.family top := mem_family.mpr (.inl rfl)
  have same (P : TxnStatus → Prop) (h : ∀ id ∈ t.family top, id ∈ active ∧ P (st.clog.status id)) :
      ∀ id ∈ t.family top, id ∈ active' ∧ P (st'.clog.status id) := by
    intro id mem
    rw [reg id mem, stat id mem]
    exact h id mem
  have gone (h : ∀ id ∈ t.liveSubxids, id ∉ active ∧ st.clog.status id = .aborted) :
      ∀ id ∈ t.liveSubxids, id ∉ active' ∧ st'.clog.status id = .aborted := by
    intro id mem
    rw [reg id (sub id mem), stat id (sub id mem)]
    exact h id mem
  unfold Life at life ⊢
  cases stage : t.stage with simp only [stage] at life ⊢
  | running => exact same (· = .inProgress) life
  | restarting level => exact same (· = .inProgress) life
  | committed => exact same (· = .committed) life
  | rollingBack idx level left =>
    obtain ⟨open_, kept, left⟩ := life
    exact ⟨fun id mem => (reg id mem).mpr (open_ id mem),
      fun id mem lt => (stat id mem).trans (kept id mem lt), left⟩
  | flushing =>
    intro id mem
    obtain ⟨here, unaborted, queued⟩ := life id mem
    refine ⟨(reg id mem).mpr here, by rw [stat id mem]; exact unaborted, fun avail => ?_⟩
    rw [stat id mem]
    exact (queued (bad avail)).imp_left (due avail id mem)
  | abortingSubxids left =>
    obtain ⟨open_, left, gone⟩ := life
    exact ⟨fun id mem => (reg id mem).mpr (open_ id mem), left,
      fun id mem out => (stat id (sub id mem)).trans (gone id mem out)⟩
  | abortingTop => exact ⟨(reg top self).mpr life.1, gone life.2⟩
  | aborted =>
    exact ⟨(reg top self).mpr life.1, (stat top self).trans life.2.1, gone life.2.2⟩
  | ended =>
    obtain ⟨out, fixed⟩ := life
    refine ⟨fun id mem => by rw [reg id mem]; exact out id mem, fixed.imp ?_ ?_⟩
    · exact fun all id mem => (stat id mem).trans (all id mem)
    · exact fun all id mem => by rw [stat id mem]; exact all id mem

section

variable (sees : Sees active next clog txns own snapshot)

include sees

theorem Sees.own_notMem (ids : Ids active next clog txns)
    (found : txns top = some t) (other : top ≠ own) (mem : id ∈ t.family top) : id ≠ own := by
  rintro rfl
  rcases sees.owner with rfl | ⟨t', found'⟩
  · exact absurd (ids.family top t found _ mem).1 (by decide)
  · exact other (ids.disjoint _ _ _ _ id found found' mem (mem_family.mpr (.inl rfl)))

/-- What a snapshot needs of a step: only registered ids leave, and a family that is now
committed and ended was so before or has just left the registry. -/
theorem Sees.mono (ids : Ids active next clog txns)
    (sub : active' ⊆ active) (txns_le : ∀ top t, txns top = some t → ∃ t', txns' top = some t')
    (ended : ∀ top t', txns' top = some t' → t'.stage = .ended →
      (∀ id ∈ t'.family top, clog'.status id = .committed) →
      ∃ t, txns top = some t ∧ t'.family top ⊆ t.family top ∧
        ((t.stage = .ended ∧ t'.family top = t.family top ∧
            ∀ id ∈ t.family top, clog.status id = .committed) ∨
          ∀ id ∈ t'.family top, id ∈ active)) : Sees active' next clog' txns' own snapshot :=
  { sees with
    owner := sees.owner.imp_right fun ⟨t, found⟩ => txns_le own t found
    xmin_active := fun id mem => sees.xmin_active id (sub mem)
    registered := fun id mem => sees.registered id (sub mem)
    whole := fun top t' found stage other comm => by
      obtain ⟨t, prior, le, ⟨stage', family, all⟩ | left⟩ := ended top t' found stage comm
      · rw [family]
        exact sees.whole top t prior stage' other all
      · exact .inl fun id mem =>
          sees.registered id (left id mem) (sees.own_notMem ids prior other (le mem)) }

/-- A new id is concurrent to every snapshot. -/
theorem Sees.allocate (ended : t'.stage ≠ .ended) :
    Sees (next :: active) (next + 1) clog (update txns top (some t')) own snapshot where
  owner := sees.owner.imp_right fun ⟨_, found⟩ => exists_update found
  xmax_le := Nat.le_succ_of_le sees.xmax_le
  xmin_le := sees.xmin_le
  xip := sees.xip
  xmin_active id mem := by
    rcases mem with _ | ⟨_, mem⟩
    · exact sees.xmin_le.trans sees.xmax_le
    · exact sees.xmin_active id mem
  registered id mem ne := by
    rcases mem with _ | ⟨_, mem⟩
    · exact concurrent_iff.mpr (.inl sees.xmax_le)
    · exact sees.registered id mem ne
  whole top' t'' found stage other committed := by
    rcases update_eq_some.mp found with ⟨rfl, rfl⟩ | ⟨-, before⟩
    · exact absurd stage ended
    · exact sees.whole top' t'' before stage other committed

end

/-! A transaction goes on to another stage and keeps its family. -/

theorem Ids.restage (ids : Ids active next clog txns) (found : txns top = some t)
    (family : t'.liveSubxids = t.liveSubxids) : Ids active next clog (update txns top (some t')) :=
  ids.mono (Subset.refl _) (of_update ⟨t, found, by simp [Transaction.family, family]⟩
    fun _ t₁ _ prior => ⟨t₁, prior, Subset.refl _⟩)

theorem Sees.restage (sees : Sees active next clog txns own snapshot) (ids : Ids active next clog txns)
    (ended : t'.stage ≠ .ended) :
    Sees active next clog (update txns top (some t')) own snapshot := by
  refine sees.mono ids (Subset.refl _) (fun _ _ => exists_update) (of_update ?_ ?_)
  · exact fun stage => absurd stage ended
  · exact fun top' t₁ _ prior stage comm =>
      ⟨t₁, prior, Subset.refl _, .inl ⟨stage, rfl, comm⟩⟩

theorem Tables.restage (tables : Tables active next txns stamped locks shares)
    (found : txns top = some t) (family : t'.liveSubxids = t.liveSubxids)
    (levels : Levels stamped top t') :
    Tables active next (update txns top (some t')) stamped locks shares where
  levels := of_update levels fun top' t₁ _ => tables.levels top' t₁
  locked e mem here := by
    refine member_update (tables.locked e mem here) (fun t₁ found' ⟨mem', held⟩ => ?_)
      fun _ _ _ h => h
    cases found'.symm.trans found
    exact ⟨by simpa [family] using mem', held⟩
  stamped_lt := tables.stamped_lt
  exclusive := tables.exclusive

end Parts

/-! ### How a step keeps the invariant -/

namespace Inv

theorem lifeAt (inv : Inv w) {stage : Stage} (found : w.txns top = some t)
    (at_ : t.stage = stage) : Life w.registry.active w.wal.state top { t with stage } := by
  subst at_
  exact inv.lives.life top t found

/-- The members of a family that the status of `id` does not concern. -/
theorem life_other (inv : Inv w) {st' : WalState} {top' : TxnId} {t₁ : Transaction}
    (hit : Touches w.wal.state st' id) (found : w.txns top = some t) (mem : id ∈ t.family top)
    (due : w.wal.state.pendingCommits ⊆ st'.pendingCommits) (found' : w.txns top' = some t₁)
    (other : top' ≠ top) : Life w.registry.active st' top' t₁ := by
  refine (inv.lives.life top' t₁ found').congr (fun _ _ => Iff.rfl) (fun member mem' => ?_)
    (fun _ _ _ h => due h) hit.poisoned
  refine hit.status fun same => other ?_
  exact inv.ids.disjoint _ _ _ _ id found' found (same ▸ mem') mem

variable {e : TxnId × Snapshot}

/-- Snapshots do not notice what happens to a registered id. -/
theorem sees_publish (inv : Inv w) {clog' : Clog}
    (fixed : ∀ id, id ∉ w.registry.active → clog'.status id = w.wal.state.clog.status id)
    (mem : e ∈ w.snapshots) : Sees w.registry.active w.registry.nextTxnId clog' w.txns e.1 e.2 := by
  refine (inv.sees e mem).mono inv.ids (Subset.refl _) (fun top t found => ⟨t, found⟩)
    fun top t found stage comm => ⟨t, found, Subset.refl _, .inl ⟨stage, rfl, fun id mem => ?_⟩⟩
  have life := inv.lifeAt found stage
  rw [← fixed id (life.1 id mem)]
  exact comm id mem

variable {wal : FileWal}

/-- **A record is appended** under a registered id. -/
theorem touch (inv : Inv w) (touched : Touches w.wal.state wal.state id)
    (found : w.txns top = some t) (mem : id ∈ t.family top) (here : id ∈ w.registry.active)
    (pending : wal.state.pendingCommits = w.wal.state.pendingCommits)
    (life : Life w.registry.active wal.state top t) : Inv { w with wal } where
  ids := inv.ids.publish touched.floor fun other above =>
    touched.others other (ne_of_gt (lt_of_lt_of_le (inv.ids.active_lt id here) above))
  lives :=
    { life := fun top' t₁ found' => by
        by_cases same : top' = top
        · subst same
          cases found'.symm.trans found
          exact life
        · exact inv.life_other touched found mem (fun _ h => pending ▸ h) found' same
      pending := fun available member queued =>
        inv.lives.pending (touched.poisoned available) member (pending ▸ queued) }
  sees _ := inv.sees_publish fun other out => touched.status (fun same => out (same ▸ here))
  xmins := inv.xmins
  tables := inv.tables

/-- **A transaction goes on to another stage** and keeps its family. -/
theorem restage (inv : Inv w) (found : w.txns top = some t) (family : t'.liveSubxids = t.liveSubxids)
    (life : Life w.registry.active w.wal.state top t') (levels : Levels w.stamped top t')
    (queue : t.stage ≠ .flushing ∨ w.wal.state.poisoned ≠ none ∨ w.wal.state.pendingCommits = [])
    (ended : t'.stage ≠ .ended) : Inv (w.setTxn top t') where
  ids := inv.ids.restage found family
  lives :=
    { life := of_update life fun top' t₁ _ => inv.lives.life top' t₁
      pending := fun available id queued => by
        refine member_update (inv.lives.pending available id queued)
          (fun t₁ found' ⟨stage, _⟩ => ?_) fun _ _ _ h => h
        cases found'.symm.trans found
        rcases queue with other | poisoned | empty
        · exact absurd stage other
        · exact absurd available poisoned
        · exact absurd (empty ▸ queued) not_mem_nil }
  sees e mem := (inv.sees e mem).restage inv.ids ended
  xmins := inv.xmins
  tables := inv.tables.restage found family levels

theorem mem_deregister {ids : List TxnId} : id ∈ (w.deregister ids).registry.active ↔
    id ∈ w.registry.active ∧ id ∉ ids := by
  simp [deregister, Registry.deregisterAll]

/-- **Members of a family leave the registry**, and perhaps the family; locks of this
transaction may go with them. -/
theorem leave (inv : Inv w) {ids : List TxnId} {locks' : List (TxnId × TableId)}
    (found : w.txns top = some t) (leaving : ids ⊆ t.family top)
    (family : t'.family top ⊆ t.family top) (unqueued : t.stage ≠ .flushing)
    (life : Life (w.deregister ids).registry.active w.wal.state top t')
    (levels : Levels w.stamped top t')
    (ended : t'.stage = .ended → (∀ id ∈ t'.family top, w.wal.state.clog.status id = .committed) →
      ∀ id ∈ t'.family top, id ∈ w.registry.active)
    (fewer : locks' ⊆ w.locks) (others : ∀ l ∈ w.locks, l.1 ≠ top → l ∈ locks')
    (mine : ∀ e ∈ w.stamped, e.1 ∈ t.family top → e.1 ∉ ids → (top, e.2) ∈ w.locks →
      e.1 ∈ t'.family top ∧ (top, e.2) ∈ locks') :
    Inv { (w.deregister ids).setTxn top t' with locks := locks' } := by
  have sub : (w.deregister ids).registry.active ⊆ w.registry.active := filter_subset_self _
  constructor
  case ids =>
    exact inv.ids.mono sub (of_update ⟨t, found, family⟩
      fun _ t₁ _ prior => ⟨t₁, prior, Subset.refl _⟩)
  case lives =>
    constructor
    · refine of_update life fun top' t₁ other prior => ?_
      refine (inv.lives.life top' t₁ prior).congr (fun id mem => ?_) (fun _ _ => rfl)
        (fun _ _ _ h => h) id
      refine mem_deregister.trans (and_iff_left fun gone => other ?_)
      exact inv.ids.disjoint _ _ _ _ id prior found mem (leaving gone)
    intro avail id queued
    refine member_update (inv.lives.pending avail id queued)
      (fun t₁ found' ⟨stage, _⟩ => ?_) fun _ _ _ h => h
    cases found'.symm.trans found
    exact absurd stage unqueued
  case sees =>
    intro e mem
    refine (inv.sees e mem).mono inv.ids sub (fun _ _ => exists_update) (of_update ?_ ?_)
    · exact fun stage comm => ⟨t, found, family, .inr (ended stage comm)⟩
    · exact fun top' t₁ _ prior stage comm =>
        ⟨t₁, prior, Subset.refl _, .inl ⟨stage, rfl, comm⟩⟩
  case xmins => exact inv.xmins
  case tables =>
    constructor
    · exact of_update levels fun top' t₁ _ => inv.tables.levels top' t₁
    · intro e mem here
      obtain ⟨here, stay⟩ := mem_deregister.mp here
      refine member_update (inv.tables.locked e mem here) (fun t₁ found' ⟨mem', held⟩ => ?_)
        fun _ _ other ⟨mem', held⟩ => ⟨mem', others _ held other⟩
      cases found'.symm.trans found
      exact mine e mem mem' stay held
    · exact inv.tables.stamped_lt
    · exact fun l mem => inv.tables.exclusive l (fewer mem)

/-- **An id is given out.** -/
theorem allocate (inv : Inv w) {registry : Registry} (room : w.registry.nextTxnId < 2 ^ 64)
    (next : registry.nextTxnId = w.registry.nextTxnId + 1)
    (active : registry.active = w.registry.nextTxnId :: w.registry.active)
    (xmins : registry.xmins = w.registry.xmins)
    (family : ∀ id ∈ t'.family top, id = w.registry.nextTxnId ∨
      ∃ t, w.txns top = some t ∧ id ∈ t.family top ∧ id ∈ w.registry.active ∧
        w.wal.state.clog.status id = .inProgress)
    (kept : ∀ t, w.txns top = some t → t.stage ≠ .flushing ∧ t.family top ⊆ t'.family top)
    (running : t'.stage = .running) (levels : Levels w.stamped top t') :
    Inv ({ w with registry }.setTxn top t') := by
  have unborn : w.wal.state.clog.status w.registry.nextTxnId = .inProgress := by
    obtain ⟨above, normal⟩ := inv.ids.above w.registry.nextTxnId (.inr le_rfl)
    rw [status_of_missing normal (inv.ids.fresh _ le_rfl), if_neg (not_lt.mpr above)]
  constructor
  case ids =>
    simp only [setTxn, next, active]
    refine inv.ids.allocate room fun id mem => (family id mem).imp_right ?_
    exact fun ⟨t, found, mem, _⟩ => ⟨t, found, mem⟩
  case lives =>
    simp only [setTxn, active]
    constructor
    · refine of_update ?_ fun top' t₁ _ before => ?_
      · unfold Life
        simp only [running]
        intro id mem
        rcases family id mem with rfl | ⟨_, _, _, here, status⟩
        · exact ⟨.head _, unborn⟩
        · exact ⟨.tail _ here, status⟩
      refine (inv.lives.life top' t₁ before).congr (fun id mem => ?_) (fun _ _ => rfl)
        (fun _ _ _ h => h) id
      refine ⟨fun here => (mem_cons.mp here).resolve_left fun same => ?_, mem_cons_of_mem _⟩
      exact absurd (inv.ids.family _ _ before id mem).2 (same ▸ lt_irrefl _)
    · intro available id queued
      exact member_update (inv.lives.pending available id queued)
        (fun t₁ found' ⟨stage, _⟩ => absurd stage (kept t₁ found').1) fun _ _ _ h => h
  case sees =>
    intro e mem
    simp only [setTxn, next, active]
    exact (inv.sees e mem).allocate (by simp [running])
  case xmins =>
    simp only [setTxn, xmins]
    exact inv.xmins
  case tables =>
    simp only [setTxn, next, active]
    constructor
    · exact of_update levels fun top' t₁ _ => inv.tables.levels top' t₁
    · intro e mem here
      have old : e.1 ∈ w.registry.active := (mem_cons.mp here).resolve_left fun same =>
        absurd (inv.tables.stamped_lt e mem) (same ▸ lt_irrefl _)
      exact member_update (inv.tables.locked e mem old)
        (fun t₁ found' ⟨mem', held⟩ => ⟨(kept t₁ found').2 mem', held⟩) fun _ _ _ h => h
    · exact fun e mem => Nat.lt_succ_of_lt (inv.tables.stamped_lt e mem)
    · exact inv.tables.exclusive

/-- What a flush makes of the statuses. -/
theorem status_flushed {st st' : WalState} (done : FlushDone st st') (norm : FIRST_NORMAL_XID ≤ id) :
    st'.clog.status id = if id ∈ st.pendingCommits then .committed else st.clog.status id := by
  rw [done.clog]
  split_ifs with queued
  · exact status_of_lookup norm (by rw [lookup_setAll, if_pos queued])
  · exact status_congr (by rw [lookup_setAll, if_neg queued]) (committedFloor_setAll _)

/-- **The commits that were appended are flushed.** -/
theorem flushed (inv : Inv w) (done : FlushDone w.wal.state wal.state) : Inv { w with wal } := by
  have owner := inv.lives.pending done.available
  have norm (top : TxnId) (t : Transaction) (found : w.txns top = some t) (id : TxnId)
      (mem : id ∈ t.family top) := (inv.ids.family top t found id mem).1
  have reg (id : TxnId) (queued : id ∈ w.wal.state.pendingCommits) :
      FIRST_NORMAL_XID ≤ id ∧ id ∈ w.registry.active := by
    obtain ⟨top, t, found, stage, mem⟩ := owner id queued
    have life := inv.lifeAt found stage
    exact ⟨norm top t found id mem, (life id mem).1⟩
  have fixed (id : TxnId) (out : id ∉ w.registry.active) :
      wal.state.clog.status id = w.wal.state.clog.status id := by
    rw [done.clog]
    refine status_congr ?_ (committedFloor_setAll _)
    rw [lookup_setAll, if_neg fun queued => out (reg id queued).2]
  constructor
  case ids =>
    refine inv.ids.publish (by rw [done.clog, committedFloor_setAll]) fun id above => ?_
    rw [done.clog, lookup_setAll, if_neg fun queued => ?_]
    exact absurd (inv.ids.active_lt id (reg id queued).2) (not_lt.mpr above)
  case lives =>
    constructor
    · intro top t found
      have life := inv.lives.life top t found
      by_cases stage : t.stage = .flushing
      · unfold Life at life ⊢
        simp only [stage] at life ⊢
        intro id mem
        obtain ⟨here, unaborted, queued⟩ := life id mem
        rw [status_flushed done (norm top t found id mem)]
        split_ifs with now
        · exact ⟨here, by decide, fun _ => .inr rfl⟩
        · exact ⟨here, unaborted, fun _ => .inr ((queued done.available).resolve_left now)⟩
      have unqueued (id : TxnId) (mem : id ∈ t.family top) : id ∉ w.wal.state.pendingCommits := by
        intro queued
        obtain ⟨top', t', found', stage', mem'⟩ := owner id queued
        obtain rfl := inv.ids.disjoint _ _ _ _ id found found' mem mem'
        cases found.symm.trans found'
        exact stage stage'
      refine life.congr (fun _ _ => Iff.rfl) (fun id mem => ?_)
        (fun _ id mem queued => absurd queued (unqueued id mem)) fun _ => done.available
      rw [status_flushed done (norm top t found id mem), if_neg (unqueued id mem)]
    · intro _ id queued
      rw [done.pending] at queued
      cases queued
  case sees => exact fun _ => inv.sees_publish fixed
  case xmins => exact inv.xmins
  case tables => exact inv.tables

/-- A flush that failed leaves the statuses as they are, and is the last one. -/
theorem flushFailed (inv : Inv w) (same : wal.state.clog = w.wal.state.clog)
    (poisoned : wal.state.poisoned ≠ none) : Inv { w with wal } where
  ids := by
    simp only [same]
    exact inv.ids
  lives :=
    { life := fun top t found => (inv.lives.life top t found).congr (fun _ _ => Iff.rfl)
        (fun _ _ => by simp [same]) (fun available => absurd available poisoned)
        fun available => absurd available poisoned
      pending := fun available => absurd available poisoned }
  sees := by
    simp only [same]
    exact inv.sees
  xmins := inv.xmins
  tables := inv.tables

/-! ### The events -/

variable {hasWrites : Bool} {faults : List Fault}

theorem begin_ (inv : Inv w) (room : w.registry.nextTxnId < 2 ^ 64) :
    Inv ({ w with registry := w.registry.registerAllocated.2 }.setTxn w.registry.nextTxnId
      ⟨[], [], hasWrites, .running⟩) := by
  have unborn (t : Transaction) (found : w.txns w.registry.nextTxnId = some t) : False :=
    absurd (inv.ids.family _ t found _ (mem_family.mpr (.inl rfl))).2 (lt_irrefl _)
  refine inv.allocate room rfl rfl rfl (fun id mem => .inl (by simpa using mem))
    (fun t found => (unborn t found).elim) rfl ?_
  constructor <;> simp

variable {w₁ : World} {subxid : TxnId}

/-- A savepoint level is established, or established again. -/
theorem pushLevel (inv : Inv w) {objectLocks : List TableId} (found : w.txns top = some t)
    (quiet : ∀ id ∈ t.family top, id ∈ w.registry.active ∧ w.wal.state.clog.status id = .inProgress)
    (unqueued : t.stage ≠ .flushing) (allocated : w.registerActiveSubxid top = some (subxid, w₁))
    (held : ∀ e ∈ w.stamped, e.1 ∈ t.family top → e.2 ∈ objectLocks) :
    Inv (w₁.pushLevel top t subxid objectLocks) := by
  obtain ⟨room, same⟩ := ite_none_right_eq_some.mp allocated
  cases same
  have levels := inv.tables.levels top t found
  have lt (id : TxnId) (mem : id ∈ t.family top) : id < w.registry.nextTxnId :=
    (inv.ids.family top t found id mem).2
  refine inv.allocate room rfl rfl rfl (fun id mem => ?_) (fun t₁ found₁ => ?_) rfl ?_
  · simp only [mem_family, mem_append, mem_singleton] at mem
    rcases mem with rfl | mem | rfl
    · exact .inr ⟨t, found, by simp, quiet id (by simp)⟩
    · exact .inr ⟨t, found, by simp [mem], quiet id (by simp [mem])⟩
    · exact .inl rfl
  · cases found₁.symm.trans found
    exact ⟨unqueued, fun id mem => by simp only [mem_family, mem_append] at mem ⊢; tauto⟩
  constructor
  case newer =>
    intro id mem
    rcases mem_append.mp mem with old | new
    · exact levels.newer id old
    · rw [mem_singleton.mp new]
      exact lt top (by simp)
  case sorted =>
    refine pairwise_append.mpr ⟨levels.sorted, pairwise_singleton _ _, ?_⟩
    intro level mem new isNew
    rw [mem_singleton.mp isNew]
    exact lt _ (mem_family.mpr (.inr (levels.mem level mem)))
  case mem =>
    intro level mem
    rcases mem_append.mp mem with old | new
    · exact mem_append_left _ (levels.mem level old)
    · rw [mem_singleton.mp new]
      exact mem_append_right _ (mem_singleton_self _)
  case held =>
    intro level mem e stamp member before
    have old : e.1 ∈ t.family top := by
      simp only [mem_family, mem_append, mem_singleton] at member ⊢
      rcases member with same | mem | new
      · exact .inl same
      · exact .inr mem
      · exact absurd (inv.tables.stamped_lt e stamp) (new ▸ lt_irrefl _)
    rcases mem_append.mp mem with known | new
    · exact levels.held level known e stamp old before
    · rw [mem_singleton.mp new]
      exact held e stamp old
  case back => simp
  case again => simp

theorem savepoint (inv : Inv w) (found : w.txns top = some t)
    (stage : t.stage = .running) (alloc : w.registerActiveSubxid top = some (subxid, w₁)) :
    Inv (w₁.pushLevel top t subxid (w.lockedTables top)) := by
  have life := inv.lifeAt found stage
  refine inv.pushLevel found life (by simp [stage]) alloc fun e stamp mem => ?_
  obtain ⟨top', t', found', mem', held⟩ := inv.tables.locked e stamp (life e.1 mem).1
  obtain rfl := inv.ids.disjoint _ _ _ _ e.1 found found' mem mem'
  exact mem_map.mpr ⟨_, mem_filter.mpr ⟨held, by simp⟩, rfl⟩

theorem reestablish (inv : Inv w) {level : SavepointLevel}
    (found : w.txns top = some t) (stage : t.stage = .restarting level)
    (alloc : w.registerActiveSubxid top = some (subxid, w₁)) :
    Inv (w₁.pushLevel top t subxid level.objectLocks) := by
  have life := inv.lifeAt found stage
  exact inv.pushLevel found life (by simp [stage]) alloc
    ((inv.tables.levels top t found).again level stage)

/-- The levels of a transaction that only changes its stage. -/
theorem levels_restage {stamped : List (TxnId × TableId)} {stage : Stage}
    (levels : Levels stamped top t) (back : ∀ idx level left, stage ≠ .rollingBack idx level left)
    (again : ∀ level, stage ≠ .restarting level) : Levels stamped top { t with stage } :=
  { levels with
    back := fun idx level left h => absurd h (back idx level left)
    again := fun level h => absurd h (again level) }

theorem releaseSavepoint (inv : Inv w) (idx : Nat) (found : w.txns top = some t)
    (stage : t.stage = .running) :
    Inv (w.setTxn top { t with savepoints := t.savepoints.take idx }) := by
  have levels := inv.tables.levels top t found
  have sub := (take_sublist idx t.savepoints).subset
  refine inv.restage found rfl ?_ ?_ (.inl (by simp [stage])) (by simp [stage])
  · have life := inv.lives.life top t found
    exact life
  exact
    { newer := levels.newer
      sorted := levels.sorted.sublist (take_sublist _ _)
      mem := fun level mem => levels.mem level (sub mem)
      held := fun level mem => levels.held level (sub mem)
      back := by simp [stage]
      again := by simp [stage] }

variable {table : TableId}

theorem lockTable (inv : Inv w) (unshared : ∀ s ∈ w.shares, s.2 ≠ table) :
    Inv { w with locks := (top, table) :: w.locks } := { inv with
    tables := { inv.tables with
        locked := fun e mem here => by
          obtain ⟨top', t', found, mem', held⟩ := inv.tables.locked e mem here
          exact ⟨top', t', found, mem', .tail _ held⟩
        exclusive := fun l mem s share => by
          rcases mem with _ | ⟨_, old⟩
          · exact (unshared s share).symm
          · exact inv.tables.exclusive l old s share } }

theorem share (inv : Inv w) (unlocked : ∀ l ∈ w.locks, l.2 ≠ table) :
    Inv { w with shares := (top, table) :: w.shares } := { inv with
    tables := { inv.tables with
        exclusive := fun l mem s share => by
          rcases share with _ | ⟨_, old⟩
          · exact unlocked l mem
          · exact inv.tables.exclusive l mem s old } }

theorem unshare (inv : Inv w) : Inv { w with shares := w.shares.filter (·.1 ≠ top) } := { inv with
    tables := { inv.tables with
        exclusive := fun l mem s share => inv.tables.exclusive l mem s (mem_filter.mp share).1 } }

/-- Locks go when the transaction has left the registry. -/
theorem drop (inv : Inv w) (found : w.txns top = some t) (stage : t.stage = .ended) :
    Inv { w with locks := w.locks.filter (·.1 ≠ top) } := { inv with
    tables := { inv.tables with
        locked := fun e mem here => by
          obtain ⟨top', t', found', mem', held⟩ := inv.tables.locked e mem here
          refine ⟨top', t', found', mem', mem_filter.mpr ⟨held, ?_⟩⟩
          have life := inv.lifeAt found stage
          simp only [ne_eq, decide_not, Bool.not_eq_eq_eq_not, Bool.not_true, decide_eq_false_iff_not]
          rintro rfl
          cases found'.symm.trans found
          exact life.1 e.1 mem' here
        exclusive := fun l mem => inv.tables.exclusive l (mem_filter.mp mem).1 } }

theorem writingXid_mem (levels : Levels w.stamped top t) : t.writingXid top ∈ t.family top := by
  unfold writingXid
  cases last : t.savepoints.getLast? with
  | none => simp
  | some level => simp [levels.mem level (mem_of_getLast? last)]

/-- The innermost level is the newest. -/
theorem le_writingXid (levels : Levels w.stamped top t) {level : SavepointLevel}
    (mem : level ∈ t.savepoints) : level.subxid ≤ t.writingXid top := by
  unfold writingXid
  obtain ⟨front, last, split⟩ := (eq_nil_or_concat t.savepoints).resolve_left (ne_nil_of_mem mem)
  have sorted := levels.sorted
  rw [concat_eq_append] at split
  rw [split] at mem sorted
  rw [split, getLast?_concat, map_some, getD_some]
  rcases mem_append.mp mem with earlier | same
  · exact ((pairwise_append.mp sorted).2.2 level earlier last (mem_singleton_self _)).le
  · rw [mem_singleton.mp same]

/-- A table is written to under its lock. -/
theorem stamp (inv : Inv w) (found : w.txns top = some t)
    (stage : t.stage = .running) (locked : (top, table) ∈ w.locks) :
    Inv { w with stamped := (t.writingXid top, table) :: w.stamped } := by
  have levels := inv.tables.levels top t found
  have mem := writingXid_mem levels
  refine { inv with tables := { inv.tables with levels := ?_, locked := ?_, stamped_lt := ?_ } }
  · intro top' t' found'
    have old := inv.tables.levels top' t' found'
    refine { old with held := ?_, again := ?_ }
    · intro level known e stamp member prior
      rcases stamp with _ | ⟨_, stamp⟩
      · obtain rfl := inv.ids.disjoint _ _ _ _ _ found found' mem member
        cases found.symm.trans found'
        exact absurd (le_writingXid levels known) (not_le.mpr prior)
      · exact old.held level known e stamp member prior
    intro level stage' e stamp member
    rcases stamp with _ | ⟨_, stamp⟩
    · obtain rfl := inv.ids.disjoint _ _ _ _ _ found found' mem member
      cases found.symm.trans found'
      rw [stage] at stage'
      cases stage'
    · exact old.again level stage' e stamp member
  · intro e stamp here
    rcases stamp with _ | ⟨_, stamp⟩
    · exact ⟨top, t, found, mem, locked⟩
    · exact inv.tables.locked e stamp here
  · intro e stamp
    rcases stamp with _ | ⟨_, stamp⟩
    · exact (inv.ids.family top t found _ mem).2
    · exact inv.tables.stamped_lt e stamp

/-- A running transaction's statuses stay in progress when it writes. -/
theorem life_running {active : List TxnId} {st st' : WalState} (life : Life active st top t)
    (stage : t.stage = .running) (hit : Touches st st' id) (stat : st'.clog.status id = .inProgress) :
    Life active st' top t := by
  unfold Life at life ⊢
  simp only [stage] at life ⊢
  intro member mem
  refine ⟨(life member mem).1, ?_⟩
  by_cases same : member = id
  · exact same ▸ stat
  · exact (hit.status same).trans (life member mem).2

section

variable (inv : Inv w)

include inv

section

variable (found : w.txns top = some t)

include found

variable {w₁ : World}

theorem write {table : TableId} (stage : t.stage = .running)
    (locked : (top, table) ∈ w.locks) (redo : kind.isRedoOperation = true)
    (added : w.append params (t.writingXid top) kind faults = some (result, w₁)) :
    Inv (match result with
      | .ok () => { w₁.setTxn top { t with hasWrites := true } with
          stamped := (t.writingXid top, table) :: w.stamped }
      | .error _ => w₁.setTxn top { t with hasWrites := true }) := by
  have levels := inv.tables.levels top t found
  have mem := writingXid_mem levels
  have life := inv.lives.life top t found
  have life' := inv.lifeAt found stage
  obtain ⟨here, stat⟩ := life' _ mem
  obtain ⟨norm, lt⟩ := inv.ids.family top t found _ mem
  have ne : t.writingXid top ≠ 0 := ne_of_gt (lt_of_lt_of_le (by decide) norm)
  have unsettled : kind.isSettlement = false ∧ writtenStatus kind = .inProgress ∧
      committedBy ⟨0, UInt64.ofNat (t.writingXid top), kind⟩ = [] := by
    cases kind <;> simp_all [isRedoOperation, isSettlement, writtenStatus, committedBy]
  obtain ⟨wal, rfl, hit, rest⟩ := append_spec ne (lt_of_lt_of_le lt inv.ids.bound) (.inl redo) added
  have stays : wal.state.pendingCommits = w.wal.state.pendingCommits ∧
      wal.state.clog.status (t.writingXid top) = .inProgress := by
    cases result with
    | ok =>
      obtain ⟨due, found⟩ := rest
      exact ⟨by simpa [unsettled.2.2] using due, (status_of_lookup norm found).trans unsettled.2.1⟩
    | error e =>
      obtain ⟨due, found | ⟨-, same⟩⟩ := rest
      · exact ⟨due, (status_of_lookup norm found).trans unsettled.2.1⟩
      · exact ⟨due, (status_congr same hit.floor).trans stat⟩
  have inv₁ := inv.touch hit found mem here stays.1 (life_running life stage hit stays.2)
  have inv₂ : Inv ({ w with wal }.setTxn top { t with hasWrites := true }) := by
    refine inv₁.restage found rfl ?_ { levels with } (.inl (by simp [stage])) (by simp [stage])
    have := inv₁.lives.life top t found
    unfold Life at this ⊢
    exact this
  cases result with
  | ok =>
    exact inv₂.stamp (t := { t with hasWrites := true }) (update_eq_some.mpr (.inl ⟨rfl, rfl⟩)) stage
      locked
  | error e => exact inv₂

variable {idx : Nat} {level : SavepointLevel}

theorem rollbackTo (stage : t.stage = .running) (at_ : t.savepoints[idx]? = some level) :
    Inv (w.setTxn top { t with stage := .rollingBack idx level (t.rolled level) }) := by
  refine inv.restage found rfl ?_ ?_ (.inl (by simp [stage])) (by simp)
  · have life := inv.lives.life top t found
    unfold Life at life ⊢
    simp only [stage] at life ⊢
    refine ⟨fun id mem => (life id mem).1, fun id mem _ => (life id mem).2, fun id mem => ?_⟩
    obtain ⟨live, newer⟩ := mem_filter.mp mem
    exact ⟨live, of_decide_eq_true newer⟩
  · exact { inv.tables.levels top t found with
      back := fun _ _ _ same => by cases same; exact at_
      again := fun _ h => by cases h }

/-- An abort record of a registered member, in a stage that waits for it. -/
theorem abortMember (mem : id ∈ t.family top)
    (here : id ∈ w.registry.active) (added : w.appendAbort params id faults = some w₁)
    (life : ∀ st', Touches w.wal.state st' id → st'.clog.status id = .aborted →
      Life w.registry.active st' top t) :
    Inv w₁ ∧ w₁.txns top = some t ∧ w₁.registry = w.registry ∧ w₁.stamped = w.stamped ∧
      Touches w.wal.state w₁.wal.state id ∧ w₁.wal.state.clog.status id = .aborted := by
  obtain ⟨norm, lt⟩ := inv.ids.family top t found id mem
  obtain ⟨wal, rfl, hit, due, abort⟩ :=
    appendAbort_spec norm (lt_of_lt_of_le lt inv.ids.bound) added
  exact ⟨inv.touch hit found mem here due (life _ hit abort), found, rfl, rfl, hit, abort⟩

theorem abortRolledBack {left : List TxnId} (stage : t.stage = .rollingBack idx level (id :: left))
    (added : w.appendAbort params id faults = some w₁) :
    Inv (w₁.setTxn top { t with stage := .rollingBack idx level left }) := by
  have life := inv.lifeAt found stage
  obtain ⟨here, kept, waits⟩ := life
  obtain ⟨live, newer⟩ := waits id (.head _)
  have levels := inv.tables.levels top t found
  obtain ⟨inv₁, found₁, reg, stamped, hit, -⟩ :=
    inv.abortMember found (by simp [live]) (here id (by simp [live])) added fun st' hit _ => by
      unfold Life
      simp only [stage]
      refine ⟨here, fun member mem older => ?_, waits⟩
      rw [hit.status (ne_of_lt (lt_of_lt_of_le older newer))]
      exact kept member mem older
  refine inv₁.restage found₁ rfl ?_ ?_ (.inl (by simp [stage])) (by simp)
  · simp only [reg]
    refine ⟨here, fun member mem older => ?_, fun member mem => waits member (.tail _ mem)⟩
    rw [hit.status (ne_of_lt (lt_of_lt_of_le older newer))]
    exact kept member mem older
  rw [stamped]
  exact { levels with
    back := fun _ _ _ same => by cases same; exact levels.back _ _ _ stage
    again := fun _ h => by cases h }

theorem abortSubxid {left : List TxnId} (stage : t.stage = .abortingSubxids (id :: left))
    (added : w.appendAbort params id faults = some w₁) :
    Inv (w₁.setTxn top { t with stage := .abortingSubxids left }) := by
  have life := inv.lifeAt found stage
  obtain ⟨here, waiting, gone⟩ := life
  have live := waiting id (.head _)
  obtain ⟨inv₁, found₁, reg, stamped, hit, abort⟩ :=
    inv.abortMember found (by simp [live]) (here id (by simp [live])) added fun st' hit _ => by
      unfold Life
      simp only [stage]
      refine ⟨here, waiting, fun member mem out => ?_⟩
      rw [hit.status fun same => out (same ▸ .head _)]
      exact gone member mem out
  refine inv₁.restage found₁ rfl ?_ ?_ (.inl (by simp [stage])) (by simp)
  · simp only [reg]
    refine ⟨here, fun member mem => waiting member (.tail _ mem), fun member mem out => ?_⟩
    by_cases same : member = id
    · exact same ▸ abort
    · rw [hit.status same]
      exact gone member mem fun waits => (mem_cons.mp waits).elim same out
  · rw [stamped]
    exact levels_restage (inv.tables.levels top t found) (by simp) (by simp)

theorem abortTop
    (stage : t.stage = .abortingTop) (added : w.appendAbort params top faults = some w₁) :
    Inv (w₁.setTxn top { t with stage := .aborted }) := by
  have life := inv.lifeAt found stage
  obtain ⟨here, gone⟩ := life
  have levels := inv.tables.levels top t found
  have stays {st' : WalState} (hit : Touches w.wal.state st' top) (member : TxnId)
      (mem : member ∈ t.liveSubxids) : member ∉ w.registry.active ∧ st'.clog.status member = .aborted := by
    rw [hit.status (ne_of_gt (levels.newer member mem))]
    exact gone member mem
  obtain ⟨inv₁, found₁, reg, stamped, hit, abort⟩ :=
    inv.abortMember found (by simp) here added fun st' hit _ => by
      unfold Life
      simp only [stage]
      exact ⟨here, stays hit⟩
  refine inv₁.restage found₁ rfl ?_ ?_ (.inl (by simp [stage])) (by simp)
  · simp only [reg]
    exact ⟨here, abort, stays hit⟩
  · rw [stamped]
    exact levels_restage levels (by simp) (by simp)

/-- A transaction that has written starts to abort; its family is registered. -/
theorem startAbort (here : ∀ id ∈ t.family top, id ∈ w.registry.active)
    (queue : t.stage ≠ .flushing ∨ w.wal.state.poisoned ≠ none) : Inv (w.setTxn top t.startAbort) := by
  refine inv.restage found rfl ?_ (levels_restage (inv.tables.levels top t found) (by simp) (by simp))
    (queue.imp_right .inl) (by simp [Transaction.startAbort])
  exact ⟨here, fun _ h => h, fun id mem out => absurd mem out⟩

theorem deregisterRolledBack (stage : t.stage = .rollingBack idx level []) :
    Inv { (w.deregister (t.rolled level)).setTxn top { t with
        savepoints := t.savepoints.take idx
        liveSubxids := t.liveSubxids.filter (· < level.subxid)
        stage := .restarting level } with
      locks := w.locks.filter fun l => l.1 ≠ top || level.objectLocks.contains l.2 } := by
  have life := inv.lifeAt found stage
  obtain ⟨here, kept, -⟩ := life
  have levels := inv.tables.levels top t found
  have at_ := levels.back _ _ _ stage
  have known : level ∈ t.savepoints := mem_of_getElem? at_
  have older (inner : SavepointLevel) (mem : inner ∈ t.savepoints.take idx) : inner.subxid < level.subxid := by
    have sorted := levels.sorted
    rw [← take_append_drop idx t.savepoints] at sorted
    refine (pairwise_append.mp sorted).2.2 inner mem level ?_
    rw [mem_iff_getElem?]
    exact ⟨0, by simpa using at_⟩
  have topOlder : top < level.subxid := levels.newer _ (levels.mem level known)
  have family (id : TxnId) : id ∈ top :: t.liveSubxids.filter (· < level.subxid) ↔
      id ∈ t.family top ∧ id < level.subxid := by
    simp only [mem_family, mem_cons, mem_filter, decide_eq_true_eq]
    constructor
    · rintro (rfl | ⟨mem, lt⟩)
      · exact ⟨.inl rfl, topOlder⟩
      · exact ⟨.inr mem, lt⟩
    · rintro ⟨rfl | mem, lt⟩
      · exact .inl rfl
      · exact .inr ⟨mem, lt⟩
  have gone (id : TxnId) : id ∈ t.rolled level ↔ id ∈ t.liveSubxids ∧ level.subxid ≤ id := by
    simp [rolled]
  refine inv.leave found (fun id mem => by simp [((gone id).mp mem).1])
    (fun id mem => ((family id).mp mem).1) (by simp [stage]) ?_ ?_ (by simp) (filter_subset_self _)
    (fun l mem other => mem_filter.mpr ⟨mem, by simp [other]⟩) ?_
  · intro id mem
    obtain ⟨mem, lt⟩ := (family id).mp mem
    refine ⟨mem_deregister.mpr ⟨here id mem, fun rolled => ?_⟩, kept id mem lt⟩
    exact absurd lt (not_lt.mpr ((gone id).mp rolled).2)
  · have held (e : TxnId × TableId) (stamp : e ∈ w.stamped)
        (mem : e.1 ∈ top :: t.liveSubxids.filter (· < level.subxid)) : e.2 ∈ level.objectLocks := by
      obtain ⟨mem, lt⟩ := (family e.1).mp mem
      exact levels.held level known e stamp mem lt
    have sub := (take_sublist idx t.savepoints).subset
    exact
      { newer := fun id mem => levels.newer id (mem_filter.mp mem).1
        sorted := levels.sorted.sublist (take_sublist _ _)
        mem := fun inner mem => mem_filter.mpr
          ⟨levels.mem inner (sub mem), decide_eq_true (older inner mem)⟩
        held := fun inner mem e stamp member =>
          levels.held inner (sub mem) e stamp ((family e.1).mp member).1
        back := by simp
        again := fun _ same => by cases same; exact held }
  intro e stamp mem stay locked
  have lt : e.1 < level.subxid := by
    rcases mem_family.mp mem with same | live
    · exact same ▸ topOlder
    · exact Nat.lt_of_not_le fun newer => stay ((gone e.1).mpr ⟨live, newer⟩)
  refine ⟨(family e.1).mpr ⟨mem, lt⟩, mem_filter.mpr ⟨locked, ?_⟩⟩
  simpa using levels.held level known e stamp mem lt

/-- Members of a family leave the registry; the family and its locks stay. -/
theorem deregister {ids : List TxnId} {stage' : Stage}
    (leaving : ids ⊆ t.family top) (unqueued : t.stage ≠ .flushing)
    (life : Life (w.deregister ids).registry.active w.wal.state top { t with stage := stage' })
    (back : ∀ idx level left, stage' ≠ .rollingBack idx level left)
    (again : ∀ level, stage' ≠ .restarting level)
    (ended : stage' = .ended → (∀ id ∈ t.family top, w.wal.state.clog.status id = .committed) →
      ∀ id ∈ t.family top, id ∈ w.registry.active) :
    Inv ((w.deregister ids).setTxn top { t with stage := stage' }) :=
  inv.leave found leaving (Subset.refl _) unqueued life
    (levels_restage (inv.tables.levels top t found) back again) ended (Subset.refl _)
    (fun _ mem _ => mem) fun _ _ mem _ locked => ⟨mem, locked⟩

theorem deregisterSubxids (stage : t.stage = .abortingSubxids []) :
    Inv ((w.deregister t.liveSubxids).setTxn top { t with stage := .abortingTop }) := by
  have life := inv.lifeAt found stage
  obtain ⟨here, -, gone⟩ := life
  have levels := inv.tables.levels top t found
  refine inv.deregister found (fun id mem => by simp [mem]) (by simp [stage]) ?_ (by simp) (by simp) (by simp)
  refine ⟨mem_deregister.mpr ⟨here top (by simp), fun mem => ?_⟩, fun id mem => ⟨fun stay => ?_, ?_⟩⟩
  · exact absurd (levels.newer top mem) (lt_irrefl _)
  · exact (mem_deregister.mp stay).2 mem
  · exact gone id mem not_mem_nil

theorem deregisterFamily (stage : t.stage = .committed) :
    Inv ((w.deregister (t.family top)).setTxn top { t with stage := .ended }) := by
  have life := inv.lifeAt found stage
  refine inv.deregister found (Subset.refl _) (by simp [stage]) ?_ (by simp) (by simp)
    fun _ _ id mem => (life id mem).1
  exact ⟨fun id mem stay => (mem_deregister.mp stay).2 mem, .inl fun id mem => (life id mem).2⟩

theorem endReadOnly (stage : t.stage = .running) : Inv (w.endReadOnly top t) := by
  have life := inv.lifeAt found stage
  refine inv.deregister found (Subset.refl _) (by simp [stage]) ?_ (by simp) (by simp)
    fun _ _ id mem => (life id mem).1
  refine ⟨fun id mem stay => (mem_deregister.mp stay).2 mem, .inr fun id mem => ?_⟩
  rw [(life id mem).2]
  decide

theorem deregisterTop (stage : t.stage = .aborted) :
    Inv ((w.deregister [top]).setTxn top { t with stage := .ended }) := by
  have life := inv.lifeAt found stage
  obtain ⟨here, abort, gone⟩ := life
  have all (id : TxnId) (mem : id ∈ t.family top) : w.wal.state.clog.status id = .aborted := by
    rcases mem_family.mp mem with rfl | live
    · exact abort
    · exact (gone id live).2
  refine inv.deregister found (by simp) (by simp [stage]) ?_ (by simp) (by simp) fun _ comm => ?_
  · refine ⟨fun id mem stay => ?_, .inr fun id mem => by rw [all id mem]; decide⟩
    obtain ⟨stay, other⟩ := mem_deregister.mp stay
    rcases mem_family.mp mem with rfl | live
    · exact other (mem_singleton_self _)
    · exact (gone id live).1 stay
  · rw [comm top (by simp)] at abort
    cases abort

end

end

theorem committedBy_commitKind (t : Transaction) (bound : ∀ id ∈ t.family top, id < 2 ^ 64) :
    committedBy (χ := χ) ⟨0, UInt64.ofNat top, t.commitKind⟩ = t.family top := by
  have back (id : TxnId) (mem : id ∈ t.family top) : (UInt64.ofNat id).toNat = id := by
    rw [UInt64.toNat_ofNat']
    exact Nat.mod_eq_of_lt (bound id mem)
  have topBack := back top (by simp)
  unfold commitKind
  split_ifs with empty
  · simp [committedBy, family, isEmpty_iff.mp empty, topBack]
  · simp only [committedBy, family, topBack, List.map_map, List.cons.injEq, true_and]
    exact (List.map_congr_left fun id mem => back id (by simp [mem])).trans (List.map_id _)

/-- **The commit record is appended**: the family is queued. -/
theorem commitAppended (inv : Inv w) (found : w.txns top = some t)
    (stage : t.stage = .running) (hit : Touches w.wal.state wal.state top)
    (due : wal.state.pendingCommits = w.wal.state.pendingCommits ++ t.family top)
    (stat : wal.state.clog.status top = .inProgress) :
    Inv ({ w with wal }.setTxn top { t with stage := .flushing }) := by
  have life := life_running (inv.lives.life top t found) stage hit stat
  unfold Life at life
  simp only [stage] at life
  have here := (life top (by simp)).1
  have ids := inv.ids.publish hit.floor fun other above =>
    hit.others other (ne_of_gt (lt_of_lt_of_le (inv.ids.active_lt top here) above))
  have qs {id : TxnId} (h : id ∈ w.wal.state.pendingCommits ∨ id ∈ t.family top) :
      id ∈ wal.state.pendingCommits := by
    rw [due]
    exact mem_append.mpr h
  constructor
  case ids => exact ids.restage found rfl
  case lives =>
    constructor
    · refine of_update (fun id mem => ?_) fun top' t₁ other prior =>
        inv.life_other hit found (by simp) (fun _ h => qs (.inl h)) prior other
      obtain ⟨here, open_⟩ := life id mem
      exact ⟨here, open_.trans_ne (by decide), fun _ => .inl (qs (.inr mem))⟩
    intro avail id queued
    rcases mem_append.mp (due ▸ queued) with old | new
    · exact member_update (inv.lives.pending (hit.poisoned avail) id old)
        (fun t₁ found' ⟨_, mem⟩ => ⟨rfl, by
          cases found'.symm.trans found
          exact mem⟩) fun _ _ _ h => h
    · exact ⟨top, _, update_eq_some.mpr (.inl ⟨rfl, rfl⟩), rfl, new⟩
  case sees =>
    intro e mem
    exact (inv.sees_publish (fun other out => hit.status (fun same => out (same ▸ here))) mem).restage
      ids (by simp)
  case xmins => exact inv.xmins
  case tables =>
    exact inv.tables.restage found rfl (levels_restage (inv.tables.levels top t found) (by simp) (by simp))

theorem commit (inv : Inv w) (found : w.txns top = some t)
    (stage : t.stage = .running) (added : w.append params top t.commitKind faults = some (result, w₁)) :
    Inv (w₁.setTxn top (match result with
      | .ok () => { t with stage := .flushing }
      | .error _ => t.startAbort)) := by
  have life := inv.lives.life top t found
  have life' := inv.lifeAt found stage
  obtain ⟨here, stat⟩ := life' top (by simp)
  have family := inv.ids.family top t found
  obtain ⟨norm, lt⟩ := family top (by simp)
  have ne : top ≠ 0 := ne_of_gt (lt_of_lt_of_le (by decide) norm)
  have settles : (t.commitKind : WalRecordKind χ).isSettlement = true ∧
      writtenStatus (t.commitKind : WalRecordKind χ) = .inProgress := by
    unfold commitKind
    split_ifs <;> exact ⟨rfl, rfl⟩
  obtain ⟨wal, rfl, hit, rest⟩ :=
    append_spec ne (lt_of_lt_of_le lt inv.ids.bound) (.inr settles.1) added
  cases result with
  | ok =>
    obtain ⟨due, expl⟩ := rest
    rw [committedBy_commitKind t fun id mem => lt_of_lt_of_le (family id mem).2 inv.ids.bound] at due
    exact inv.commitAppended found stage hit due ((status_of_lookup norm expl).trans settles.2)
  | error e =>
    obtain ⟨due, expl⟩ := rest
    have status' : wal.state.clog.status top = .inProgress :=
      (status_of_lookup norm (expl.resolve_right fun h => by
        rw [settles.1] at h
        cases h.1)).trans settles.2
    have inv₁ := inv.touch hit found (by simp) here due (life_running life stage hit status')
    exact inv₁.startAbort found (fun id mem => (life' id mem).1) (.inl (by simp [stage]))

theorem flushCommit (inv : Inv w) (found : w.txns top = some t)
    (stage : t.stage = .flushing) (done : FlushDone w.wal.state wal.state) :
    Inv ({ w with wal }.setTxn top { t with stage := .committed }) := by
  have inv₁ := inv.flushed done
  have life := inv₁.lives.life top t found
  unfold Life at life
  simp only [stage] at life
  refine inv₁.restage found rfl (fun id mem => ?_)
    (levels_restage (inv.tables.levels top t found) (by simp) (by simp)) (.inr (.inr done.pending)) (by simp)
  obtain ⟨here, -, queued⟩ := life id mem
  refine ⟨here, (queued done.stays).resolve_left ?_⟩
  rw [done.pending]
  exact not_mem_nil

theorem flushCommitFailed (inv : Inv w) (found : w.txns top = some t)
    (stage : t.stage = .flushing) (same : wal.state.clog = w.wal.state.clog)
    (bad : wal.state.poisoned ≠ none) : Inv ({ w with wal }.setTxn top t.startAbort) := by
  have life := inv.lifeAt found stage
  exact (inv.flushFailed same bad).startAbort found (fun id mem => (life id mem).1) (.inr bad)

/-! Snapshots. -/

theorem capture (inv : Inv w) {own : TxnId} (owner : own = INVALID_XID ∨ ∃ t, w.txns own = some t) :
    Inv { w with
      registry := (w.registry.capture own).2
      snapshots := (own, (w.registry.capture own).1) :: w.snapshots } where
  ids := inv.ids
  lives := inv.lives
  sees e mem := by
    rcases mem_cons.mp mem with rfl | old
    case inr => exact inv.sees e old
    have xmin_active (id : TxnId) (here : id ∈ w.registry.active) :
        w.registry.active.min?.getD w.registry.nextTxnId ≤ id := min?_getD_le_of_mem here
    refine ⟨owner, le_rfl, ?_, ?_, xmin_active, ?_, ?_⟩
    · cases least : w.registry.active.min? with
      | none => simp [Registry.capture, least]
      | some id =>
        simp only [Registry.capture, least, getD_some]
        exact (inv.ids.active_lt id (min?_mem least)).le
    · exact fun id mem => xmin_active id (mem_filter.mp mem).1
    · intro id here other
      exact concurrent_iff.mpr (.inr (mem_filter.mpr ⟨here, by simpa using other⟩))
    intro top t found stage _ _
    right
    intro id mem
    have life := inv.lifeAt found stage
    refine Bool.eq_false_iff.mpr fun concurrent => ?_
    rcases concurrent_iff.mp concurrent with above | running
    · exact absurd (inv.ids.family top t found id mem).2 (not_lt.mpr above)
    · exact life.1 id mem (mem_filter.mp running).1
  xmins := inv.xmins.cons _
  tables := inv.tables

theorem advertise (inv : Inv w) (mem : e ∈ w.snapshots) : Inv { w with
      registry := w.registry.advertiseXmin e.2.xmin
      snapshots := e :: w.snapshots } where
  ids := inv.ids
  lives := inv.lives
  sees e' mem' := (mem_cons.mp mem').elim (fun same => same ▸ inv.sees e mem) (inv.sees e')
  xmins := inv.xmins.cons e.2.xmin
  tables := inv.tables

theorem release (inv : Inv w) (mem : e ∈ w.snapshots) : Inv { w with
      registry := w.registry.releaseAdvertised e.2.xmin
      snapshots := w.snapshots.erase e } where
  ids := inv.ids
  lives := inv.lives
  sees e' mem' := inv.sees e' (mem_of_mem_erase mem')
  xmins := by
    have split := (perm_cons_erase mem).map fun e => e.2.xmin
    have erased := (inv.xmins.trans split).erase e.2.xmin
    simpa [Registry.releaseAdvertised] using erased
  tables := inv.tables

end Inv

end Saguaro.Txn
