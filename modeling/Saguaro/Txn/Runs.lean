/-
Runs of the transactions.

`Moves` is what every step has in common: ids are given out in order, whoever has left
the registry does not come back, and the status of whoever is not registered stays as it
is. With the invariant of `Txn/Invariant.lean` it gives the results about snapshots in
`Txn/Snapshots.lean`.
-/

import Saguaro.Txn.Invariant

namespace Saguaro.Txn

open Wal Crash Transition List Option World

variable {χ : Type} {params : Params χ} {w w' w₁ w₂ w₃ : World} {top id : TxnId} {t : Transaction}
  {result : Result Unit}

structure Moves (w w' : World) : Prop where
  next_le : w.registry.nextTxnId ≤ w'.registry.nextTxnId
  gone : ∀ id, id < w.registry.nextTxnId → id ∉ w.registry.active → id ∉ w'.registry.active
  settled : ∀ id, id < w.registry.nextTxnId → id ∉ w.registry.active → w'.status id = w.status id
  aborted : ∀ id, w.status id = .aborted → w'.status id = .aborted

namespace Moves

/-- Nothing happens to the registrations and the statuses. -/
theorem of_same (next : w'.registry.nextTxnId = w.registry.nextTxnId := by rfl)
    (active : w'.registry.active = w.registry.active := by rfl)
    (clog : w'.wal.state.clog = w.wal.state.clog := by rfl) : Moves w w' where
  next_le := next.ge
  gone _ _ out := active ▸ out
  settled _ _ _ := by simp [World.status, clog]
  aborted _ h := by simpa only [World.status, clog] using h

theorem refl : Moves w w := .of_same

theorem trans (first : Moves w w₁) (second : Moves w₁ w₂) : Moves w w₂ where
  next_le := first.next_le.trans second.next_le
  gone id lt out := second.gone id (lt_of_lt_of_le lt first.next_le) (first.gone id lt out)
  settled id lt out := (second.settled id (lt_of_lt_of_le lt first.next_le)
    (first.gone id lt out)).trans (first.settled id lt out)
  aborted id h := second.aborted id (first.aborted id h)

/-- What is not kept in the registry or the WAL does not matter. -/
theorem congr (moves : Moves w w₁) (reg : w'.registry = w₁.registry := by rfl)
    (wal : w'.wal = w₁.wal := by rfl) : Moves w w' := by
  refine moves.trans (.of_same ?_ ?_ ?_)
  · rw [reg]
  · rw [reg]
  · rw [wal]

theorem touch {wal : FileWal} (touched : Touches w.wal.state wal.state id)
    (here : id ∈ w.registry.active) (keeps : w.status id = .aborted → wal.state.clog.status id = .aborted) :
    Moves w { w with wal } where
  next_le := le_rfl
  gone _ _ out := out
  settled _ _ out := touched.status fun same => out (same ▸ here)
  aborted other h := by
    by_cases same : other = id
    · exact same ▸ keeps (same ▸ h)
    · exact (touched.status same).trans h

variable {faults : List Fault}

theorem append {kind : WalRecordKind χ} (inv : Inv w)
    (found : w.txns top = some t) (mem : id ∈ t.family top) (here : id ∈ w.registry.active)
    (isTxn : kind.isRedoOperation = true ∨ kind.isSettlement = true)
    (open_ : w.status id = .inProgress)
    (added : w.append params id kind faults = some (result, w₁)) : Moves w w₁ := by
  obtain ⟨norm, lt⟩ := inv.ids.family top t found id mem
  obtain ⟨wal, rfl, hit, -⟩ := append_spec
    (ne_of_gt (lt_of_lt_of_le (by decide) norm)) (lt_of_lt_of_le lt inv.ids.bound) isTxn
    added
  exact touch hit here fun abort => absurd (abort.symm.trans open_) (by decide)

theorem appendAbort (inv : Inv w) (found : w.txns top = some t)
    (mem : id ∈ t.family top) (here : id ∈ w.registry.active)
    (added : w.appendAbort params id faults = some w₁) : Moves w w₁ := by
  obtain ⟨norm, lt⟩ := inv.ids.family top t found id mem
  obtain ⟨wal, rfl, hit, -, abort⟩ := appendAbort_spec norm (lt_of_lt_of_le lt inv.ids.bound) added
  exact touch hit here fun _ => abort

theorem flush (inv : Inv w) (flushed : w.flush params faults = some (result, w₁)) : Moves w w₁ := by
  obtain ⟨wal, rfl, rest⟩ := flush_spec flushed
  cases result with
  | error e => exact .of_same rfl rfl rest.1
  | ok =>
    have queued (id : TxnId) (mem : id ∈ w.wal.state.pendingCommits) :
        id ∈ w.registry.active ∧ w.status id ≠ .aborted := by
      obtain ⟨top, t, found, stage, member⟩ := inv.lives.pending rest.available id mem
      have life := inv.lifeAt found stage
      exact ⟨(life id member).1, (life id member).2.1⟩
    have same (id : TxnId) (out : id ∉ w.wal.state.pendingCommits) :
        wal.state.clog.status id = w.wal.state.clog.status id := by
      rw [rest.clog]
      refine Clog.status_congr ?_ (Clog.committedFloor_setAll _)
      rw [Clog.lookup_setAll, if_neg out]
    exact
      { next_le := le_rfl
        gone := fun _ _ out => out
        settled := fun id _ out => same id fun mem => out (queued id mem).1
        aborted := fun id h => (same id fun mem => (queued id mem).2 h).trans h }

theorem deregister {ids : List TxnId} : Moves w (w.deregister ids) where
  next_le := le_rfl
  gone _ _ out mem := out (Inv.mem_deregister.mp mem).1
  settled _ _ _ := rfl
  aborted _ h := h

theorem allocate {registry : Registry} (next : registry.nextTxnId = w.registry.nextTxnId + 1)
    (active : registry.active = w.registry.nextTxnId :: w.registry.active) :
    Moves w { w with registry } where
  next_le := by rw [next]; exact Nat.le_succ _
  gone id lt out := by
    rw [active]
    exact fun mem => (mem_cons.mp mem).elim (ne_of_lt lt) out
  settled _ _ _ := rfl
  aborted _ h := h

theorem registerActiveSubxid {subxid : TxnId} (alloc : w.registerActiveSubxid top = some (subxid, w₁)) :
    Moves w w₁ := by
  obtain ⟨-, ⟨⟩⟩ := ite_none_right_eq_some.mp alloc
  exact .allocate rfl rfl

end Moves

/-- What a step does to the snapshots, the writers of tables and the shared locks. -/
structure Lists (w : World) (event : Event χ) (w' : World) : Prop where
  snapshots : ∀ e ∈ w'.snapshots, e ∈ w.snapshots ∨ e.2 = (w.registry.capture e.1).1
  stamped : ∀ e ∈ w'.stamped, e ∈ w.stamped ∨ ∃ top, (top, e.2) ∈ w.locks
  shares : ∀ e ∈ w.shares, event ≠ .unshare e.1 → e ∈ w'.shares

theorem Lists.of_same {event : Event χ} (snapshots : w'.snapshots = w.snapshots := by rfl)
    (stamped : w'.stamped = w.stamped := by rfl) (shares : w'.shares = w.shares := by rfl) :
    Lists w event w' where
  snapshots _ mem := .inl (snapshots ▸ mem)
  stamped _ mem := .inl (stamped ▸ mem)
  shares _ mem _ := shares ▸ mem

theorem World.append_frame {kind : WalRecordKind χ} {faults : List Fault}
    (added : w.append params id kind faults = some (result, w₁)) : ∃ wal, w₁ = { w with wal } := by
  unfold World.append at added
  split at added <;> cases added <;> exact ⟨_, rfl⟩

theorem World.registerActiveSubxid_frame {subxid : TxnId}
    (allocated : w.registerActiveSubxid top = some (subxid, w₁)) : ∃ registry, w₁ = { w with registry } := by
  obtain ⟨-, same⟩ := ite_none_right_eq_some.mp allocated
  exact ⟨_, (Prod.mk.inj (some.inj same)).2.symm⟩

theorem World.appendAbort_frame {faults : List Fault}
    (added : w.appendAbort params id faults = some w₁) : ∃ wal, w₁ = { w with wal } := by
  unfold World.appendAbort at added
  split at added
  · rename_i appending
    cases added
    exact append_frame appending
  · rename_i appending
    split at added <;> cases added
    exact append_frame appending
  · cases added

/-- A running transaction's members are registered and in progress. -/
theorem Inv.running (inv : Inv w) (found : w.txns top = some t) (stage : t.stage = .running)
    (mem : id ∈ t.family top) : id ∈ w.registry.active ∧ w.status id = .inProgress := by
  exact inv.lifeAt found stage id mem

/-- What a transaction writes is registered and in progress. -/
theorem Inv.writing (inv : Inv w) (found : w.txns top = some t) (stage : t.stage = .running) :
    t.writingXid top ∈ t.family top ∧ t.writingXid top ∈ w.registry.active ∧
      w.status (t.writingXid top) = .inProgress :=
  have mem := Inv.writingXid_mem (inv.tables.levels top t found)
  ⟨mem, inv.running found stage mem⟩

theorem World.inStage_bind {stage : Stage} {f : Transaction → Option World}
    (moved : (w.inStage top stage >>= f) = some w') :
    ∃ t, w.txns top = some t ∧ t.stage = stage ∧ f t = some w' := by
  obtain ⟨t, at_, rest⟩ := bind_eq_some_iff.mp moved
  obtain ⟨found, is⟩ := inStage_eq_some.mp at_
  exact ⟨t, found, is, rest⟩

/-- **A step keeps the invariant**, and it moves only what is registered. -/
theorem Inv.step (inv : Inv w) {event : Event χ} (moved : w.step params event = some w') :
    Inv w' ∧ Moves w w' ∧ Lists w event w' := by
  cases event with
  | begin hasWrites =>
    obtain ⟨room, ⟨⟩⟩ := ite_none_right_eq_some.mp moved
    exact ⟨inv.begin_ room, .congr (.allocate rfl rfl), .of_same⟩
  | savepoint top =>
    obtain ⟨t, found, stage, rest⟩ := inStage_bind moved
    obtain ⟨⟨subxid, w₁⟩, alloc, ⟨⟩⟩ := bind_eq_some_iff.mp rest
    refine ⟨inv.savepoint found stage alloc, .congr (.registerActiveSubxid alloc), ?_⟩
    obtain ⟨reg, rfl⟩ := registerActiveSubxid_frame alloc
    exact .of_same
  | releaseSavepoint top idx =>
    obtain ⟨t, found, stage, ⟨⟩⟩ := inStage_bind moved
    exact ⟨inv.releaseSavepoint idx found stage, .of_same, .of_same⟩
  | lockTable top table =>
    obtain ⟨t, -, -, rest⟩ := inStage_bind moved
    obtain ⟨unshared, ⟨⟩⟩ := ite_none_right_eq_some.mp rest
    exact ⟨inv.lockTable fun s mem => of_decide_eq_true (all_eq_true.mp unshared s mem),
      .of_same, .of_same⟩
  | write top table kind faults =>
    obtain ⟨t, found, stage, rest⟩ := inStage_bind moved
    simp only [ite_none_right_eq_some, Bool.and_eq_true] at rest
    obtain ⟨⟨locked, redo⟩, rest⟩ := rest
    obtain ⟨⟨result, w₁⟩, added, ⟨⟩⟩ := bind_eq_some_iff.mp rest
    obtain ⟨mem, here, open_⟩ := inv.writing found stage
    have moves := Moves.append inv found mem here (.inl redo) open_ added
    have kept := inv.write found stage (contains_iff_mem.mp locked) redo added
    obtain ⟨wal, rfl⟩ := append_frame added
    cases result with
    | ok =>
      refine ⟨kept, moves.congr, fun _ mem => .inl mem, fun e mem => ?_, fun _ mem _ => mem⟩
      rcases mem with _ | ⟨_, mem⟩
      · exact .inr ⟨top, contains_iff_mem.mp locked⟩
      · exact .inl mem
    | error e => exact ⟨kept, moves.congr, .of_same⟩
  | rollbackTo top idx =>
    obtain ⟨t, found, stage, rest⟩ := inStage_bind moved
    obtain ⟨level, at_, ⟨⟩⟩ := bind_eq_some_iff.mp rest
    exact ⟨inv.rollbackTo found stage at_, .of_same, .of_same⟩
  | abortSubxid top faults =>
    obtain ⟨t, found, moved⟩ := bind_eq_some_iff.mp moved
    split at moved
    case h_1 idx level id left stage =>
      obtain ⟨w₁, added, ⟨⟩⟩ := bind_eq_some_iff.mp moved
      have life := inv.lifeAt found stage
      have mem : id ∈ t.family top := .tail _ (life.2.2 id (.head _)).1
      refine ⟨inv.abortRolledBack found stage added,
        .congr (.appendAbort inv found mem (life.1 id mem) added), ?_⟩
      obtain ⟨wal, rfl⟩ := appendAbort_frame added
      exact .of_same
    case h_2 id left stage =>
      obtain ⟨w₁, added, ⟨⟩⟩ := bind_eq_some_iff.mp moved
      have life := inv.lifeAt found stage
      have mem : id ∈ t.family top := .tail _ (life.2.1 id (.head _))
      refine ⟨inv.abortSubxid found stage added,
        .congr (.appendAbort inv found mem (life.1 id mem) added), ?_⟩
      obtain ⟨wal, rfl⟩ := appendAbort_frame added
      exact .of_same
    case h_3 => cases moved
  | deregisterSubxids top =>
    obtain ⟨t, found, moved⟩ := bind_eq_some_iff.mp moved
    split at moved
    case h_1 idx level stage =>
      cases moved
      exact ⟨inv.deregisterRolledBack found stage, .congr .deregister, .of_same⟩
    case h_2 stage =>
      cases moved
      exact ⟨inv.deregisterSubxids found stage, .congr .deregister, .of_same⟩
    case h_3 => cases moved
  | reestablish top =>
    obtain ⟨t, found, moved⟩ := bind_eq_some_iff.mp moved
    split at moved
    case h_1 level stage =>
      obtain ⟨⟨subxid, w₁⟩, alloc, ⟨⟩⟩ := bind_eq_some_iff.mp moved
      refine ⟨inv.reestablish found stage alloc, .congr (.registerActiveSubxid alloc), ?_⟩
      obtain ⟨reg, rfl⟩ := registerActiveSubxid_frame alloc
      exact .of_same
    case h_2 => cases moved
  | commit top faults =>
    obtain ⟨t, found, stage, moved⟩ := inStage_bind moved
    split at moved
    case isTrue =>
      obtain ⟨⟨result, w₁⟩, added, ⟨⟩⟩ := bind_eq_some_iff.mp moved
      have mem : top ∈ t.family top := .head _
      obtain ⟨here, open_⟩ := inv.running found stage mem
      have settles : (t.commitKind (χ := χ)).isSettlement = true := by
        unfold Transaction.commitKind
        split <;> rfl
      have kept := inv.commit found stage added
      have moves := Moves.append inv found mem here (.inr settles) open_ added
      obtain ⟨wal, rfl⟩ := append_frame added
      cases result with
      | ok => exact ⟨kept, moves.congr, .of_same⟩
      | error e => exact ⟨kept, moves.congr, .of_same⟩
    case isFalse =>
      cases moved
      exact ⟨inv.endReadOnly found stage, .congr .deregister, .of_same⟩
  | flushCommit top faults =>
    obtain ⟨t, found, stage, moved⟩ := inStage_bind moved
    obtain ⟨⟨result, w₁⟩, flushed, moved⟩ := bind_eq_some_iff.mp moved
    have moves := Moves.flush inv flushed
    obtain ⟨wal, rfl, rest⟩ := flush_spec flushed
    cases result with
    | ok =>
      cases moved
      exact ⟨inv.flushCommit found stage rest, moves.congr, .of_same⟩
    | error e =>
      obtain ⟨-, ⟨⟩⟩ := ite_none_left_eq_some.mp moved
      exact ⟨inv.flushCommitFailed found stage rest.1 rest.2, moves.congr, .of_same⟩
  | deregisterFamily top =>
    obtain ⟨t, found, stage, ⟨⟩⟩ := inStage_bind moved
    exact ⟨inv.deregisterFamily found stage, .congr .deregister, .of_same⟩
  | abort top =>
    obtain ⟨t, found, stage, ⟨⟩⟩ := inStage_bind moved
    split
    · exact ⟨inv.startAbort found (fun id mem => (inv.running found stage mem).1)
        (.inl (by rw [stage]; nofun)), .of_same, .of_same⟩
    · exact ⟨inv.endReadOnly found stage, .congr .deregister, .of_same⟩
  | abortTop top faults =>
    obtain ⟨t, found, stage, rest⟩ := inStage_bind moved
    obtain ⟨w₁, added, ⟨⟩⟩ := bind_eq_some_iff.mp rest
    have life := inv.lifeAt found stage
    refine ⟨inv.abortTop found stage added,
      .congr (.appendAbort inv found (.head _) life.1 added), ?_⟩
    obtain ⟨wal, rfl⟩ := appendAbort_frame added
    exact .of_same
  | deregisterTop top =>
    obtain ⟨t, found, stage, ⟨⟩⟩ := inStage_bind moved
    exact ⟨inv.deregisterTop found stage, .congr .deregister, .of_same⟩
  | drop top =>
    obtain ⟨t, found, stage, ⟨⟩⟩ := inStage_bind moved
    exact ⟨inv.drop found stage, .of_same, .of_same⟩
  | flush faults =>
    obtain ⟨⟨result, w₁⟩, flushed, rfl⟩ := map_eq_some_iff.mp moved
    have moves := Moves.flush inv flushed
    obtain ⟨wal, rfl, rest⟩ := flush_spec flushed
    cases result with
    | ok => exact ⟨inv.flushed rest, moves, .of_same⟩
    | error e => exact ⟨inv.flushFailed rest.1 rest.2, moves, .of_same⟩
  | capture own =>
    obtain ⟨owner, ⟨⟩⟩ := ite_none_right_eq_some.mp moved
    refine ⟨inv.capture (owner.imp_right fun runs => ?_), .of_same,
      fun e mem => (mem_cons.mp mem).symm.imp_right fun same => by rw [same],
      fun _ mem => .inl mem, fun _ mem _ => mem⟩
    obtain ⟨t, found⟩ := isSome_iff_exists.mp runs
    exact ⟨t, (inStage_eq_some.mp found).1⟩
  | advertise own snap =>
    obtain ⟨mem, ⟨⟩⟩ := ite_none_right_eq_some.mp moved
    refine ⟨inv.advertise mem, .of_same, fun e used => .inl ?_, fun _ mem => .inl mem,
      fun _ mem _ => mem⟩
    exact (mem_cons.mp used).elim (fun same => same ▸ mem) id
  | release own snap =>
    obtain ⟨mem, ⟨⟩⟩ := ite_none_right_eq_some.mp moved
    exact ⟨inv.release mem, .of_same, fun _ used => .inl (mem_of_mem_erase used),
      fun _ mem => .inl mem, fun _ mem _ => mem⟩
  | share top table =>
    obtain ⟨t, -, -, rest⟩ := inStage_bind moved
    obtain ⟨unlocked, ⟨⟩⟩ := ite_none_right_eq_some.mp rest
    exact ⟨inv.share fun l mem => of_decide_eq_true (all_eq_true.mp unlocked l mem),
      .of_same, fun _ mem => .inl mem, fun _ mem => .inl mem, fun _ mem _ => .tail _ mem⟩
  | unshare top =>
    cases moved
    refine ⟨inv.unshare, .of_same, fun _ mem => .inl mem, fun _ mem => .inl mem,
      fun e mem other => mem_filter.mpr ⟨mem, ?_⟩⟩
    exact decide_eq_true fun same => other (congrArg Event.unshare same.symm)

end Saguaro.Txn
