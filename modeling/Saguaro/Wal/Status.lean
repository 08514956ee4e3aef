/-
What appending and flushing do to the statuses, whatever happens on the disk.

The rules of `Wal/Manager.lean` speak of a manager whose directory is in order. The
sessions need less, and need it of every manager: an append publishes the status of its
writer and queues what it commits, a flush that returns has published the queue, and one
that fails leaves a manager that never flushes again.
-/

import Saguaro.Wal.Manager

namespace Saguaro.Wal

open Crash FileWal

variable {χ : Type} {params : Params χ} {st : WalState} {d : Disk}

/-- What a failed append leaves: a settlement is published all the same. -/
structure AppendFailed (record : WalRecord χ) (st st' : WalState) : Prop where
  pending : st'.pendingCommits = st.pendingCommits
  poisoned : st.poisoned ≠ none → st'.poisoned ≠ none
  clog : st'.clog = publishStatus record st.clog ∨
    record.kind.isSettlement = false ∧ st'.clog = st.clog

/-- What an append that returned has done. -/
structure AppendDone (record : WalRecord χ) (st st' : WalState) : Prop where
  available : st.poisoned = none
  stays : st'.poisoned = none
  pending : st'.pendingCommits = st.pendingCommits ++ committedBy record
  clog : st'.clog = publishStatus record st.clog

/-- What a flush that returned has done. -/
structure FlushDone (st st' : WalState) : Prop where
  available : st.poisoned = none
  stays : st'.poisoned = none
  pending : st'.pendingCommits = []
  clog : st'.clog = st.clog.setAll st.pendingCommits .committed

theorem wp_appendRecord_status (record : WalRecord χ) :
    WP True (fun _ => True) (appendRecord params record)
      (fun _ wal => st.poisoned = none ∧ wal.state.poisoned = none ∧ wal.state.clog = st.clog ∧
        wal.state.pendingCommits = st.pendingCommits ++ committedBy record)
      (fun wal => wal.state.clog = st.clog ∧ wal.state.pendingCommits = st.pendingCommits ∧
        (st.poisoned ≠ none → wal.state.poisoned ≠ none)) ⟨d, st⟩ := by
  apply WP.bind
  cases avail : st.poisoned with
  | some error =>
    have bad : st.poisoned ≠ none := by simp [avail]
    exact wp_lockState_poisoned bad ⟨rfl, rfl, fun _ => bad⟩
  | none =>
    refine wp_lockState avail ?_
    apply WP.bind
    cases enc : encodeRecordAt params.serde record st.writtenLsn with
    | error err => exact WP.throw ⟨rfl, rfl, fun h => absurd rfl h⟩
    | ok res =>
      obtain ⟨kept, frame⟩ := res
      have same : committedBy kept = committedBy record := by
        obtain ⟨txnId, kind⟩ := encodeRecordAt_eq enc
        rw [committedBy, committedBy, txnId, kind]
      apply WP.pure
      apply WP.bind
      apply WP.tryCatch
      apply WP.zoom
      refine WP.any (fun _ t => ?_) (fun t err => ?_) fun _ => trivial
      · apply WP.bind
        apply wp_update
        exact WP.pure ⟨rfl, avail, rfl, by rw [same]⟩
      apply WP.bind
      apply WP.bind
      apply WP.gets
      apply WP.bind
      apply WP.tryCatch
      apply WP.zoom
      refine WP.any (fun _ t => ?_) (fun t err' => ?_) fun _ => trivial
      · apply wp_update
        exact WP.throw ⟨rfl, rfl, fun h => absurd rfl h⟩
      apply WP.bind
      apply wp_poison
      exact WP.throw ⟨rfl, rfl, fun h => absurd rfl h⟩

/-- **Appending**, as far as the statuses are concerned. -/
theorem wp_appendPositioned_status (record : WalRecord χ) :
    WP True (fun _ => True) (appendPositioned params record)
      (fun _ wal => AppendDone record st wal.state) (fun wal => AppendFailed record st wal.state)
      ⟨d, st⟩ := by
  apply WP.bind
  apply WP.gets
  apply WP.bind
  refine WP.ensure (fun _ => ?_) fun refused => ?_
  · apply WP.bind
    apply wp_update
    refine WP.mono (wp_appendRecord_status record) ?_ ?_ fun _ h => h
    · rintro _ wal ⟨avail, stays, clog, due⟩
      exact ⟨avail, stays, due, clog⟩
    · rintro wal ⟨clog, due, bad⟩
      exact ⟨due, bad, .inl clog⟩
  · simp only [Bool.not_eq_eq_eq_not, Bool.not_false, Bool.and_eq_true] at refused
    exact ⟨rfl, id, .inr ⟨by simpa using refused.1.2, rfl⟩⟩

theorem wp_giveUpFlush_status (reason report : DbError) {Q : Unit → FileWal → Prop} :
    WP True (fun _ => True) (giveUpFlush params reason report) Q
      (fun wal => wal.state.clog = st.clog ∧ wal.state.poisoned ≠ none) ⟨d, st⟩ := by
  apply WP.bind
  apply WP.tryCatch
  apply WP.bind
  apply WP.gets
  apply WP.bind
  apply WP.zoom
  refine WP.any (fun _ t => ?_) (fun t err => ?_) fun _ => trivial
  · apply wp_update
    apply WP.bind
    apply wp_poison
    exact WP.throw ⟨rfl, by simp⟩
  · apply WP.bind
    apply wp_poison
    exact WP.throw ⟨rfl, by simp⟩

/-- A program on the directory leaves the manager's state. -/
theorem wp_onDisk_status {α : Type} {c : Prog DbError Disk α} {wal : FileWal} (same : wal.state = st) :
    WP True (fun _ => True) (onDisk c) (fun _ wal => wal.state = st) (fun wal => wal.state = st) wal := by
  apply WP.zoom
  exact WP.any (fun _ _ => same) (fun _ => same) fun _ => trivial

theorem wp_syncUnflushed_status :
    WP True (fun _ => True) syncUnflushed (fun _ wal => wal.state = st) (fun wal => wal.state = st)
      ⟨d, st⟩ := by
  apply WP.bind
  apply WP.gets
  cases st.unflushedFirstSegment with
  | none => exact WP.pure rfl
  | some first =>
    refine WP.forEach (fun _ (wal : FileWal) => wal.state = st) (fun number _ wal same => ?_) _ rfl
    apply WP.bind
    apply WP.when
    · intro _
      apply WP.bind
      refine WP.mono (wp_onDisk_status same) (fun _ t same => ?_) (fun _ h => h) fun _ h => h
      exact WP.pure (wp_onDisk_status same)
    · exact fun _ => wp_onDisk_status same

theorem wp_writeDurableEnd_status :
    WP True (fun _ => True) (writeDurableEnd params) (fun _ wal => wal.state = st)
      (fun wal => wal.state.clog = st.clog ∧ wal.state.poisoned ≠ none) ⟨d, st⟩ := by
  apply WP.bind
  apply WP.gets
  apply WP.bind
  apply wp_walOnDisk
  apply wp_writeMetaWithOutcome
  · exact WP.pure rfl
  · intro _ error
    exact wp_giveUpFlush_status _ _
  · intro _ error
    apply WP.bind
    apply wp_poison
    exact WP.throw ⟨rfl, by simp⟩
  · exact fun _ => trivial
  · exact fun _ => trivial

/-- **Flushing**, as far as the statuses are concerned. -/
theorem wp_flush_status :
    WP True (fun _ => True) (FileWal.flush params) (fun _ wal => FlushDone st wal.state)
      (fun wal => wal.state.clog = st.clog ∧ wal.state.poisoned ≠ none) ⟨d, st⟩ := by
  apply WP.bind
  cases avail : st.poisoned with
  | some error =>
    have bad : st.poisoned ≠ none := by simp [avail]
    exact wp_lockState_poisoned bad ⟨rfl, bad⟩
  | none =>
    refine wp_lockState avail ?_
    have publish (wal : FileWal) (same : wal.state = st) : WP True (fun _ => True) (do
            update fun state => { state with
              flushedLsn := state.writtenLsn
              clog := state.clog.setAll state.pendingCommits .committed
              pendingCommits := []
              unflushedFirstSegment := none }
            Prog.gets fun wal => wal.state.flushedLsn)
          (fun _ wal => FlushDone st wal.state)
          (fun wal => wal.state.clog = st.clog ∧ wal.state.poisoned ≠ none) wal := by
      apply WP.bind
      apply wp_update
      apply WP.gets
      subst same
      exact ⟨avail, avail, rfl, rfl⟩
    apply WP.bind
    apply WP.tryCatch
    refine WP.mono wp_syncUnflushed_status (fun _ wal same => ?_) (fun wal same err => ?_) fun _ h => h
    · obtain ⟨disk, state⟩ := wal
      obtain rfl : state = st := same
      apply WP.bind
      apply WP.when
      · exact fun _ => WP.mono wp_writeDurableEnd_status (fun _ => publish) (fun _ h => h) fun _ h => h
      · exact fun _ => publish _ rfl
    · obtain ⟨disk, state⟩ := wal
      obtain rfl : state = st := same
      exact wp_giveUpFlush_status _ _

/-- What a flush under any faults ends in. -/
theorem flush_cases (params : Params χ) (wal : FileWal) (faults : List Fault) :
    (∃ a m, FileWal.flush params ⟨wal, faults⟩ = (.ok a, m) ∧ FlushDone wal.state m.state.state) ∨
    (∃ e m, FileWal.flush params ⟨wal, faults⟩ = (.error e, m) ∧
      m.state.state.clog = wal.state.clog ∧ m.state.state.poisoned ≠ none) ∨
    ∃ m, FileWal.flush params ⟨wal, faults⟩ = (.stopped, m) := by
  rcases WP.run wp_flush_status faults with done | failed | ⟨m, stopped, -⟩
  · exact .inl done
  · exact .inr (.inl failed)
  · exact .inr (.inr ⟨m, stopped⟩)

end Saguaro.Wal
