/-
What a captured snapshot sees, over whole runs of the transactions.

* `snapshots_stable_and_atomic`: from the capture on, a snapshot's answer about a writer
  does not change, and it sees all or nothing of every transaction with its savepoints.
* `reclamation_never_outruns_reader`: a version that is dead to all at a garbage
  collection horizon stays invisible to every snapshot.

Both rest on one fact about the order of things: an id that no snapshot in use counts as
concurrent has left the registry, and whoever has left keeps its status (`Moves`).
-/

import Saguaro.Txn.Runs
import Saguaro.Wal.Durability

namespace Saguaro.Txn

open Wal Crash Transition List Option World

variable {χ : Type} {params : Params χ} {w w' w₁ w₂ w₃ : World} {top id own : TxnId}
  {t : Transaction} {snapshot : Snapshot}

/-- The run of the server from its start, with every event admitted. -/
abbrev World.Runs (params : Params χ) : World → List (Event χ) → World → Prop :=
  Run (step params) (fun _ _ => True)

variable {events : List (Event χ)}

theorem Inv.run {ok : World → Event χ → Prop} (inv : Inv w)
    (run : Run (World.step params) ok w events w') : Inv w' ∧ Moves w w' := by
  refine run.invariant (I := fun s => Inv s ∧ Moves w s) ?_ ⟨inv, .refl⟩
  rintro s event s' ⟨inv, moves⟩ - moved
  obtain ⟨inv', next, -⟩ := inv.step moved
  exact ⟨inv', moves.trans next⟩

/-- The ids whose writes the reader `own` sees because they are its own: `live_txns`. A
read outside of a transaction has the invalid id. -/
def Owns (w : World) (own : TxnId) (live : List TxnId) : Prop :=
  own = INVALID_XID ∧ live = [INVALID_XID] ∨ ∃ t, w.txns own = some t ∧ live = t.family own

/-- A writer that a snapshot in use does not count as concurrent is its owner or has left
the registry. -/
theorem Inv.past_of_not_concurrent (inv : Inv w) (mem : (own, snapshot) ∈ w.snapshots)
    (other : id ≠ own) (past : snapshot.concurrent id = false) :
    id < w.registry.nextTxnId ∧ id ∉ w.registry.active := by
  have sees := inv.sees _ mem
  constructor
  · have lt : ¬snapshot.xmax ≤ id := fun le =>
      absurd (Snapshot.concurrent_iff.mpr (.inl le)) (by rw [past]; nofun)
    exact lt_of_lt_of_le (Nat.lt_of_not_le lt) sees.xmax_le
  · intro act
    exact absurd (sees.registered id act other) (by rw [past]; nofun)

/-- Visibility of a writer's effects, as `txnEffectVisible_iff` states it. -/
theorem Inv.sees_stable (inv : Inv w₁) (moves : Moves w₁ w₂) (mem : (own, snapshot) ∈ w₁.snapshots)
    {live live' : List TxnId} (mine : own ∈ live) (mine' : own ∈ live')
    (same : id ∈ live ↔ id ∈ live') :
    (id ∈ live ∨ snapshot.concurrent id = false ∧ w₁.status id = .committed) ↔
      (id ∈ live' ∨ snapshot.concurrent id = false ∧ w₂.status id = .committed) := by
  by_cases self : id = own
  · subst self
    simp [mine, mine']
  refine or_congr same (and_congr_right fun past => ?_)
  obtain ⟨lt, out⟩ := inv.past_of_not_concurrent mem self past
  rw [moves.settled id lt out]

/-- No member of a family that is not done is both committed and gone; a family that is
done is committed as a whole or not at all. -/
theorem Inv.committed_gone (inv : Inv w) (found : w.txns top = some t) (mem : id ∈ t.family top)
    (out : id ∉ w.registry.active) (comm : w.status id = .committed) :
    t.stage = .ended ∧ ∀ id ∈ t.family top, w.status id = .committed := by
  have life := inv.lives.life top t found
  unfold Life at life
  cases stage : t.stage with simp only [stage] at life
  | running | restarting | flushing | committed => exact absurd (life id mem).1 out
  | rollingBack | abortingSubxids => exact absurd (life.1 id mem) out
  | abortingTop =>
    rcases mem_family.mp mem with rfl | sub
    · exact absurd life.1 out
    · exact absurd (comm.symm.trans (life.2 id sub).2) (by decide)
  | aborted =>
    rcases mem_family.mp mem with rfl | sub
    · exact absurd life.1 out
    · exact absurd (comm.symm.trans (life.2.2 id sub).2) (by decide)
  | ended => exact ⟨rfl, life.2.resolve_right fun none => none id mem comm⟩

/-- A family is seen as a whole or not at all. -/
theorem Inv.sees_whole (inv : Inv w) (used : (own, snapshot) ∈ w.snapshots) {live : List TxnId}
    (owns : Owns w own live) (found : w.txns top = some t) :
    (∀ id ∈ t.family top, id ∈ live ∨ snapshot.concurrent id = false ∧ w.status id = .committed) ∨
      ∀ id ∈ t.family top, ¬(id ∈ live ∨ snapshot.concurrent id = false ∧ w.status id = .committed) := by
  have sees := inv.sees _ used
  by_cases same : top = own
  · subst same
    rcases owns with ⟨rfl, -⟩ | ⟨t', found', rfl⟩
    · exact absurd (inv.ids.family _ t found _ (.head _)).1 (by decide)
    · cases found.symm.trans found'
      exact .inl fun id mem => .inl mem
  -- Nobody else's family is the reader's own.
  have foreign (id : TxnId) (mem : id ∈ t.family top) : id ∉ live := by
    rcases owns with ⟨rfl, rfl⟩ | ⟨t', found', rfl⟩
    · intro zero
      have norm := (inv.ids.family top t found id mem).1
      rw [mem_singleton.mp zero] at norm
      exact absurd norm (by decide)
    · exact fun mine => same (inv.ids.disjoint _ _ _ _ id found found' mem mine)
  by_cases seen : ∃ id ∈ t.family top, snapshot.concurrent id = false ∧ w.status id = .committed
  · obtain ⟨id, mem, past, comm⟩ := seen
    have out := (inv.past_of_not_concurrent used (sees.own_notMem inv.ids found same mem) past).2
    obtain ⟨ended, all⟩ := inv.committed_gone found mem out comm
    refine .inl fun other member => .inr ⟨?_, all other member⟩
    refine (sees.whole top t found ended same all).resolve_left (fun none => ?_) other member
    exact absurd (none id mem) (by rw [past]; nofun)
  · push Not at seen
    exact .inr fun id mem =>
      not_or.mpr ⟨foreign id mem, fun ⟨past, comm⟩ => seen id mem past comm⟩

/-- **Snapshots are stable and atomic.** Take a snapshot in use after any run, and the
server after any further events. What the snapshot answers about a writer is the same at
both times, as long as the writer does not become or stop being one of the reader's own;
and at the later time, while it is in use, the snapshot sees all of a transaction and its
savepoints or nothing of them. -/
theorem snapshots_stable_and_atomic {start : World} {before after : List (Event χ)}
    (started : start.Start) (run : World.Runs params start before w₁)
    (captured : (own, snapshot) ∈ w₁.snapshots) (later : World.Runs params w₁ after w₂) :
    (∀ id live live' committedHint abortedHint committedHint' abortedHint',
      own ∈ live → own ∈ live' → (id ∈ live ↔ id ∈ live') →
      HintOk w₁.status id committedHint abortedHint →
      HintOk w₂.status id committedHint' abortedHint' →
      txnEffectVisible id snapshot live w₁.status committedHint abortedHint =
        txnEffectVisible id snapshot live' w₂.status committedHint' abortedHint') ∧
    ((own, snapshot) ∈ w₂.snapshots → ∀ top t live, w₂.txns top = some t → Owns w₂ own live →
      ∀ hints : TxnId → Bool × Bool,
        (∀ id ∈ t.family top, HintOk w₂.status id (hints id).1 (hints id).2) → (∀ id ∈ t.family top,
          txnEffectVisible id snapshot live w₂.status (hints id).1 (hints id).2 = true) ∨
        ∀ id ∈ t.family top,
          txnEffectVisible id snapshot live w₂.status (hints id).1 (hints id).2 = false) := by
  have inv₁ := (started.inv.run run).1
  obtain ⟨inv₂, moves⟩ := inv₁.run later
  constructor
  · intro id live live' _ _ _ _ mine mine' same hint hint'
    rw [Bool.eq_iff_iff, txnEffectVisible_iff hint, txnEffectVisible_iff hint']
    exact inv₁.sees_stable moves captured mine mine' same
  · intro used top t live found owns hints right
    refine (inv₂.sees_whole used owns found).imp (fun all id mem => ?_) fun none id mem => ?_
    · exact (txnEffectVisible_iff (right id mem)).mpr (all id mem)
    · exact Bool.eq_false_iff.mpr fun sees =>
        none id mem ((txnEffectVisible_iff (right id mem)).mp sees)

/-! ### A concrete run -/

/-- The server with an empty log, right after its start. -/
def World.boot (params : Params χ) : Option World :=
  match openWal params ⟨Disk.empty, []⟩ with
  | (.ok st, m) => some ⟨⟨m.state, st⟩, .new FIRST_NORMAL_XID, fun _ => none, [], [], [], []⟩
  | _ => none

def World.booted (w : World) : Bool :=
  w.wal.state.clog.committedFloor = FIRST_NORMAL_XID && w.wal.state.clog.statuses.entries.isEmpty &&
    w.wal.state.pendingCommits.isEmpty

theorem World.start_of_boot (booting : World.boot params = some w) (booted : w.booted = true) :
    w.Start := by
  simp only [World.booted, Bool.and_eq_true, decide_eq_true_eq, List.isEmpty_iff] at booted
  obtain ⟨⟨floor, empty⟩, pending⟩ := booted
  unfold World.boot at booting
  split at booting
  case h_2 => cases booting
  cases booting
  exact
    { bound := show FIRST_NORMAL_XID ≤ 2 ^ 64 by decide
      normal := le_rfl
      floor := floor.le
      fresh := fun id _ => by
        rw [AList.lookup, empty]
        rfl
      pending, active := rfl, xmins := rfl, txns := fun _ => rfl, snapshots := rfl, locks := rfl
      shares := rfl, stamped := nofun }

theorem World.runs_of_exec
    (done : exec (step params) (fun _ _ => true) w events = some w') : Runs params w events w' :=
  (Run.of_exec done).mono fun _ _ _ => trivial

/-- Transaction 3 writes to table 7, and again after a savepoint, which gives it the id 4 as
well, while a reader captures a snapshot. -/
def writing : List (Event Empty) :=
  [.begin true, .lockTable 3 7, .write 3 7 (.heapInit 0 0) [], .savepoint 3,
    .write 3 7 (.heapInit 0 0) [], .capture 0]

/-- Transaction 3 commits, and another reader captures a snapshot. -/
def committing : List (Event Empty) :=
  [.commit 3 [], .flushCommit 3 [], .deregisterFamily 3, .drop 3, .capture 0]

/-- The reader that was there before the commit does not see it, and still does not see it
afterwards; the one that came later sees it. -/
theorem snapshots_stable_and_atomic_writer :
    let params := Params.small ⟨0, 0, 3, 3, [], [], []⟩
    ∃ start w₁ w₂ t, start.Start ∧ World.Runs params start writing w₁ ∧
      (0, ⟨3, 5, [4, 3]⟩) ∈ w₁.snapshots ∧ World.Runs params w₁ committing w₂ ∧
      w₂.txns 3 = some t ∧ t.family 3 = [3, 4] ∧ w₂.status 4 = .committed ∧
      txnEffectVisible 4 ⟨3, 5, [4, 3]⟩ [0] w₁.status false false =
        txnEffectVisible 4 ⟨3, 5, [4, 3]⟩ [0] w₂.status false false ∧
      ((∀ id ∈ t.family 3, txnEffectVisible id ⟨3, 5, [4, 3]⟩ [0] w₂.status false false = true) ∨
        ∀ id ∈ t.family 3, txnEffectVisible id ⟨3, 5, [4, 3]⟩ [0] w₂.status false false = false) := by
  intro params
  have done : ((World.boot params).bind fun start =>
      (exec (World.step params) (fun _ _ => true) start writing).bind fun w₁ =>
        (exec (World.step params) (fun _ _ => true) w₁ committing).map fun w₂ =>
          (start.booted, decide ((0, ⟨3, 5, [4, 3]⟩) ∈ w₁.snapshots),
            decide ((0, ⟨3, 5, [4, 3]⟩) ∈ w₂.snapshots),
            decide ((w₂.txns 3).map (·.family 3) = some [3, 4]), w₂.status 4)) =
      some (true, true, true, true, .committed) := by decide +kernel
  obtain ⟨start, booting, rest⟩ := bind_eq_some_iff.mp done
  obtain ⟨w₁, wrote, rest⟩ := bind_eq_some_iff.mp rest
  obtain ⟨w₂, settled, values⟩ := map_eq_some_iff.mp rest
  simp only [Prod.mk.injEq, decide_eq_true_eq, map_eq_some_iff] at values
  obtain ⟨booted, captured, used, ⟨t, found, family⟩, committed⟩ := values
  have started := World.start_of_boot booting booted
  have run := World.runs_of_exec wrote
  have later := World.runs_of_exec settled
  obtain ⟨stable, atomic⟩ := snapshots_stable_and_atomic started run captured later
  have unknown (status : TxnId → TxnStatus) (id : TxnId) : HintOk status id false false := ⟨nofun, nofun⟩
  exact ⟨start, w₁, w₂, t, started, run, captured, later, found, family, committed,
    stable 4 [0] [0] _ _ _ _ (by decide) (by decide) Iff.rfl (unknown _ _) (unknown _ _),
    atomic used 3 t [0] found (.inl ⟨rfl, rfl⟩) (fun _ => (false, false)) fun id _ => unknown _ id⟩

/-! ### The horizon -/

/-- `ServerComponents::gc_horizon`: the oldest advertised `xmin` is read under the latch; if
there is none, the next id is loaded afterwards, without the latch. -/
def gcHorizonRead (latched loaded : Registry) : TxnId := latched.oldestXmin.getD loaded.nextTxnId

/-- A reader at work: it sees the writes of ids of its running transaction. -/
def Reads (w : World) (own : TxnId) (live : List TxnId) : Prop :=
  own = INVALID_XID ∧ live = [INVALID_XID] ∨
    ∃ t, w.inStage own .running = some t ∧ live ⊆ t.family own

/-- Every snapshot in use, and so every one to come, has `id` in its past. -/
structure Past (w : World) (id : TxnId) : Prop where
  lt : id < w.registry.nextTxnId
  out : id ∉ w.registry.active
  seen : ∀ e ∈ w.snapshots, e.2.concurrent id = false

theorem Past.step {event : Event χ} (past : Past w id) (moves : Moves w w') (lists : Lists w event w') :
    Past w' id where
  lt := lt_of_lt_of_le past.lt moves.next_le
  out := moves.gone id past.lt past.out
  seen e mem := by
    rcases lists.snapshots e mem with used | captured
    · exact past.seen e used
    · rw [captured, Bool.eq_false_iff, ne_eq, Snapshot.concurrent_iff, not_or]
      exact ⟨not_le.mpr past.lt, fun xip => past.out (mem_filter.mp xip).1⟩

theorem Past.run {ok : World → Event χ → Prop} (inv : Inv w)
    (past : Past w id) (run : Run (World.step params) ok w events w') : Past w' id := by
  refine (run.invariant (I := fun s => Inv s ∧ Past s id) ?_ ⟨inv, past⟩).2
  rintro s event s' ⟨inv, past⟩ - moved
  obtain ⟨inv', moves, lists⟩ := inv.step moved
  exact ⟨inv', past.step moves lists⟩

/-- Whoever is below the `xmin`s of all snapshots in use is in the past of everyone. -/
theorem Inv.past_of_lt_oldestXmin (inv : Inv w) {horizon : TxnId}
    (oldest : w.registry.oldestXmin = some horizon) (lt : id < horizon) : Past w id := by
  have least : ∀ e ∈ w.snapshots, horizon ≤ e.2.xmin := fun e mem =>
    (min?_eq_some_iff.mp oldest).2 _ (inv.xmins.mem_iff.mpr (mem_map_of_mem mem))
  obtain ⟨e, mem, same⟩ : ∃ e ∈ w.snapshots, e.2.xmin = horizon :=
    mem_map.mp (inv.xmins.mem_iff.mp (min?_eq_some_iff.mp oldest).1)
  have sees := inv.sees e mem
  refine ⟨?_, fun act => ?_, fun e' mem' => ?_⟩
  · exact lt_of_lt_of_le lt (same ▸ sees.xmin_le.trans sees.xmax_le)
  · exact absurd (sees.xmin_active id act) (not_le.mpr (same ▸ lt))
  have below : id < e'.2.xmin := lt_of_lt_of_le lt (least e' mem')
  have sees' := inv.sees e' mem'
  rw [Bool.eq_false_iff, ne_eq, Snapshot.concurrent_iff, not_or]
  exact ⟨not_le.mpr (lt_of_lt_of_le below sees'.xmin_le),
    fun xip => absurd (sees'.xip id xip) (not_le.mpr below)⟩

variable {table : TableId}

/-- While a table is locked against writers, nobody new writes to it. -/
theorem Inv.stamped_of_share {v : TxnId} (inv : Inv w)
    (shared : (v, table) ∈ w.shares) (kept : ∀ event ∈ events, event ≠ .unshare v)
    (run : Runs params w events w') : (id, table) ∈ w'.stamped → (id, table) ∈ w.stamped := by
  induction run with
  | nil => exact fun stamped => stamped
  | cons _ moved _ ih =>
    obtain ⟨inv', -, lists⟩ := inv.step moved
    intro stamped
    have shared' := lists.shares _ shared (kept _ (.head _))
    have mid := ih inv' shared' (fun event mem => kept event (.tail _ mem)) stamped
    refine (lists.stamped _ mid).resolve_right fun ⟨top, locked⟩ => ?_
    exact inv.tables.exclusive _ locked _ shared rfl

/-- Nobody who has written to a table that is locked against writers is registered. -/
theorem Inv.out_of_share (inv : Inv w) {v : TxnId} (shared : (v, table) ∈ w.shares)
    (stamped : (id, table) ∈ w.stamped) : id ∉ w.registry.active := by
  intro act
  obtain ⟨top, t, -, -, locked⟩ := inv.tables.locked _ stamped act
  exact inv.tables.exclusive _ locked _ shared rfl

/-- The deleter of a version below the horizon is in the past of everyone since the
horizon was read. -/
theorem Inv.past_of_lt_horizon (inv : Inv w) {loads judges : List (Event χ)}
    (loading : Runs params w loads w₁) (judging : Runs params w₁ judges w₂)
    (reader : w.snapshots ≠ [] ∨
      ∃ v, (v, table) ∈ w.shares ∧ ∀ event ∈ loads ++ judges, event ≠ .unshare v)
    (stamped : (id, table) ∈ w₂.stamped) (lt : id < gcHorizonRead w.registry w₁.registry) :
    Past w id := by
  unfold gcHorizonRead at lt
  cases oldest : w.registry.oldestXmin with
  | some horizon =>
    rw [oldest] at lt
    exact inv.past_of_lt_oldestXmin oldest lt
  | none =>
    have unused : w.snapshots = [] := by
      have none : w.registry.xmins = [] := min?_eq_none_iff.mp oldest
      have same := inv.xmins
      rw [none] at same
      exact map_eq_nil_iff.mp (nil_perm.mp same)
    -- Without a snapshot the horizon may lie above ids that are running.
    obtain ⟨v, shared, kept⟩ := reader.resolve_left (· unused)
    have prior := inv.stamped_of_share shared kept (loading.append judging) stamped
    exact ⟨inv.tables.stamped_lt _ prior, inv.out_of_share shared prior, by simp [unused]⟩

/-- **Reclamation never outruns a reader.** The horizon is read (`w₁`, and `w₂` for the
next id) by a statement that holds a snapshot, or by VACUUM under a table lock that it
keeps; a version of the table is then judged dead to all (`w₃`). From there on no
snapshot in use, old or new, makes the version visible to its reader. -/
theorem reclamation_never_outruns_reader {start : World} {w₄ : World}
    {before loads judges after : List (Event χ)} {table : TableId} {xmin xmax : TxnId}
    {infomask infomask' : UInt16} {live : List TxnId} (started : start.Start)
    (run : World.Runs params start before w₁) (loading : World.Runs params w₁ loads w₂)
    (judging : World.Runs params w₂ judges w₃)
    (reader : w₁.snapshots ≠ [] ∨
      ∃ v, (v, table) ∈ w₁.shares ∧ ∀ event ∈ loads ++ judges, event ≠ .unshare v)
    (stamped : xmax = INVALID_XID ∨ (xmax, table) ∈ w₃.stamped)
    (hints : HintsOk w₃.status xmin xmax infomask)
    (dead : isDeadToAll xmin xmax infomask (gcHorizonRead w₁.registry w₂.registry) w₃.status = true)
    (later : World.Runs params w₃ after w₄) (used : (own, snapshot) ∈ w₄.snapshots)
    (reads : Reads w₄ own live) (hints' : HintsOk w₄.status xmin xmax infomask') :
    isVisible xmin xmax infomask' snapshot live w₄.status = false := by
  have inv₁ := (started.inv.run run).1
  obtain ⟨inv₃, moves⟩ := inv₁.run (loading.append judging)
  obtain ⟨inv₄, moves'⟩ := inv₃.run later
  rw [Bool.eq_false_iff, ne_eq, isVisible_iff hints']
  rintro ⟨created, deleted⟩
  rcases (isDeadToAll_iff hints).mp dead with aborted | ⟨valid, lt, committed⟩
  · -- The creator stays aborted, and it is not one of a running transaction's ids.
    have aborted' := moves'.aborted xmin aborted
    rcases created with mine | ⟨-, committed⟩
    · rcases reads with ⟨-, rfl⟩ | ⟨t, running, own⟩
      · rw [mem_singleton.mp mine] at aborted'
        exact absurd aborted' (by simp [World.status, Clog.status, INVALID_XID, FIRST_NORMAL_XID])
      · obtain ⟨found, stage⟩ := World.inStage_eq_some.mp running
        have open_ := (inv₄.running found stage (own mine)).2
        exact absurd (aborted'.symm.trans open_) (by decide)
    · exact absurd (aborted'.symm.trans committed) (by decide)
  · -- The deleter left before the horizon was read, and its commit is seen by everyone.
    have past := inv₁.past_of_lt_horizon loading judging reader (stamped.resolve_left valid) lt
    have past₃ := past.run inv₁ (loading.append judging)
    have settled := (moves'.settled xmax past₃.lt past₃.out).trans committed
    exact (deleted.resolve_left valid) (.inr ⟨(past₃.run inv₃ later).seen _ used, settled⟩)

/-- VACUUM, as transaction 5, has locked the table after transaction 3 deleted a version
and committed; a reader that comes afterwards does not miss the version. -/
theorem reclamation_never_outruns_reader_vacuum :
    let params := Params.small ⟨0, 0, 3, 3, [], [], []⟩
    ∃ start w w', start.Start ∧ World.Runs params start (writing ++ committing ++
        [.release 0 ⟨3, 5, [4, 3]⟩, .release 0 ⟨5, 5, []⟩, .begin true, .share 5 7]) w ∧
      World.Runs params w [.capture 0] w' ∧
      isDeadToAll 1 3 0 (gcHorizonRead w.registry w.registry) w.status = true ∧
      isVisible 1 3 0 ⟨5, 6, [5]⟩ [0] w'.status = false := by
  intro params
  have done : ((World.boot params).bind fun start =>
      (exec (World.step params) (fun _ _ => true) start (writing ++ committing ++
        [.release 0 ⟨3, 5, [4, 3]⟩, .release 0 ⟨5, 5, []⟩, .begin true, .share 5 7])).bind fun w =>
        (exec (World.step params) (fun _ _ => true) w [.capture 0]).map fun w' =>
          (start.booted, decide ((5, 7) ∈ w.shares), decide ((3, 7) ∈ w.stamped),
            isDeadToAll 1 3 0 (gcHorizonRead w.registry w.registry) w.status,
            decide ((0, ⟨5, 6, [5]⟩) ∈ w'.snapshots))) =
      some (true, true, true, true, true) := by decide +kernel
  obtain ⟨start, booting, rest⟩ := bind_eq_some_iff.mp done
  obtain ⟨w, vacuum, rest⟩ := bind_eq_some_iff.mp rest
  obtain ⟨w', capture, values⟩ := map_eq_some_iff.mp rest
  simp only [Prod.mk.injEq, decide_eq_true_eq] at values
  obtain ⟨booted, shared, stamped, dead, used⟩ := values
  have started := World.start_of_boot booting booted
  have run := World.runs_of_exec vacuum
  have later := World.runs_of_exec capture
  have unknown (status : TxnId → TxnStatus) : HintsOk status 1 3 0 := by
    constructor <;> constructor <;> exact fun hint => absurd hint (by decide)
  exact ⟨start, w, w', started, run, later, dead,
    reclamation_never_outruns_reader started run (.nil w) (.nil w) (.inr ⟨5, shared, nofun⟩)
      (.inr stamped) (unknown _) dead later used (.inl ⟨rfl, rfl⟩) (unknown _)⟩

end Saguaro.Txn
