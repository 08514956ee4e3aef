/-
What the conflict manager still knows of a schedule.

Every antidependency between concurrent transactions has an edge as soon as both
calls were made, in either order, at either grain and under any savepoint id. Edges
go with a transaction's entry, and the entry of a committed transaction goes when
a release finds its snapshot's `xmax` at or below the horizon. A transaction that
has not ended holds an advertised snapshot, and the horizon is never above its
`xmin`, so what it is concurrent with stays (`antidependency_recorded`).

The horizon is read before the manager's lock is taken. A session that holds no
snapshot of its own can read it, wait, and release with it after two transactions
captured their snapshots and one of them ended: `edge_lost_to_stale_horizon`.
-/

import Saguaro.Ssi.Conflicts

namespace Saguaro.Ssi

open List Option Function AList World Phase

open World (rwDep)
open Transition

variable {K : Type} [DecidableEq K]

/-- A release uses a horizon that is not above the registry's current one. -/
def withinHorizon (w : World K) : Action K → Bool
  | .releaseUpTo gcHorizon => decide (gcHorizon ≤ w.registry.gcHorizon)
  | _ => true

/-- Not aborted. -/
def Phase.isLive : Phase → Bool
  | .rolledBack | .aborted => false
  | _ => true

theorem Phase.eq_finished_of_over_live {p : Phase} (ended : p.isOver = true)
    (live : p.isLive = true) : p = .finished := by
  cases p <;> first | rfl | simp [isOver, isLive] at ended live

structure Tracked (w : World K) : Prop where
  env : w.EnvOk
  graph : GraphOk w.ssi w.snap w.reads w.writes
  life : LifeOk w.ssi w.phase w.seq w.reads w.writes
  purge : PurgeOk w.ssi w.snap w.held w.reads w.writes w.commits

omit [DecidableEq K] in
theorem World.actor_eq {w : World K} {xid top : TxnId} (h : w.actor xid = some top) :
    top = w.registry.topOf xid ∧ w.phase top = .running := by
  unfold actor at h
  split at h
  · rename_i ok
    cases h
    exact ⟨rfl, ok.2⟩
  · cases h

omit [DecidableEq K] in
/-- The three outcomes of a commit check: a transaction the manager does not know
passes, a doomed one is refused, and any other is stamped. -/
theorem check_cases (w : World K) (top : TxnId) :
    (top ∉ w.ssi.txns ∧ w.check top = w.setPhase top .checked) ∨
    w.check top = w.setPhase top .rejected ∨
    ∃ x, w.ssi.txns.lookup top = some x ∧ isDoomedPivot w.ssi top = false ∧
      w.check top = { w.setPhase top .checked with
        ssi := { w.ssi with
          nextCommitSeq := w.ssi.nextCommitSeq + 1
          txns := w.ssi.txns.insert top { x with commitSeq := some w.ssi.nextCommitSeq } }
        seq := update w.seq top (some w.ssi.nextCommitSeq)
        committedPivots := if outStamped w.ssi top then top :: w.committedPivots
          else w.committedPivots } := by
  cases hx : w.ssi.txns.lookup top with
  | none =>
    have untracked : top ∉ w.ssi.txns := by
      rw [← lookup_isSome, hx]
      simp
    have passed : commitCheck w.ssi top = (w.ssi, .ok ()) := by simp [commitCheck, hx]
    have silent : outStamped w.ssi top = false := by simp [outStamped, hx]
    refine .inl ⟨untracked, ?_⟩
    simp [check, passed, silent, untracked, setPhase]
  | some x =>
    have known : top ∈ w.ssi.txns := lookup_isSome.mp (by simp [hx])
    rcases commitCheck_cases hx with ⟨e, refused⟩ | ⟨undoomed, passed⟩
    · refine .inr (.inl ?_)
      simp [check, refused, setPhase]
    · refine .inr (.inr ⟨x, rfl, undoomed, ?_⟩)
      simp [check, passed, known]

/-- Every action keeps the sessions' invariant, whatever horizon a release uses. -/
theorem World.EnvOk.step {w w' : World K} {a : Action K} (h : w.EnvOk)
    (taken : w.step a = some w') : w'.EnvOk := by
  cases a <;> simp only [World.step, World.read, World.write, ite_none_right_eq_some,
    bind_eq_some_iff, map_eq_some_iff, some.injEq] at taken
  case begin =>
    subst taken
    exact h.begin
  case savepoint =>
    obtain ⟨-, rfl⟩ := taken
    exact h.savepoint
  case rollbackTo =>
    obtain ⟨own, rfl⟩ := taken
    exact h.rollbackTo own.2
  case capture =>
    obtain ⟨first, rfl⟩ := taken
    exact h.capture first.1 first.2
  case commitCheck top =>
    obtain ⟨runs, rfl⟩ := taken
    have open_ : ∀ p, p = .checked ∨ p = .rejected → (w.setPhase top p).EnvOk := by
      rintro p (rfl | rfl) <;> exact h.rephase (by simp [runs]) (by simp)
        (by simp [runs, isOpen]) (fun _ => by rw [runs]; rfl) (by simp [runs])
    rcases check_cases w top with ⟨-, eq⟩ | eq | ⟨x, -, -, eq⟩ <;> rw [eq]
    · exact open_ .checked (.inl rfl)
    · exact open_ .rejected (.inr rfl)
    · exact open_ .checked (.inl rfl)
  case settle =>
    obtain ⟨ready, rfl⟩ := taken
    exact h.deregister (by obtain p | ⟨p, -⟩ := ready <;> rw [p] <;> rfl) (.inl ⟨rfl, rfl⟩)
  case finish =>
    obtain ⟨fixed, rfl⟩ := taken
    exact h.rephase (by simp [fixed]) (by simp) (by simp [fixed, isOpen])
      (by simp [isOver]) (by simp [fixed])
  case rollback =>
    obtain ⟨isOpen, rfl⟩ := taken
    exact h.deregister (by obtain p | p | p := isOpen <;> rw [p] <;> rfl) (.inr ⟨rfl, rfl⟩)
  case aborted =>
    obtain ⟨rolledBack, rfl⟩ := taken
    exact h.rephase (by simp [rolledBack]) (by simp) (by simp [rolledBack, isOpen])
      (by simp [isOver]) (by simp [rolledBack])
  case dropSnapshot =>
    obtain ⟨ended, s, hs, rfl⟩ := taken
    exact h.dropSnapshot (by obtain p | p := ended.1 <;> rw [p] <;> rfl) ended.2 hs
  -- The others leave the sessions' fields alone.
  case register =>
    obtain ⟨-, -, -, -, rfl⟩ := taken
    exact h
  case recordTupleRead | recordRelationRead | noteWrite | noteRelationWrite =>
    obtain ⟨-, -, rfl⟩ := taken
    exact h
  case promote | releaseUpTo =>
    subst taken
    exact h

namespace Tracked

variable {w w' : World K} {top : TxnId}

theorem init (first : TxnId) : Tracked (World.init K first) where
  env := .init first
  graph := by constructor <;> simp [World.init, LocksOk, rwDep]
  life := by constructor <;> simp [World.init, Logged]
  purge := by simp [PurgeOk, World.init]

section

variable (h : Tracked w)

include h

theorem unstamped (runs : w.phase top = .running) : w.seq top = none := by
  cases hs : w.seq top with
  | none => rfl
  | some a => exact absurd runs (h.life.seq_passed top a hs).2.1

theorem uncommitted (runs : w.phase top = .running) : top ∉ w.commits := by
  intro mem
  rcases (h.env.committed_iff top).mp mem with p | p <;> rw [runs] at p <;> cases p

variable {s : Snapshot}

/-- A live transaction that a held snapshot does not show is still tracked. -/
theorem tracked_of_unseen {t u : TxnId} (held : t ∈ w.held)
    (hs : w.snap t = some s) (ne : t ≠ u) (conc : s.concurrent u = true)
    (logged : Logged w.reads w.writes u) (live : (w.phase u).isLive = true) : u ∈ w.ssi.txns := by
  cases ended : (w.phase u).isOver with
  | false => exact h.life.tracked u logged ended
  | true =>
    by_contra gone
    have mem := (h.env.committed_iff u).mpr (.inr (eq_finished_of_over_live ended live))
    rw [h.purge u mem logged gone t held ne s hs] at conc
    cases conc

/-- A transaction that has not captured its snapshot has done nothing tracked. -/
theorem silent_of_unsnapped (runs : w.phase top = .running)
    (first : w.snap top = none) : top ∉ w.ssi.txns ∧ ¬ Logged w.reads w.writes top := by
  have untracked : top ∉ w.ssi.txns := by
    intro mem
    obtain ⟨x, hx⟩ := isSome_iff_exists.mp (lookup_isSome.mpr mem)
    rw [h.graph.snapshot top x hx] at first
    cases first
  exact ⟨untracked, fun lg => untracked (h.life.tracked top lg (by rw [runs]; rfl))⟩

/-- Capturing a first snapshot adds no antidependency: nothing was read yet. -/
theorem rwDep_of_capture (runs : w.phase top = .running) (first : w.snap top = none) {a b : TxnId}
    (dep : rwDep (update w.snap top (some s)) w.reads w.writes a b) :
    rwDep w.snap w.reads w.writes a b := by
  have ne : a ≠ top := by
    rintro rfl
    exact (h.silent_of_unsnapped runs first).2 (rwDep_logged dep).1
  obtain ⟨ne', conc, rest⟩ := dep
  rw [update_of_ne ne] at conc
  exact ⟨ne', conc, rest⟩

/-! ### Steps -/

theorem begin : Tracked { w.setPhase w.registry.registerAllocated.1 .running with
    registry := w.registry.registerAllocated.2 } where
  env := h.env.step (a := .begin) rfl
  graph := h.graph
  life := by
    change LifeOk w.ssi (update w.phase w.registry.nextTxnId .running) w.seq w.reads
      w.writes
    have idle := h.env.unborn
    have silent : ¬ Logged w.reads w.writes w.registry.nextTxnId :=
      fun lg => h.life.logged_begun _ lg idle
    refine h.life.rephase (by simp [idle]) (by simp) (fun _ => ?_) (fun _ => .inr silent) (by simp)
    cases hs : w.seq w.registry.nextTxnId with
    | none => rfl
    | some a => exact absurd idle (h.life.seq_passed _ a hs).1
  purge := h.purge

theorem capture (running : w.phase top = .running) (first : w.snap top = none) : Tracked { w with
      registry := (w.registry.capture top).2
      snap := update w.snap top (some (w.registry.capture top).1)
      held := top :: w.held } where
  env := h.env.capture running first
  graph := by
    refine ⟨h.graph.locks, fun t x hx => ?_, h.graph.covered, h.graph.onRecord,
      fun r u dep => h.graph.edges r u (h.rwDep_of_capture running first dep)⟩
    have ne : t ≠ top := by
      rintro rfl
      exact (h.silent_of_unsnapped running first).1 (lookup_isSome.mp (by simp [hx]))
    show update w.snap top (some (w.registry.capture top).1) t = some x.snapshot
    rw [update_of_ne ne]
    exact h.graph.snapshot t x hx
  life := h.life
  purge := by
    intro u hu lg gone t ht ne s hs
    rcases update_eq_some.mp hs with ⟨-, rfl⟩ | ⟨other, old⟩
    · exact h.env.capture_shows hu
    · exact h.purge u hu lg gone t ((mem_cons.mp ht).resolve_left other) ne s old

theorem register (running : w.phase top = .running)
    (hs : w.snap top = some s) : Tracked { w with ssi := Ssi.register w.ssi top s } where
  env := h.env
  graph := h.graph.register hs fun untracked lg =>
    untracked (h.life.tracked top lg (by rw [running]; rfl))
  life := h.life.register running
  purge := h.purge.register

variable {ssi' : SsiState K}

/-- A step that only grows the manager's state, with no new access. -/
theorem grows (grows : Grows w.ssi ssi') (locks : LocksOk ssi') : Tracked { w with ssi := ssi' } :=
  ⟨h.env, h.graph.grows grows locks, h.life.grows grows, h.purge.grows grows⟩

theorem read {table : TableId} {key : Option K}
    (runs : w.phase top = .running) (mem : top ∈ w.ssi.txns) (grows : Grows w.ssi ssi')
    (graph : GraphOk ssi' w.snap (⟨top, table, key⟩ :: w.reads) w.writes) :
    Tracked { w with ssi := ssi', reads := ⟨top, table, key⟩ :: w.reads } := by
  have logged : ∀ t, Logged (⟨top, table, key⟩ :: w.reads) w.writes t →
      t = top ∨ Logged w.reads w.writes t := by
    rintro t (⟨a, ha, rfl⟩ | wrote)
    · rcases ha with _ | ⟨_, old⟩
      · exact .inl rfl
      · exact .inr (.inl ⟨a, old, rfl⟩)
    · exact .inr (.inr wrote)
  exact ⟨h.env, graph, (h.life.grows grows).access (grows.mem_iff.mpr mem) runs logged
    fun t wrote => .inr wrote, (h.purge.grows grows).access (h.uncommitted runs) logged⟩

theorem write {table : TableId} {key : Option K}
    (runs : w.phase top = .running) (mem : top ∈ w.ssi.txns) (grows : Grows w.ssi ssi')
    (graph : GraphOk ssi' w.snap w.reads (⟨top, table, key⟩ :: w.writes)) :
    Tracked { w with ssi := ssi', writes := ⟨top, table, key⟩ :: w.writes } := by
  have wrote : ∀ t, (∃ a ∈ (⟨top, table, key⟩ : Access K) :: w.writes, a.txn = t) →
      t = top ∨ ∃ a ∈ w.writes, a.txn = t := by
    rintro t ⟨a, ha, rfl⟩
    rcases ha with _ | ⟨_, old⟩
    · exact .inl rfl
    · exact .inr ⟨a, old, rfl⟩
  have logged : ∀ t, Logged w.reads (⟨top, table, key⟩ :: w.writes) t →
      t = top ∨ Logged w.reads w.writes t := by
    rintro t (read | written)
    · exact .inr (.inl read)
    · exact (wrote t written).imp id .inr
  exact ⟨h.env, graph, (h.life.grows grows).access (grows.mem_iff.mpr mem) runs logged wrote,
    (h.purge.grows grows).access (h.uncommitted runs) logged⟩

/-- A phase change while the transaction runs, without a stamp. -/
theorem rephaseRunning (running : w.phase top = .running) {p : Phase}
    (isOpen : p = .rejected ∨ p = .checked ∧ top ∉ w.ssi.txns) : Tracked (w.setPhase top p) where
  env := by
    refine h.env.rephase (by simp [running]) ?_ ?_ ?_ ?_ <;>
      rcases isOpen with rfl | ⟨rfl, -⟩ <;> simp [running, isOpen, isOver]
  graph := h.graph
  life := by
    refine h.life.rephase (by simp [running]) ?_ (fun _ => h.unstamped running)
      (fun _ => .inl (by rw [running]; rfl)) ?_
    · rcases isOpen with rfl | ⟨rfl, -⟩ <;> simp
    rintro passed wrote
    rcases isOpen with rfl | ⟨rfl, untracked⟩
    · simp at passed
    · exact absurd (h.life.tracked top (.inr wrote) (by rw [running]; rfl)) untracked
  purge := h.purge

end

section

variable (h : Tracked w)

include h

theorem check (runs : w.phase top = .running) : Tracked (w.check top) := by
  rcases check_cases w top with ⟨untracked, eq⟩ | eq | ⟨x, hx, -, eq⟩ <;> rw [eq]
  · exact h.rephaseRunning runs (.inr ⟨rfl, untracked⟩)
  · exact h.rephaseRunning runs (.inl rfl)
  · refine ⟨?_, h.graph.reentry hx rfl rfl rfl rfl rfl, h.life.stamps hx runs, h.purge.reentry⟩
    exact eq ▸ h.env.step (a := .commitCheck top) (if_pos runs)

theorem settle (ready : w.phase top = .checked ∨ w.phase top = .running ∧ w.readOnly top = true) :
    Tracked { w.setPhase top .settled with
      registry := w.registry.deregisterAll (top :: w.family top)
      commits := w.commits ++ [top] } := by
  have notOver : (w.phase top).isOver = false := by
    rcases ready with p | ⟨p, -⟩ <;> rw [p] <;> rfl
  refine ⟨h.env.step (a := .settle top) (if_pos ready), h.graph, ?_, ?_⟩
  · refine h.life.rephase ?_ (by simp) (by simp) (fun _ => .inl notOver) fun _ wrote => ?_
    · intro fin
      rw [fin] at notOver
      cases notOver
    rcases ready with ok | ⟨-, silent⟩
    · exact h.life.stamped top wrote (.inl ok)
    · obtain ⟨a, ha, rfl⟩ := wrote
      simpa using all_eq_true.mp silent a ha
  intro u hu lg gone
  rcases mem_append.mp hu with old | new
  · exact h.purge u old lg gone
  · rw [mem_singleton.mp new] at lg gone
    exact absurd (h.life.tracked top lg notOver) gone

theorem finish (settled : w.phase top = .settled) :
    Tracked { w.setPhase top .finished with ssi := finished w.ssi top } := by
  have life : LifeOk w.ssi (update w.phase top .finished) w.seq w.reads w.writes :=
    h.life.rephase (by simp [settled]) (by simp) (by simp) (by simp [isOver])
      fun _ wrote => h.life.stamped top wrote (.inr (.inl settled))
  have env : EnvOk w.registry w.snap w.held (update w.phase top .finished) w.family
      w.commits := h.env.step (a := .finish top) (if_pos settled)
  cases hx : w.ssi.txns.lookup top with
  | none =>
    have idle : Ssi.finished w.ssi top = w.ssi := by simp [Ssi.finished, AList.modify, hx]
    rw [idle]
    exact ⟨env, h.graph, life, h.purge⟩
  | some x =>
    have marked : Ssi.finished w.ssi top =
        { w.ssi with txns := w.ssi.txns.insert top { x with finished := true } } := by
      simp [Ssi.finished, AList.modify, hx]
    rw [marked]
    exact ⟨env, h.graph.reentry hx rfl rfl rfl rfl rfl,
      life.reentry (by simp) (by simp) (h.life.stamp top x hx), h.purge.reentry⟩

/-- A release whose horizon is not above an advertised snapshot only lets go of
what every held snapshot shows. -/
theorem releaseUpTo {gcHorizon : TxnId} (guard : gcHorizon ≤ w.registry.gcHorizon) :
    Tracked { w with ssi := Ssi.releaseUpTo w.ssi gcHorizon } := by
  obtain ⟨graph, life, purge⟩ := releaseUpTo_keeps
    (P := fun st => GraphOk st w.snap w.reads w.writes ∧ LifeOk st w.phase w.seq w.reads w.writes ∧
      PurgeOk st w.snap w.held w.reads w.writes w.commits)
    (fun st top x ⟨graph, life, purge⟩ hx fin below => by
      refine ⟨graph.drops aborted_drops,
        life.drops aborted_drops (fun _ _ => rfl) (.inl ⟨rfl, life.finished top x hx fin⟩), ?_⟩
      intro u hu lg gone t held ne s hs
      by_cases same : u = top
      · subst same
        exact h.env.shows_of_xmax_le hs (graph.snapshot u x hx)
          (le_trans below (le_trans guard (h.env.gcHorizon_le held hs)))
      · exact purge u hu lg (fun mem => gone (aborted_drops.mem_iff.mpr ⟨same, mem⟩)) t held ne s hs)
    ⟨h.graph, h.life, h.purge⟩
  exact ⟨h.env, graph, life, purge⟩

theorem rollback
    (isOpen : w.phase top = .running ∨ w.phase top = .rejected ∨ w.phase top = .checked) :
    Tracked { w.setPhase top .rolledBack with
      registry := w.registry.deregisterAll (top :: w.family top) } where
  env := h.env.step (a := .rollback top) (if_pos isOpen)
  graph := h.graph
  life := by
    refine h.life.rephase ?_ (by simp) (by simp) (fun _ => .inl ?_) (by simp) <;>
      rcases isOpen with p | p | p <;> simp [p, isOver]
  purge := h.purge

theorem aborted (rolledBack : w.phase top = .rolledBack) :
    Tracked { w.setPhase top .aborted with ssi := Ssi.aborted w.ssi top } where
  env := h.env.step (a := .aborted top) (if_pos rolledBack)
  graph := h.graph.drops aborted_drops
  life := h.life.drops aborted_drops (fun _ ne => update_of_ne ne _ _)
    (.inr (update_self _ _ _))
  purge := by
    intro u hu lg gone
    have ne : u ≠ top := by
      rintro rfl
      rcases (h.env.committed_iff u).mp hu with p | p <;> rw [rolledBack] at p <;> cases p
    exact h.purge u hu lg fun mem => gone (aborted_drops.mem_iff.mpr ⟨ne, mem⟩)

theorem dropSnapshot {s : Snapshot} (ended : (w.phase top).isOver = true)
    (mem : top ∈ w.held) (hs : w.snap top = some s) : Tracked { w with
      registry := w.registry.releaseAdvertised s.xmin, held := w.held.erase top } where
  env := h.env.dropSnapshot ended mem hs
  graph := h.graph
  life := h.life
  purge u hu lg gone t ht := h.purge u hu lg gone t (mem_of_mem_erase ht)

theorem step {a : Action K} (ok : withinHorizon w a = true)
    (taken : w.step a = some w') : Tracked w' := by
  cases a <;> simp only [World.step, World.read, World.write, ite_none_right_eq_some,
    bind_eq_some_iff, map_eq_some_iff, some.injEq] at taken
  case begin =>
    subst taken
    exact h.begin
  case savepoint top =>
    obtain ⟨-, rfl⟩ := taken
    exact ⟨h.env.savepoint, h.graph, h.life, h.purge⟩
  case rollbackTo top subxids =>
    obtain ⟨own, rfl⟩ := taken
    exact ⟨h.env.rollbackTo own.2, h.graph, h.life, h.purge⟩
  case capture top =>
    obtain ⟨first, rfl⟩ := taken
    exact h.capture first.1 first.2
  case register xid =>
    obtain ⟨top, act, s, hs, rfl⟩ := taken
    exact h.register (World.actor_eq act).2 hs
  case recordTupleRead xid table key =>
    obtain ⟨top, act, rfl⟩ := taken
    split
    · rename_i known
      obtain ⟨x, hx⟩ := isSome_iff_exists.mp (lookup_isSome.mpr known)
      exact h.read (World.actor_eq act).2 known
        (recordTupleRead_spec table key h.graph.locks hx).1 (h.graph.recordTupleRead known)
    · rename_i untracked
      simpa [Ssi.recordTupleRead, untracked] using h
  case recordRelationRead xid table =>
    obtain ⟨top, act, rfl⟩ := taken
    split
    · rename_i known
      obtain ⟨x, hx⟩ := isSome_iff_exists.mp (lookup_isSome.mpr known)
      exact h.read (World.actor_eq act).2 known
        (recordRelationRead_spec table h.graph.locks hx).1 (h.graph.recordRelationRead known)
    · rename_i untracked
      simpa [Ssi.recordRelationRead, untracked] using h
  case noteWrite xid table key =>
    obtain ⟨top, act, rfl⟩ := taken
    split
    · rename_i known
      exact h.write (World.actor_eq act).2 known
        (noteWrite_spec table key h.graph.locks known).1 (h.graph.noteWrite known)
    · rename_i untracked
      simpa [Ssi.noteWrite, untracked] using h
  case noteRelationWrite xid table =>
    obtain ⟨top, act, rfl⟩ := taken
    split
    · rename_i known
      exact h.write (World.actor_eq act).2 known
        (noteRelationWrite_spec table h.graph.locks known).1
        (h.graph.noteRelationWrite known)
    · rename_i untracked
      simpa [Ssi.noteRelationWrite, untracked] using h
  case promote table =>
    subst taken
    obtain ⟨grows, locks⟩ := promote_spec table h.graph.locks
    exact h.grows grows locks
  case commitCheck top =>
    obtain ⟨runs, rfl⟩ := taken
    exact h.check runs
  case settle top =>
    obtain ⟨ready, rfl⟩ := taken
    exact h.settle ready
  case finish top =>
    obtain ⟨fixed, rfl⟩ := taken
    exact h.finish fixed
  case releaseUpTo gcHorizon =>
    subst taken
    exact h.releaseUpTo (of_decide_eq_true ok)
  case rollback top =>
    obtain ⟨isOpen, rfl⟩ := taken
    exact h.rollback isOpen
  case aborted top =>
    obtain ⟨rolledBack, rfl⟩ := taken
    exact h.aborted rolledBack
  case dropSnapshot top =>
    obtain ⟨ended, s, hs, rfl⟩ := taken
    exact h.dropSnapshot (by obtain p | p := ended.1 <;> rw [p] <;> rfl) ended.2 hs

/-- While one of two concurrent transactions has not ended, both are tracked. -/
theorem both_tracked {t u : TxnId} (ne : t ≠ u)
    (loggedT : Logged w.reads w.writes t) (loggedU : Logged w.reads w.writes u)
    (unseen : ((w.snap t).any fun s => s.concurrent u) = true)
    (notOver : (w.phase t).isOver = false) (live : (w.phase u).isLive = true) :
    t ∈ w.ssi.txns ∧ u ∈ w.ssi.txns := by
  cases hs : w.snap t with
  | none => simp [hs] at unseen
  | some s =>
    have held := h.env.held_live t s hs notOver
    have conc : s.concurrent u = true := by simpa [hs] using unseen
    exact ⟨h.life.tracked t loggedT notOver, h.tracked_of_unseen held hs ne conc loggedU live⟩

end

end Tracked

/-! ### The schedules -/

/-- **Recorded antidependencies**: in every schedule whose releases use a horizon
that is current, let `reader` have read what `writer` wrote, in either order, neither
snapshot showing the other and neither aborted. As long as one of the two has not
ended, and also later as long as both are tracked, the edge is in the graph. -/
theorem antidependency_recorded {first : TxnId} {acts : List (Action K)} {w : World K}
    (run : Run World.step (fun w a => withinHorizon w a = true) (World.init K first) acts w)
    {reader writer : TxnId} (dep : w.rw reader writer)
    (unseen : ((w.snap writer).any fun s => s.concurrent reader) = true)
    (readerLive : (w.phase reader).isLive = true) (writerLive : (w.phase writer).isLive = true)
    (needed : (w.phase reader).isOver = false ∨ (w.phase writer).isOver = false ∨
      (reader ∈ w.ssi.txns ∧ writer ∈ w.ssi.txns)) : HasEdge w.ssi reader writer := by
  have h := run.invariant (fun _ _ _ h ok taken => Tracked.step h ok taken) (Tracked.init first)
  obtain ⟨read, wrote⟩ := rwDep_logged dep
  rcases needed with readerOpen | writerOpen | ⟨r, u⟩
  · obtain ⟨r, u⟩ := h.both_tracked dep.1 read (.inr wrote) dep.2.1 readerOpen writerLive
    exact h.graph.edges reader writer dep r u
  · obtain ⟨u, r⟩ := h.both_tracked dep.1.symm (.inr wrote) read unseen writerOpen readerLive
    exact h.graph.edges reader writer dep r u
  · exact h.graph.edges reader writer dep r u

/-- 1 reads a row under a savepoint id and its lock is collapsed into one of the
relation; 1 ends and a release runs; then 2 writes the row under a savepoint id. -/
def readerEndsFirst : List (Action Nat) :=
  [.begin, .begin, .capture 1, .register 1, .capture 2, .register 2, .savepoint 1,
    .recordTupleRead 3 7 10, .promote 7, .settle 1, .finish 1, .releaseUpTo 1, .dropSnapshot 1,
    .savepoint 2, .noteWrite 4 7 10, .releaseUpTo 1]

theorem antidependency_recorded_readerEndsFirst :
    ∃ w, Run World.step (fun w a => withinHorizon w a = true) (World.init Nat 1)
      readerEndsFirst w ∧ w.phase 1 = .finished ∧ HasEdge w.ssi 1 2 := by
  obtain ⟨w, run, dep, unseen, ended, running⟩ : ∃ w, Run World.step
      (fun w a => withinHorizon w a = true) (World.init Nat 1) readerEndsFirst w ∧ w.rw 1 2 ∧
      ((w.snap 2).any fun s => s.concurrent 1) = true ∧ w.phase 1 = .finished ∧
      w.phase 2 = .running := Run.evaluated (by decide)
  exact ⟨w, run, ended, antidependency_recorded run dep unseen
    (by rw [ended]; rfl) (by rw [running]; rfl) (.inr (.inl (by rw [running]; rfl)))⟩

/-- 1 commits without a statement, so without a snapshot, while 2 and 3 have begun. -/
def idleCommit : List (Action Nat) := [.begin, .begin, .begin, .settle 1, .finish 1]

/-- 2 and 3 capture their snapshots, 2 reads a row and commits; only then is the
release of 1 applied, with the horizon 1 has read before. 3 writes the row. -/
def lateRelease : List (Action Nat) :=
  [.capture 2, .register 2, .capture 3, .register 3, .recordTupleRead 2 7 10, .settle 2,
    .finish 2, .releaseUpTo 4, .dropSnapshot 2, .noteWrite 3 7 10]

/-- With a horizon read when no snapshot was advertised, the edge from a committed
reader to a running writer is never formed. -/
theorem edge_lost_to_stale_horizon :
    ∃ v w, Run World.step (fun _ _ => True) (World.init Nat 1) idleCommit v ∧
      v.phase 1 = .finished ∧ v.registry.gcHorizon = 4 ∧
      Run World.step (fun _ _ => True) v lateRelease w ∧ w.rw 2 3 ∧
      ((w.snap 3).any fun s => s.concurrent 2) = true ∧
      w.phase 2 = .finished ∧ w.phase 3 = .running ∧ ¬ HasEdge w.ssi 2 3 := by
  have before : (exec World.step (fun _ _ => true) (World.init Nat 1) idleCommit).map (fun v =>
      (v.phase 1, v.registry.gcHorizon,
        (exec World.step (fun _ _ => true) v lateRelease).map fun w =>
          (decide (w.rw 2 3), (w.snap 3).any fun s => s.concurrent 2, w.phase 2, w.phase 3,
            (w.ssi.txns.lookup 2).isNone))) =
      some (.finished, 4, some (true, true, .finished, .running, true)) := by rfl
  obtain ⟨v, ranBefore, atReading⟩ := map_eq_some_iff.mp before
  simp only [Prod.mk.injEq] at atReading
  obtain ⟨ended, horizon, after⟩ := atReading
  obtain ⟨w, ranAfter, ending⟩ := map_eq_some_iff.mp after
  simp only [Prod.mk.injEq, decide_eq_true_eq, isNone_iff_eq_none] at ending
  obtain ⟨dep, unseen, readerEnded, running, forgotten⟩ := ending
  refine ⟨v, w, (Run.of_exec ranBefore).mono fun _ _ _ => trivial, ended, horizon,
    (Run.of_exec ranAfter).mono fun _ _ _ => trivial, dep, unseen, readerEnded, running, ?_⟩
  rintro ⟨x, -, known, -⟩
  rw [forgotten] at known
  cases known

end Saguaro.Ssi
