/-
When `SERIALIZABLE` schedules are free of dangerous structures.

Detection runs on writes and at the commit check, never on reads. A read can
therefore complete a structure whose pivot has passed its check already, and no
later moment looks at it: `schedule_dangerous` is such a schedule (the read-only
anomaly). `admitted` names the three situations in which the manager's bookkeeping
and the true order of events part:

* a read of what a concurrent transaction wrote that passed its check while an
  outbound neighbour of its own was stamped already;
* a release with a horizon above some snapshot that is advertised meanwhile;
* a deregistration that overtakes an earlier stamped in-neighbour.

In every schedule that avoids them no dangerous structure commits
(`no_dangerous_structure`).
-/

import Saguaro.Ssi.Recorded

namespace Saguaro.Ssi

open List Option Function World

open World (rwDep)
open Transition

variable {K : Type} [DecidableEq K]

/-! ### The guard -/

/-- None of the writers a read would conflict with has passed its commit check
with a stamped outbound neighbour. -/
def noCommittedPivot (w : World K) (top : TxnId) (writers : List TxnId) : Bool :=
  writers.all fun u =>
    !(((w.snap top).any fun s => s.concurrent u) && w.committedPivots.contains u)

/-- No active transaction that was stamped before `top` has an edge to it. -/
def notOvertaking (w : World K) (top : TxnId) : Bool := w.registry.active.all fun p =>
    match w.ssi.txns.lookup p, w.ssi.txns.lookup top with
    | some x, some y =>
      match x.commitSeq, y.commitSeq with
      | some a, some b => !(x.outEdges.contains top && decide (a < b))
      | _, _ => true
    | _, _ => true

def admitted (w : World K) : Action K → Bool
  | .recordTupleRead xid table key =>
    noCommittedPivot w (w.registry.topOf xid) (tupleReadWriters w.ssi table key)
  | .recordRelationRead xid table =>
    noCommittedPivot w (w.registry.topOf xid) (membersAt w.ssi.relationWriters table)
  | .releaseUpTo gcHorizon => decide (gcHorizon ≤ w.registry.gcHorizon)
  | .settle top => notOvertaking w top
  | _ => true

theorem withinHorizon_of_admitted {w : World K} {a : Action K} (ok : admitted w a = true) :
    withinHorizon w a = true := by
  cases a <;> first | rfl | exact ok

/-! ### Safety of the history -/

/-- The invariant behind `no_dangerous_structure`: its `safe` clause is the claim
for transactions that have been stamped but may not have settled. -/
structure SafeOk (snap : TxnId → Option Snapshot) (reads writes : List (Access K))
    (phase : TxnId → Phase) (seq : TxnId → Option Nat) (commits pivots : List TxnId) : Prop where
  pivots : ∀ p o a b, rwDep snap reads writes p o → seq o = some a → seq p = some b → a < b →
    (phase o).isLive = true → p ∈ pivots
  safe : ∀ i p o a b, (phase i).isLive = true → (phase p).isLive = true →
    (phase o).isLive = true → rwDep snap reads writes i p → rwDep snap reads writes p o →
    seq o = some a → seq p = some b → a < b → ¬ commits.idxOf o ≤ commits.idxOf i
  inOrder : ∀ p o a b, (phase p).isLive = true → o ∈ commits → rwDep snap reads writes p o →
    seq p = some a → seq o = some b → a < b → commits.idxOf p < commits.idxOf o

structure Inv (w : World K) : Prop where
  env : w.EnvOk
  graph : GraphOk w.ssi w.snap w.reads w.writes
  life : LifeOk w.ssi w.phase w.seq w.reads w.writes
  purge : PurgeOk w.ssi w.snap w.held w.reads w.writes w.commits
  safe : SafeOk w.snap w.reads w.writes w.phase w.seq w.commits w.committedPivots

theorem Inv.tracked {w : World K} (h : Inv w) : Tracked w := ⟨h.env, h.graph, h.life, h.purge⟩

theorem Inv.of_tracked {w : World K} (h : Tracked w)
    (safe : SafeOk w.snap w.reads w.writes w.phase w.seq w.commits w.committedPivots) : Inv w :=
  ⟨h.env, h.graph, h.life, h.purge, safe⟩

theorem Inv.init (first : TxnId) : Inv (World.init K first) :=
  .of_tracked (.init first) (by constructor <;> simp [World.init, rwDep])

namespace SafeOk

variable {snap : TxnId → Option Snapshot} {reads writes : List (Access K)}
  {phase phase' : TxnId → Phase} {seq : TxnId → Option Nat} {commits pivots : List TxnId}
  {top : TxnId}

section

variable (h : SafeOk snap reads writes phase seq commits pivots)

include h

/-- Phase changes that revive nothing keep safety. -/
theorem rephase (live : ∀ t, (phase' t).isLive = true → (phase t).isLive = true) :
    SafeOk snap reads writes phase' seq commits pivots where
  pivots p o a b dep ho hp lt l := h.pivots p o a b dep ho hp lt (live o l)
  safe i p o a b li lp lo := h.safe i p o a b (live i li) (live p lp) (live o lo)
  inOrder p o a b lp := h.inOrder p o a b (live p lp)

/-- Fewer antidependencies are as safe. -/
theorem antitone {snap' : TxnId → Option Snapshot}
    (old : ∀ a b, rwDep snap' reads writes a b → rwDep snap reads writes a b) :
    SafeOk snap' reads writes phase seq commits pivots where
  pivots p o a b dep := h.pivots p o a b (old p o dep)
  safe i p o a b li lp lo dip dpo := h.safe i p o a b li lp lo (old i p dip) (old p o dpo)
  inOrder p o a b lp mem dep := h.inOrder p o a b lp mem (old p o dep)

/-- A write by an unstamped, uncommitted transaction adds no structure. -/
theorem write {u : Access K} (unstamped : seq u.txn = none) (uncommitted : u.txn ∉ commits) :
    SafeOk snap reads (u :: writes) phase seq commits pivots := by
  -- A new antidependency points at the writer, which has no stamp.
  have old : ∀ a b, rwDep snap reads (u :: writes) a b → seq b ≠ none ∨ b ∈ commits →
      rwDep snap reads writes a b := by
    intro a b dep known
    rcases rwDep_cons_write dep with old | ⟨rfl, -⟩
    · exact old
    rcases known with stamp | mem
    · exact absurd unstamped stamp
    · exact absurd mem uncommitted
  refine ⟨?_, ?_, ?_⟩
  · intro p o a b dep ho
    exact h.pivots p o a b (old p o dep (.inl (by simp [ho]))) ho
  · intro i p o a b li lp lo dip dpo ho hp
    exact h.safe i p o a b li lp lo (old i p dip (.inl (by simp [hp])))
      (old p o dpo (.inl (by simp [ho]))) ho hp
  · intro p o a b lp mem dep
    exact h.inOrder p o a b lp mem (old p o dep (.inr mem))

/-- A read by an unstamped transaction that sees no committed pivot. -/
theorem read {r : Access K} (unstamped : seq r.txn = none)
    (clear : ∀ p, rwDep snap (r :: reads) writes r.txn p → (phase p).isLive = true →
      ¬ rwDep snap reads writes r.txn p → p ∉ pivots) :
    SafeOk snap (r :: reads) writes phase seq commits pivots := by
  have old : ∀ a b, rwDep snap (r :: reads) writes a b → seq a ≠ none →
      rwDep snap reads writes a b := by
    intro a b dep stamp
    rcases rwDep_cons_read dep with old | ⟨rfl, -⟩
    · exact old
    · exact absurd unstamped stamp
  refine ⟨?_, ?_, ?_⟩
  · intro p o a b dep ho hp
    exact h.pivots p o a b (old p o dep (by simp [hp])) ho hp
  · intro i p o a b li lp lo dip dpo ho hp lt
    have dpo' := old p o dpo (by simp [hp])
    by_cases known : rwDep snap reads writes i p
    · exact h.safe i p o a b li lp lo known dpo' ho hp lt
    rcases rwDep_cons_read dip with was | ⟨rfl, -⟩
    · exact absurd was known
    · exact absurd (h.pivots p o a b dpo' ho hp lt lo) (clear p dip lp known)
  · intro p o a b lp mem dep hp
    exact h.inOrder p o a b lp mem (old p o dep (by simp [hp])) hp

end

end SafeOk

theorem idxOf_le_of_append_singleton {l : List TxnId} {a b c : TxnId}
    (h : (l ++ [c]).idxOf a ≤ (l ++ [c]).idxOf b) : l.idxOf a ≤ l.idxOf b := by
  by_cases hb : b ∈ l
  · have below := idxOf_lt_length_iff.mpr hb
    by_cases ha : a ∈ l
    · rwa [idxOf_append_of_mem ha, idxOf_append_of_mem hb] at h
    · rw [idxOf_append_of_notMem ha, idxOf_append_of_mem hb] at h
      omega
  · rw [idxOf_eq_length hb]
    exact idxOf_le_length

/-! ### Steps -/

namespace Inv

variable {w w' : World K} {top : TxnId}

/-- A stamped, live and uncommitted transaction is between its check and its
deregistration. -/
theorem checked_of_stamped (h : Inv w) {a : Nat} (stamp : w.seq top = some a)
    (live : (w.phase top).isLive = true) (uncommitted : top ∉ w.commits) :
    w.phase top = .checked := by
  obtain ⟨begun, notRunning, notRejected⟩ := h.life.seq_passed top a stamp
  rw [h.env.committed_iff] at uncommitted
  cases hp : w.phase top <;> simp_all [Phase.isLive]

omit [DecidableEq K] in
theorem isLive_of_update {phase : TxnId → Phase} {p : Phase}
    (was : p.isLive = true → (phase top).isLive = true) (t : TxnId)
    (live : (update phase top p t).isLive = true) : (phase t).isLive = true := by
  by_cases same : t = top
  · rw [same, update_self] at live
    rw [same]
    exact was live
  · rwa [update_of_ne same] at live

/-- A pivot about to be stamped: whatever it antidepends on and is live is still
tracked, with an edge to it. -/
theorem edge_of_running (h : Inv w) (runs : w.phase top = .running) {o : TxnId}
    (known : top ∈ w.ssi.txns) (dep : rwDep w.snap w.reads w.writes top o)
    (live : (w.phase o).isLive = true) : HasEdge w.ssi top o := by
  obtain ⟨s, hs, conc⟩ := rwDep_snap dep
  have held : top ∈ w.held := h.env.held_live top s hs (by rw [runs]; rfl)
  exact h.graph.edges top o dep known
    (h.tracked.tracked_of_unseen held hs dep.1 conc (.inr (rwDep_logged dep).2) live)

omit [DecidableEq K] in
theorem outStamped_of_edge {st : SsiState K} {p o : TxnId} {y : TxnSsi K} (edge : HasEdge st p o)
    (ho : st.txns.lookup o = some y) (stamped : y.commitSeq.isSome) : outStamped st p = true := by
  obtain ⟨x, -, hx, -, out, -⟩ := edge
  simp only [outStamped, hx]
  exact any_eq_true.mpr ⟨o, out, by simp [ho, stamped]⟩

/-- The stamp of a transaction that is no doomed pivot leaves no structure behind:
an inbound neighbour would have to be purged, hence shown by the pivot's snapshot,
which misses an outbound neighbour that committed no later. -/
theorem stamp_safe (h : Inv w) (runs : w.phase top = .running) (tracked : top ∈ w.ssi.txns)
    (undoomed : isDoomedPivot w.ssi top = false) :
    SafeOk w.snap w.reads w.writes (update w.phase top .checked)
      (update w.seq top (some w.ssi.nextCommitSeq)) w.commits
      (if outStamped w.ssi top then top :: w.committedPivots else w.committedPivots) := by
  have live_of := isLive_of_update (p := .checked) fun _ => congrArg Phase.isLive runs
  have seq_of : ∀ t, t ≠ top → update w.seq top (some w.ssi.nextCommitSeq) t = w.seq t :=
    fun t ne => update_of_ne ne _ _
  -- The new stamp is the largest, so it is not the earlier one of two.
  have earlier_old : ∀ o p a b, update w.seq top (some w.ssi.nextCommitSeq) o = some a →
      update w.seq top (some w.ssi.nextCommitSeq) p = some b → a < b → o ≠ top := by
    rintro o p a b ho hp lt rfl
    rw [update_self] at ho
    cases ho
    by_cases same : p = o
    · rw [same, update_self] at hp
      cases hp
      exact lt_irrefl _ lt
    · rw [seq_of p same] at hp
      exact absurd (h.life.seq_lt p b hp) (not_lt.mpr (le_of_lt lt))
  have stampedEdge : ∀ o a, rwDep w.snap w.reads w.writes top o → w.seq o = some a →
      (w.phase o).isLive = true → HasEdge w.ssi top o ∧ ∃ y, w.ssi.txns.lookup o = some y ∧
        y.commitSeq.isSome = true := by
    intro o a dep ho live
    have edge := h.edge_of_running runs tracked dep live
    obtain ⟨-, y, -, hy, -, -⟩ := id edge
    exact ⟨edge, y, hy, by simp [h.life.stamp o y hy, ho]⟩
  refine ⟨?_, ?_, ?_⟩
  · intro p o a b dep ho hp lt live
    have ne := earlier_old o p a b ho hp lt
    rw [seq_of o ne] at ho
    by_cases same : p = top
    · subst same
      obtain ⟨edge, y, hy, stamp⟩ := stampedEdge o a dep ho (live_of o live)
      simp [outStamped_of_edge edge hy stamp]
    rw [seq_of p same] at hp
    have mem := h.safe.pivots p o a b dep ho hp lt (live_of o live)
    split
    · exact .tail _ mem
    · exact mem
  · intro i p o a b li lp lo dip dpo ho hp lt
    have ne := earlier_old o p a b ho hp lt
    rw [seq_of o ne] at ho
    by_cases same : p = top
    · subst same
      intro first
      obtain ⟨edge, y, hy, stamp⟩ := stampedEdge o a dpo ho (live_of o lo)
      by_cases known : i ∈ w.ssi.txns
      · have inn := h.graph.edges i p dip known tracked
        rw [isDoomedPivot_of_edges inn edge hy stamp] at undoomed
        cases undoomed
      obtain ⟨s, hs, conc⟩ := rwDep_snap dpo
      have held : p ∈ w.held := h.env.held_live p s hs (by rw [runs]; rfl)
      have logged := (rwDep_logged dip).1
      have ended : (w.phase i).isOver = true := by
        by_contra notOver
        exact known (h.life.tracked i logged (by simpa using notOver))
      have comm := (h.env.committed_iff i).mpr
        (.inr (Phase.eq_finished_of_over_live ended (live_of i li)))
      have shown := h.purge i comm logged known p held dip.1.symm s hs
      have prior : o ∈ w.commits := idxOf_lt_length_iff.mp
        (lt_of_le_of_lt first (idxOf_lt_length_iff.mpr comm))
      rw [h.env.order p s o i hs prior comm dip.1 first conc] at shown
      cases shown
    · rw [seq_of p same] at hp
      exact h.safe.safe i p o a b (live_of i li) (live_of p lp) (live_of o lo) dip dpo ho hp lt
  · intro p o a b lp mem dep hp ho lt
    have ne := earlier_old p o a b hp ho lt
    have ne' : o ≠ top := fun same => h.tracked.uncommitted runs (same ▸ mem)
    rw [seq_of p ne] at hp
    rw [seq_of o ne'] at ho
    exact h.safe.inOrder p o a b (live_of p lp) mem dep hp ho lt

/-- A read whose writers hide no committed pivot completes no structure. -/
theorem read_safe {table : TableId} {key : Option K} (h : Inv w)
    (runs : w.phase top = .running) {writers : List TxnId}
    (clear : noCommittedPivot w top writers = true)
    (consulted : ∀ u ∈ w.writes, u.txn ∈ w.ssi.txns →
      Access.conflicts ⟨top, table, key⟩ u = true → u.txn ∈ writers) :
    SafeOk w.snap (⟨top, table, key⟩ :: w.reads) w.writes w.phase w.seq w.commits
      w.committedPivots := by
  refine h.safe.read (h.tracked.unstamped runs) fun p dep live fresh => ?_
  rcases rwDep_cons_read dep with old | ⟨-, ne, ⟨s, hs, conc⟩, u, hu, rfl, clash⟩
  · exact absurd old fresh
  have held : top ∈ w.held := h.env.held_live top s hs (by rw [runs]; rfl)
  have known := h.tracked.tracked_of_unseen held hs ne conc (.inr ⟨u, hu, rfl⟩) live
  have seen := all_eq_true.mp clear u.txn (consulted u hu known clash)
  simp only [hs, any_some, conc, Bool.true_and, Bool.not_eq_true'] at seen
  simpa using seen

theorem write_safe {table : TableId} {key : Option K} (h : Inv w) (runs : w.phase top = .running) :
    SafeOk w.snap w.reads (if top ∈ w.ssi.txns then ⟨top, table, key⟩ :: w.writes else w.writes)
      w.phase w.seq w.commits w.committedPivots := by
  split
  · exact h.safe.write (h.tracked.unstamped runs) (h.tracked.uncommitted runs)
  · exact h.safe

theorem check_safe (h : Inv w) (runs : w.phase top = .running) :
    SafeOk (w.check top).snap (w.check top).reads (w.check top).writes (w.check top).phase
      (w.check top).seq (w.check top).commits (w.check top).committedPivots := by
  have unstamped := fun p => h.safe.rephase
    (isLive_of_update (p := p) fun _ => congrArg Phase.isLive runs)
  rcases check_cases w top with ⟨-, eq⟩ | eq | ⟨x, hx, undoomed, eq⟩ <;> rw [eq]
  · exact unstamped .checked
  · exact unstamped .rejected
  · exact h.stamp_safe runs (AList.lookup_isSome.mp (by simp [hx])) undoomed

/-- The guard, read as a fact about edges. -/
theorem not_edge_of_notOvertaking (guard : notOvertaking w top = true) {p : TxnId} {a b : Nat}
    (h : Inv w) (act : p ∈ w.registry.active) (hp : w.seq p = some a) (ht : w.seq top = some b)
    (lt : a < b) : ¬ HasEdge w.ssi p top := by
  rintro ⟨x, y, hx, hy, out, -⟩
  have clear := all_eq_true.mp guard p act
  simp only [hx, hy, h.life.stamp p x hx, h.life.stamp top y hy, hp, ht] at clear
  simp [out, lt] at clear

theorem settle_safe (h : Inv w)
    (ready : w.phase top = .checked ∨ w.phase top = .running ∧ w.readOnly top = true)
    (guard : notOvertaking w top = true) :
    SafeOk w.snap w.reads w.writes (update w.phase top .settled) w.seq
      (w.commits ++ [top]) w.committedPivots := by
  have isOpen : (w.phase top).isOpen = true := by
    rcases ready with p | ⟨p, -⟩ <;> rw [p] <;> rfl
  have notOver : (w.phase top).isOver = false := by
    rcases ready with p | ⟨p, -⟩ <;> rw [p] <;> rfl
  have live : (w.phase top).isLive = true := by
    rcases ready with p | ⟨p, -⟩ <;> rw [p] <;> rfl
  have uncommitted : top ∉ w.commits := by
    intro mem
    rcases (h.env.committed_iff top).mp mem with q | q <;> rw [q] at isOpen <;> cases isOpen
  have live_of := isLive_of_update (p := .settled) fun _ => live
  refine ⟨fun p o a b dep ho hp lt l => h.safe.pivots p o a b dep ho hp lt (live_of o l), ?_, ?_⟩
  · intro i p o a b li lp lo dip dpo ho hp lt first
    refine h.safe.safe i p o a b (live_of i li) (live_of p lp) (live_of o lo) dip dpo ho hp lt ?_
    exact idxOf_le_of_append_singleton first
  intro p o a b lp mem dep hp ho lt
  rcases mem_append.mp mem with old | new
  · have prior := h.safe.inOrder p o a b (live_of p lp) old dep hp ho lt
    have fixed : p ∈ w.commits := idxOf_lt_length_iff.mp
      (lt_trans prior (idxOf_lt_length_iff.mpr old))
    simpa [idxOf_append_of_mem fixed, idxOf_append_of_mem old] using prior
  rw [mem_singleton.mp new] at dep ho ⊢
  by_cases fixed : p ∈ w.commits
  · have below := idxOf_lt_length_iff.mpr fixed
    simpa [idxOf_append_of_mem fixed, idxOf_append_of_notMem uncommitted]
      using below
  -- A stamped, live and uncommitted in-neighbour is still on its way to commit.
  have ok := h.checked_of_stamped hp (live_of p lp) fixed
  have act := h.env.open_active p (by rw [ok]; rfl)
  obtain ⟨lgp, wrote⟩ := rwDep_logged dep
  have edge := h.graph.edges p top dep (h.life.tracked p lgp (by rw [ok]; rfl))
    (h.life.tracked top (.inr wrote) notOver)
  exact absurd edge (h.not_edge_of_notOvertaking guard act hp ho lt)

/-- One admitted step adds no structure. -/
theorem step_safe {a : Action K} (h : Inv w) (ok : admitted w a = true)
    (taken : w.step a = some w') :
    SafeOk w'.snap w'.reads w'.writes w'.phase w'.seq w'.commits w'.committedPivots := by
  cases a <;> simp only [World.step, World.read, World.write, ite_none_right_eq_some,
    bind_eq_some_iff, map_eq_some_iff, some.injEq] at taken
  case begin =>
    subst taken
    exact h.safe.rephase (isLive_of_update fun _ => congrArg Phase.isLive h.env.unborn)
  case capture top =>
    obtain ⟨first, rfl⟩ := taken
    exact h.safe.antitone fun a b dep => h.tracked.rwDep_of_capture first.1 first.2 dep
  case recordTupleRead xid table key =>
    obtain ⟨top, act, rfl⟩ := taken
    obtain ⟨rfl, runs⟩ := World.actor_eq act
    split
    · exact h.read_safe runs ok fun u hu mem clash =>
        (h.graph.onRecord u hu mem).mem_tupleReadWriters clash
    · exact h.safe
  case recordRelationRead xid table =>
    obtain ⟨top, act, rfl⟩ := taken
    obtain ⟨rfl, runs⟩ := World.actor_eq act
    split
    · refine h.read_safe runs ok fun u hu mem clash => ?_
      obtain ⟨rfl, -⟩ := conflicts_iff.mp clash
      exact mem_membersAt.mpr (h.graph.onRecord u hu mem).1
    · exact h.safe
  case noteWrite | noteRelationWrite =>
    obtain ⟨top, act, rfl⟩ := taken
    exact h.write_safe (World.actor_eq act).2
  case commitCheck top =>
    obtain ⟨runs, rfl⟩ := taken
    exact h.check_safe runs
  case settle top =>
    obtain ⟨ready, rfl⟩ := taken
    exact h.settle_safe ready ok
  case finish top =>
    obtain ⟨fixed, rfl⟩ := taken
    exact h.safe.rephase (isLive_of_update fun _ => congrArg Phase.isLive fixed)
  case rollback top =>
    obtain ⟨isOpen, rfl⟩ := taken
    exact h.safe.rephase
      (isLive_of_update fun _ => by obtain p | p | p := isOpen <;> rw [p] <;> rfl)
  case aborted top =>
    obtain ⟨-, rfl⟩ := taken
    exact h.safe.rephase (isLive_of_update (by simp [Phase.isLive]))
  -- The others touch nothing that the clauses read.
  case savepoint | rollbackTo =>
    obtain ⟨-, rfl⟩ := taken
    exact h.safe
  case register =>
    obtain ⟨-, -, -, -, rfl⟩ := taken
    exact h.safe
  case promote | releaseUpTo =>
    subst taken
    exact h.safe
  case dropSnapshot =>
    obtain ⟨-, -, -, rfl⟩ := taken
    exact h.safe

theorem step {a : Action K} (h : Inv w) (ok : admitted w a = true) (taken : w.step a = some w') :
    Inv w' :=
  .of_tracked (h.tracked.step (withinHorizon_of_admitted ok) taken) (h.step_safe ok taken)

/-- Committed writers are stamped, so the stamps order a structure's pivot and
outbound transaction. -/
theorem not_dangerous (h : Inv w) : ¬ w.Dangerous := by
  rintro ⟨i, hi, p, hp, o, ho, dip, dpo, prior, first⟩
  have live : ∀ t ∈ w.commits, (w.phase t).isLive = true := by
    intro t mem
    rcases (h.env.committed_iff t).mp mem with q | q <;> rw [q] <;> rfl
  have stamped : ∀ t ∈ w.commits, (∃ a ∈ w.writes, a.txn = t) → ∃ a, w.seq t = some a :=
    fun t mem wrote => h.life.stamped t wrote (.inr ((h.env.committed_iff t).mp mem))
  obtain ⟨a, ha⟩ := stamped o ho (rwDep_logged dpo).2
  obtain ⟨b, hb⟩ := stamped p hp (rwDep_logged dip).2
  rcases lt_trichotomy a b with lt | eq | gt
  · exact h.safe.safe i p o a b (live i hi) (live p hp) (live o ho) dip dpo ha hb lt first
  · subst eq
    exact dpo.1 (h.life.seq_inj p o a hb ha)
  · have := h.safe.inOrder p o b a (live p hp) ho dpo hb ha gt
    omega

end Inv

/-! ### The schedules -/

/-- **SSI safety**: every schedule whose steps are all `admitted` commits no
dangerous structure, in any state it passes through. -/
theorem no_dangerous_structure {first : TxnId} {acts : List (Action K)} {w : World K}
    (run : Run World.step (fun w a => admitted w a = true) (World.init K first) acts w) :
    ¬ w.Dangerous :=
  (run.invariant (fun _ _ _ h ok taken => Inv.step h ok taken) (Inv.init first)).not_dangerous

/-- Write skew: the first transaction to reach its commit check is refused and
rolled back, the second commits. -/
def writeSkew : List (Action Nat) :=
  [.begin, .begin, .capture 1, .register 1, .capture 2, .register 2,
    .recordTupleRead 1 7 10, .recordTupleRead 2 7 20, .noteWrite 1 7 20, .noteWrite 2 7 10,
    .commitCheck 1, .rollback 1, .aborted 1, .releaseUpTo 1, .dropSnapshot 1,
    .commitCheck 2, .settle 2, .finish 2, .releaseUpTo 1, .dropSnapshot 2]

theorem no_dangerous_structure_writeSkew :
    ∃ w, Run World.step (fun w a => admitted w a = true) (World.init Nat 1) writeSkew w ∧
      w.commits = [2] ∧ ¬ w.Dangerous := by
  obtain ⟨w, run, commits⟩ : ∃ w, Run World.step (fun w a => admitted w a = true)
      (World.init Nat 1) writeSkew w ∧ w.commits = [2] := Run.evaluated (by decide)
  exact ⟨w, run, commits, no_dangerous_structure run⟩

/-- The read-only anomaly: 2 reads row 10, 1 overwrites it and commits; 3 starts,
2 writes row 20 and commits; then 3 reads both rows and sees 1 but not 2. -/
def readOnlyAnomaly : List (Action Nat) :=
  [.begin, .begin, .capture 1, .register 1, .capture 2, .register 2, .recordTupleRead 2 7 10,
    .noteWrite 1 7 10, .commitCheck 1, .settle 1, .finish 1, .releaseUpTo 1, .dropSnapshot 1,
    .begin, .capture 3, .register 3, .noteWrite 2 7 20, .commitCheck 2, .settle 2, .finish 2,
    .dropSnapshot 2, .recordTupleRead 3 7 10, .recordTupleRead 3 7 20, .settle 3, .finish 3]

/-- Without the guard a dangerous structure commits. -/
theorem schedule_dangerous :
    ∃ w, Run World.step (fun _ _ => True) (World.init Nat 1) readOnlyAnomaly w ∧
      w.commits = [1, 2, 3] ∧ w.Dangerous := Run.evaluated (by decide)

end Saguaro.Ssi
