/-
The sessions' side of a schedule: ids, snapshots and the order of commits.

`EnvOk` collects what holds of every world before the conflict manager is looked
at. Three facts carry the later argument about purging:

* a snapshot never shows a transaction that is still unsettled or unborn when it
  is captured, and shows every transaction that has committed by then
  (`EnvOk.future`, `EnvOk.order`);
* whatever a snapshot does not show is at or above its `xmin` (`EnvOk.xmin_le`);
* a snapshot stays advertised until its transaction has left the manager
  (`EnvOk.held_live`), so no horizon read meanwhile exceeds its `xmin`
  (`EnvOk.gcHorizon_le`).
-/

import Saguaro.Ssi.Schedule
import Mathlib.Data.List.Perm.Basic

namespace Saguaro.Ssi

open List Function

/-- Begun and not yet deregistered. -/
def Phase.isOpen : Phase → Bool
  | .running | .rejected | .checked => true
  | _ => false

/-- The transaction has left the manager for good. -/
def Phase.isOver : Phase → Bool
  | .finished | .aborted => true
  | _ => false

/-- What holds of the sessions' fields of every world. -/
structure EnvOk (registry : Registry) (snap : TxnId → Option Snapshot) (held : List TxnId)
    (phase : TxnId → Phase) (family : TxnId → List TxnId) (commits : List TxnId) : Prop where
  active_lt : ∀ x ∈ registry.active, x < registry.nextTxnId
  begun_lt : ∀ t, phase t ≠ .idle → t < registry.nextTxnId
  open_active : ∀ t, (phase t).isOpen = true → t ∈ registry.active
  family_idle : ∀ t, ∀ x ∈ family t, phase x = .idle ∧ x < registry.nextTxnId
  committed_iff : ∀ t, t ∈ commits ↔ phase t = .settled ∨ phase t = .finished
  committed_inactive : ∀ t ∈ commits, t ∉ registry.active
  commits_nodup : commits.Nodup
  held_nodup : held.Nodup
  held_snap : ∀ t ∈ held, snap t ≠ none
  xmins : registry.xmins.Perm (held.map fun t => ((snap t).map Snapshot.xmin).getD 0)
  snap_begun : ∀ t s, snap t = some s → phase t ≠ .idle
  held_live : ∀ t s, snap t = some s → (phase t).isOver = false → t ∈ held
  xmax_le : ∀ t s, snap t = some s → s.xmax ≤ registry.nextTxnId
  own_lt : ∀ t s, snap t = some s → t < s.xmax
  xmin_le : ∀ t s u, snap t = some s → s.concurrent u = true → s.xmin ≤ u
  future : ∀ t s u, snap t = some s → u ≠ t →
    registry.nextTxnId ≤ u ∨ (phase u).isOpen = true → s.concurrent u = true
  order : ∀ t s u v, snap t = some s → u ∈ commits → v ∈ commits → v ≠ t →
    commits.idxOf u ≤ commits.idxOf v → s.concurrent u = true → s.concurrent v = true

/-- `EnvOk` of a world's own fields. -/
abbrev World.EnvOk {K : Type} (w : World K) : Prop :=
  Ssi.EnvOk w.registry w.snap w.held w.phase w.family w.commits

variable {registry : Registry} {snap : TxnId → Option Snapshot} {held : List TxnId}
  {phase : TxnId → Phase} {family : TxnId → List TxnId} {commits : List TxnId} {top : TxnId}

namespace EnvOk

/-- No horizon read from the registry exceeds an advertised `xmin`. -/
theorem gcHorizon_le (h : EnvOk registry snap held phase family commits) {t : TxnId}
    {s : Snapshot} (mem : t ∈ held) (hs : snap t = some s) : registry.gcHorizon ≤ s.xmin := by
  have advertised : s.xmin ∈ registry.xmins := by
    rw [h.xmins.mem_iff]
    exact mem_map.mpr ⟨t, mem, by simp [hs]⟩
  exact min?_getD_le_of_mem advertised

/-- A snapshot shows every transaction whose own snapshot ends at or below its
`xmin`. -/
theorem shows_of_xmax_le (h : EnvOk registry snap held phase family commits) {t u : TxnId}
    {s s' : Snapshot} (hs : snap t = some s) (hs' : snap u = some s') (below : s'.xmax ≤ s.xmin) :
    s.concurrent u = false := by
  by_contra conc
  have above : s.xmin ≤ u := h.xmin_le t s u hs (by simpa using conc)
  exact absurd (h.own_lt u s' hs') (not_lt.mpr (le_trans below above))

theorem init (first : TxnId) :
    EnvOk (.new first) (fun _ => none) [] (fun _ => .idle) (fun _ => []) [] := by
  constructor <;> simp [Registry.new, Phase.isOpen]

theorem committed_begun (h : EnvOk registry snap held phase family commits) {t : TxnId}
    (mem : t ∈ commits) : phase t ≠ .idle := by
  intro idle
  rcases (h.committed_iff t).mp mem with p | p <;> rw [idle] at p <;> cases p

/-- The id the allocator hands out next belongs to nobody yet. -/
theorem unborn (h : EnvOk registry snap held phase family commits) :
    phase registry.nextTxnId = .idle := by
  by_contra begun
  exact absurd (h.begun_lt _ begun) (lt_irrefl _)

end EnvOk

/-! ### Registry updates -/

@[simp] theorem mem_deregisterAll_active {r : Registry} {ids : List TxnId} {x : TxnId} :
    x ∈ (r.deregisterAll ids).active ↔ x ∈ r.active ∧ x ∉ ids := by
  simp [Registry.deregisterAll]

namespace EnvOk

section

variable (h : EnvOk registry snap held phase family commits)

include h

theorem begin : EnvOk registry.registerAllocated.2 snap held
      (update phase registry.nextTxnId .running) family commits := by
  have uncommitted : registry.nextTxnId ∉ commits := fun mem => h.committed_begun mem h.unborn
  refine ⟨?_, ?_, ?_, ?_, ?_, ?_, h.commits_nodup, h.held_nodup, h.held_snap, h.xmins, ?_, ?_,
    fun t s hs => Nat.le_succ_of_le (h.xmax_le t s hs), h.own_lt, h.xmin_le, ?_, h.order⟩
  · intro x mem
    rcases mem with _ | ⟨_, old⟩
    · exact Nat.lt_succ_self _
    · exact Nat.lt_succ_of_lt (h.active_lt x old)
  · intro t begun
    rw [update_apply] at begun
    split at begun
    · exact ‹t = _› ▸ Nat.lt_succ_self _
    · exact Nat.lt_succ_of_lt (h.begun_lt t begun)
  · intro t isOpen
    rw [update_apply] at isOpen
    split at isOpen
    · exact mem_cons.mpr (.inl ‹_›)
    · exact .tail _ (h.open_active t isOpen)
  · intro t x mem
    obtain ⟨idle, lt⟩ := h.family_idle t x mem
    rw [update_of_ne (ne_of_lt lt)]
    exact ⟨idle, Nat.lt_succ_of_lt lt⟩
  · intro t
    rw [update_apply]
    split
    · simp [‹t = _›, uncommitted]
    · exact h.committed_iff t
  · intro t mem act
    rcases act with _ | ⟨_, old⟩
    · exact uncommitted mem
    · exact h.committed_inactive t mem old
  · intro t s hs
    rw [update_apply]
    split
    · simp
    · exact h.snap_begun t s hs
  · intro t s hs ended
    have ne : t ≠ registry.nextTxnId := fun same => h.snap_begun t s hs (same ▸ h.unborn)
    rw [update_of_ne ne] at ended
    exact h.held_live t s hs ended
  intro t s u hs ne reach
  refine h.future t s u hs ne ?_
  rw [update_apply] at reach
  split at reach
  · exact .inl (le_of_eq ‹u = _›.symm)
  · exact reach.imp Nat.le_of_succ_le id

theorem savepoint : EnvOk (registry.registerSubxidAllocated top).2 snap held phase
      (update family top (registry.nextTxnId :: family top)) commits := by
  refine ⟨?_, fun t b => Nat.lt_succ_of_lt (h.begun_lt t b),
    fun t o => .tail _ (h.open_active t o), ?_, h.committed_iff, ?_,
    h.commits_nodup, h.held_nodup, h.held_snap, h.xmins, h.snap_begun, h.held_live,
    fun t s hs => Nat.le_succ_of_le (h.xmax_le t s hs), h.own_lt, h.xmin_le, ?_, h.order⟩
  · intro x mem
    rcases mem with _ | ⟨_, old⟩
    · exact Nat.lt_succ_self _
    · exact Nat.lt_succ_of_lt (h.active_lt x old)
  · intro t x mem
    have known : x = registry.nextTxnId ∨ x ∈ family t := by
      rw [update_apply] at mem
      split at mem
      · simpa [‹t = top›] using mem
      · exact .inr mem
    rcases known with rfl | old
    · exact ⟨h.unborn, Nat.lt_succ_self _⟩
    · obtain ⟨idle, lt⟩ := h.family_idle t x old
      exact ⟨idle, Nat.lt_succ_of_lt lt⟩
  · intro t mem act
    rcases act with _ | ⟨_, old⟩
    · exact h.committed_begun mem h.unborn
    · exact h.committed_inactive t mem old
  · intro t s u hs ne reach
    exact h.future t s u hs ne (reach.imp Nat.le_of_succ_le id)

theorem rollbackTo {subxids : List TxnId} (own : ∀ x ∈ subxids, x ∈ family top) :
    EnvOk (registry.deregisterAll subxids) snap held phase (update family top
      ((family top).filter fun x => !subxids.contains x)) commits := by
  refine ⟨fun x mem => h.active_lt x (mem_deregisterAll_active.mp mem).1, h.begun_lt, ?_, ?_,
    h.committed_iff, fun t mem act => h.committed_inactive t mem
      (mem_deregisterAll_active.mp act).1, h.commits_nodup, h.held_nodup, h.held_snap, h.xmins,
    h.snap_begun, h.held_live, h.xmax_le, h.own_lt, h.xmin_le, h.future, h.order⟩
  · intro t isOpen
    refine mem_deregisterAll_active.mpr ⟨h.open_active t isOpen, fun mem => ?_⟩
    have idle := (h.family_idle top t (own t mem)).1
    simp only [idle, Phase.isOpen] at isOpen
    cases isOpen
  intro t x mem
  rw [update_apply] at mem
  split at mem
  · exact h.family_idle top x (mem_filter.mp mem).1
  · exact h.family_idle t x mem

/-- A snapshot captured now shows everything that has committed. -/
theorem capture_shows {u : TxnId}
    (mem : u ∈ commits) : (registry.capture top).1.concurrent u = false := by
  by_contra conc
  simp only [Bool.not_eq_false, Snapshot.concurrent_iff, Registry.capture, mem_filter] at conc
  rcases conc with above | ⟨act, -⟩
  · exact absurd (h.begun_lt u (h.committed_begun mem)) (not_lt.mpr above)
  · exact h.committed_inactive u mem act

theorem capture (runs : phase top = .running) (first : snap top = none) :
    EnvOk (registry.capture top).2 (update snap top (some (registry.capture top).1))
      (top :: held) phase family commits := by
  have unheld : top ∉ held := fun mem => h.held_snap top mem first
  have isOpen : (phase top).isOpen = true := by rw [runs]; rfl
  have own_lt := h.active_lt top (h.open_active top isOpen)
  have xmins_of : (held.map fun t => ((update snap top
      (some (registry.capture top).1) t).map Snapshot.xmin).getD 0) =
      held.map fun t => ((snap t).map Snapshot.xmin).getD 0 := by
    refine map_congr_left fun t mem => ?_
    rw [update_of_ne fun eq : t = top => unheld (eq ▸ mem)]
  -- The captured snapshot shows exactly the settled ids below the allocator.
  have conc_iff : ∀ u, (registry.capture top).1.concurrent u = true ↔
      registry.nextTxnId ≤ u ∨ u ∈ registry.active ∧ u ≠ top := by
    intro u
    rw [Snapshot.concurrent_iff]
    simp [Registry.capture]
  refine ⟨h.active_lt, h.begun_lt, h.open_active, h.family_idle, h.committed_iff,
    h.committed_inactive, h.commits_nodup, nodup_cons.mpr ⟨unheld, h.held_nodup⟩, ?_, ?_, ?_,
    ?_, ?_, ?_, ?_, ?_, ?_⟩
  · intro t mem
    rw [update_apply]
    split
    · simp
    · exact h.held_snap t ((mem_cons.mp mem).resolve_left ‹_›)
  · simp only [map_cons, update_self, Option.map_some, Option.getD_some, xmins_of]
    exact h.xmins.cons _
  · intro t s hs
    rcases update_eq_some.mp hs with ⟨rfl, -⟩ | ⟨-, old⟩
    · simp [runs]
    · exact h.snap_begun t s old
  · intro t s hs ended
    rcases update_eq_some.mp hs with ⟨rfl, -⟩ | ⟨-, old⟩
    · exact .head _
    · exact .tail _ (h.held_live t s old ended)
  · intro t s hs
    rcases update_eq_some.mp hs with ⟨-, rfl⟩ | ⟨-, old⟩
    · exact le_refl _
    · exact h.xmax_le t s old
  · intro t s hs
    rcases update_eq_some.mp hs with ⟨rfl, rfl⟩ | ⟨-, old⟩
    · exact own_lt
    · exact h.own_lt t s old
  · intro t s u hs conc
    rcases update_eq_some.mp hs with ⟨rfl, rfl⟩ | ⟨-, old⟩
    · rcases (conc_iff u).mp conc with above | ⟨act, -⟩
      · have : registry.active.min?.getD registry.nextTxnId ≤ t :=
          min?_getD_le_of_mem (h.open_active t isOpen)
        exact le_trans (le_trans this (le_of_lt own_lt)) above
      · exact min?_getD_le_of_mem act
    · exact h.xmin_le t s u old conc
  · intro t s u hs ne reach
    rcases update_eq_some.mp hs with ⟨rfl, rfl⟩ | ⟨-, old⟩
    · exact (conc_iff u).mpr (reach.imp id fun o => ⟨h.open_active u o, ne⟩)
    · exact h.future t s u old ne reach
  intro t s u v hs hu hv ne le conc
  rcases update_eq_some.mp hs with ⟨-, rfl⟩ | ⟨-, old⟩
  · simp [h.capture_shows hu] at conc
  · exact h.order t s u v old hu hv ne le conc

section Update

variable {p : Phase}

theorem begun_lt_update (begun : phase top ≠ .idle) (t : TxnId)
    (b : update phase top p t ≠ .idle) : t < registry.nextTxnId := by
  rw [update_apply] at b
  split at b
  · exact ‹t = top› ▸ h.begun_lt top begun
  · exact h.begun_lt t b

theorem family_idle_update (begun : phase top ≠ .idle) (t : TxnId) :
    ∀ x ∈ family t, update phase top p x = .idle ∧ x < registry.nextTxnId := by
  intro x mem
  have fact := h.family_idle t x mem
  rwa [update_of_ne fun same : x = top => begun (same ▸ fact.1)]

theorem snap_begun_update (begun : p ≠ .idle) (t : TxnId) (s : Snapshot) (hs : snap t = some s) :
    update phase top p t ≠ .idle := by
  rw [update_apply]
  split
  · exact begun
  · exact h.snap_begun t s hs

end Update

/-- A phase change that neither opens nor closes the transaction, nor changes
whether it has committed or may have given up its snapshot. -/
theorem rephase {p : Phase}
    (begun : phase top ≠ .idle) (stillBegun : p ≠ .idle) (isOpen : p.isOpen = (phase top).isOpen)
    (ended : p.isOver = false → (phase top).isOver = false)
    (comm : (p = .settled ∨ p = .finished) ↔ (phase top = .settled ∨ phase top = .finished)) :
    EnvOk registry snap held (update phase top p) family commits := by
  have open_of : ∀ t, (update phase top p t).isOpen = (phase t).isOpen := by
    intro t
    rw [update_apply]
    split
    · rw [isOpen, ‹t = top›]
    · rfl
  refine ⟨h.active_lt, ?_, fun t o => h.open_active t (open_of t ▸ o), ?_, ?_,
    h.committed_inactive, h.commits_nodup, h.held_nodup, h.held_snap, h.xmins, ?_, ?_, h.xmax_le,
    h.own_lt, h.xmin_le, fun t s u hs ne reach => h.future t s u hs ne (open_of u ▸ reach), h.order⟩
  · exact h.begun_lt_update begun
  · exact h.family_idle_update begun
  · intro t
    rw [update_apply]
    split
    · rw [comm, ‹t = top›]
      exact h.committed_iff top
    · exact h.committed_iff t
  · exact h.snap_begun_update stillBegun
  intro t s hs o
  rw [update_apply] at o
  split at o
  · exact h.held_live t s hs (‹t = top› ▸ ended o)
  · exact h.held_live t s hs o

/-- Deregistration of an open transaction with its family. When it settles as
committed it goes to the end of the commit order, and no snapshot captured so
far shows it. -/
theorem deregister {p : Phase} {commits' : List TxnId} (isOpen : (phase top).isOpen = true)
    (settles : p = .settled ∧ commits' = commits ++ [top] ∨ p = .rolledBack ∧ commits' = commits) :
    EnvOk (registry.deregisterAll (top :: family top)) snap held (update phase top p)
      family commits' := by
  have uncommitted : top ∉ commits := by
    intro mem
    rcases (h.committed_iff top).mp mem with q | q <;> rw [q] at isOpen <;> cases isOpen
  have begun : phase top ≠ .idle := by
    intro idle
    rw [idle] at isOpen
    cases isOpen
  have closed : p.isOpen = false ∧ p.isOver = false ∧ p ≠ .idle := by
    rcases settles with ⟨rfl, -⟩ | ⟨rfl, -⟩ <;> simp [Phase.isOpen, Phase.isOver]
  have open_ne : ∀ t, (update phase top p t).isOpen = true → t ≠ top := by
    rintro t o rfl
    rw [update_self, closed.1] at o
    cases o
  have mem_commits : ∀ t, t ∈ commits' → t ∈ commits ∨ t = top := by
    intro t mem
    rcases settles with ⟨-, rfl⟩ | ⟨-, rfl⟩
    · simpa using mem
    · exact .inl mem
  refine ⟨fun x mem => h.active_lt x (mem_deregisterAll_active.mp mem).1, ?_, ?_, ?_, ?_, ?_, ?_,
    h.held_nodup, h.held_snap, h.xmins, ?_, ?_, h.xmax_le, h.own_lt, h.xmin_le, ?_, ?_⟩
  · exact h.begun_lt_update begun
  · intro t o
    have ne := open_ne t o
    rw [update_of_ne ne] at o
    refine mem_deregisterAll_active.mpr ⟨h.open_active t o, fun mem => ?_⟩
    rcases mem_cons.mp mem with same | sub
    · exact ne same
    · rw [(h.family_idle top t sub).1] at o
      cases o
  · exact h.family_idle_update begun
  · intro t
    rw [update_apply]
    split
    · rcases settles with ⟨rfl, rfl⟩ | ⟨rfl, rfl⟩ <;> simp [‹t = top›, uncommitted]
    · rw [← h.committed_iff t]
      rcases settles with ⟨-, rfl⟩ | ⟨-, rfl⟩ <;> simp [‹¬ t = top›]
  · intro t mem act
    obtain ⟨act, off⟩ := mem_deregisterAll_active.mp act
    rcases mem_commits t mem with old | rfl
    · exact h.committed_inactive t old act
    · exact off (.head _)
  · rcases settles with ⟨-, rfl⟩ | ⟨-, rfl⟩
    · rw [← concat_eq_append]
      exact h.commits_nodup.concat uncommitted
    · exact h.commits_nodup
  · exact h.snap_begun_update closed.2.2
  · intro t s hs o
    refine h.held_live t s hs ?_
    rw [update_apply] at o
    split at o
    · rw [‹t = top›]
      cases hp : phase top <;> rw [hp] at isOpen <;> first | rfl | cases isOpen
    · exact o
  · intro t s u hs ne reach
    refine h.future t s u hs ne (reach.imp id fun o => ?_)
    rwa [update_of_ne (open_ne u o)] at o
  intro t s u v hs hu hv ne le conc
  rcases settles with ⟨-, rfl⟩ | ⟨-, rfl⟩
  · -- The newcomer is the last, and every snapshot captured so far misses it.
    by_cases last : v = top
    · subst last
      exact h.future t s v hs ne (.inr isOpen)
    have hv' := (mem_commits v hv).resolve_right last
    have hu' : u ∈ commits := by
      refine (mem_commits u hu).resolve_right fun eq => ?_
      subst eq
      rw [idxOf_append_of_mem hv', idxOf_append_of_notMem uncommitted] at le
      have := idxOf_lt_length_of_mem hv'
      omega
    rw [idxOf_append_of_mem hv', idxOf_append_of_mem hu'] at le
    exact h.order t s u v hs hu' hv' ne le conc
  · exact h.order t s u v hs hu hv ne le conc

/-- A finished transaction gives up its advertised snapshot. -/
theorem dropSnapshot {s : Snapshot}
    (ended : (phase top).isOver = true) (mem : top ∈ held) (hs : snap top = some s) :
    EnvOk (registry.releaseAdvertised s.xmin) snap (held.erase top) phase family commits := by
  refine ⟨h.active_lt, h.begun_lt, h.open_active, h.family_idle, h.committed_iff,
    h.committed_inactive, h.commits_nodup, h.held_nodup.erase top, fun t m => h.held_snap t
      (mem_of_mem_erase m), ?_, h.snap_begun, ?_, h.xmax_le, h.own_lt, h.xmin_le, h.future, h.order⟩
  · have split := (perm_cons_erase mem).map fun t => ((snap t).map Snapshot.xmin).getD 0
    have := (h.xmins.trans split).erase s.xmin
    simpa [Registry.releaseAdvertised, hs] using this
  intro t s' hs' live
  have ne : t ≠ top := by
    rintro rfl
    rw [ended] at live
    cases live
  exact (mem_erase_of_ne ne).mpr (h.held_live t s' hs' live)

end

end EnvOk

end Saguaro.Ssi
