/-
The conflict graph against the history of a schedule.

`GraphOk` says that the manager knows every antidependency between transactions
it still tracks, whichever of the two calls came first; `LifeOk` ties its entries
to the sessions' phases; `PurgeOk` says what is safe about the entries it has let
go: no snapshot that is still advertised fails to show them.
-/

import Saguaro.Ssi.Sessions
import Saguaro.Ssi.Tracking

namespace Saguaro.Ssi

open List Option Function AList

open World (rwDep)

variable {K : Type} [DecidableEq K]

/-- `t` has a tracked access. -/
def Logged (reads writes : List (Access K)) (t : TxnId) : Prop :=
  (∃ a ∈ reads, a.txn = t) ∨ ∃ a ∈ writes, a.txn = t

theorem rwDep_logged {snap : TxnId → Option Snapshot} {reads writes : List (Access K)}
    {r u : TxnId} (h : rwDep snap reads writes r u) :
    Logged reads writes r ∧ (∃ a ∈ writes, a.txn = u) := by
  obtain ⟨-, -, a, ha, b, hb, hr, hu, -⟩ := h
  exact ⟨.inl ⟨a, ha, hr⟩, b, hb, hu⟩

theorem rwDep_snap {snap : TxnId → Option Snapshot} {reads writes : List (Access K)}
    {r u : TxnId} (h : rwDep snap reads writes r u) :
    ∃ s, snap r = some s ∧ s.concurrent u = true := by
  obtain ⟨-, conc, -⟩ := h
  cases hs : snap r with
  | none => simp [hs] at conc
  | some s => exact ⟨s, rfl, by simpa [hs] using conc⟩

/-- A SIREAD lock covers the read. -/
def Covered (st : SsiState K) (r : Access K) : Prop := (r.table, r.txn) ∈ st.relationReaders ∨
    ∃ k, r.key = some k ∧ ((r.table, k), r.txn) ∈ st.tupleReaders

/-- The write is on record in the writer tables. -/
def OnRecord (st : SsiState K) (u : Access K) : Prop :=
  (u.table, u.txn) ∈ st.relationWriters ∧ match u.key with
    | none => (u.table, u.txn) ∈ st.wholeRelationWriters
    | some k => ((u.table, k), u.txn) ∈ st.tupleWriters

structure GraphOk (ssi : SsiState K) (snap : TxnId → Option Snapshot)
    (reads writes : List (Access K)) : Prop where
  locks : LocksOk ssi
  snapshot : ∀ t x, ssi.txns.lookup t = some x → snap t = some x.snapshot
  covered : ∀ r ∈ reads, r.txn ∈ ssi.txns → Covered ssi r
  onRecord : ∀ u ∈ writes, u.txn ∈ ssi.txns → OnRecord ssi u
  edges : ∀ r u, rwDep snap reads writes r u → r ∈ ssi.txns → u ∈ ssi.txns → HasEdge ssi r u

structure LifeOk (ssi : SsiState K) (phase : TxnId → Phase) (seq : TxnId → Option Nat)
    (reads writes : List (Access K)) : Prop where
  begun : ∀ t x, ssi.txns.lookup t = some x → phase t ≠ .idle ∧ phase t ≠ .aborted
  finished : ∀ t x, ssi.txns.lookup t = some x → x.finished = true → phase t = .finished
  stamp : ∀ t x, ssi.txns.lookup t = some x → x.commitSeq = seq t
  seq_passed : ∀ t a, seq t = some a → phase t ≠ .idle ∧ phase t ≠ .running ∧ phase t ≠ .rejected
  seq_lt : ∀ t a, seq t = some a → a < ssi.nextCommitSeq
  seq_inj : ∀ t u a, seq t = some a → seq u = some a → t = u
  logged_begun : ∀ t, Logged reads writes t → phase t ≠ .idle
  tracked : ∀ t, Logged reads writes t → (phase t).isOver = false → t ∈ ssi.txns
  stamped : ∀ t, (∃ a ∈ writes, a.txn = t) → phase t = .checked ∨ phase t = .settled ∨
    phase t = .finished → ∃ a, seq t = some a

def PurgeOk (ssi : SsiState K) (snap : TxnId → Option Snapshot) (held : List TxnId)
    (reads writes : List (Access K)) (commits : List TxnId) : Prop :=
  ∀ u ∈ commits, Logged reads writes u → u ∉ ssi.txns →
    ∀ t ∈ held, t ≠ u → ∀ s, snap t = some s → s.concurrent u = false

variable {ssi ssi' : SsiState K} {snap : TxnId → Option Snapshot} {held : List TxnId}
  {phase : TxnId → Phase} {seq : TxnId → Option Nat} {reads writes : List (Access K)}
  {commits : List TxnId} {top : TxnId}

/-! ### Growth -/

variable {r : Access K}

omit [DecidableEq K] in
theorem Covered.grows (h : Covered ssi r) (grows : Grows ssi ssi') : Covered ssi' r := by
  rcases h with rel | ⟨k, hk, tuple⟩
  · exact .inl (grows.relationReaders rel)
  rcases grows.tupleReaders _ tuple with kept | collapsed
  · exact .inr ⟨k, hk, kept⟩
  · exact .inl collapsed

variable {u : Access K}

omit [DecidableEq K] in
theorem OnRecord.grows (h : OnRecord ssi u) (grows : Grows ssi ssi') : OnRecord ssi' u := by
  unfold OnRecord at h ⊢
  refine ⟨grows.relationWriters h.1, ?_⟩
  cases hk : u.key with
  | none => rw [hk] at h; exact grows.wholeRelationWriters h.2
  | some k => rw [hk] at h; exact grows.tupleWriters h.2

theorem GraphOk.grows (h : GraphOk ssi snap reads writes) (grows : Grows ssi ssi')
    (locks : LocksOk ssi') : GraphOk ssi' snap reads writes where
  locks := locks
  snapshot t x' hx' := by
    obtain ⟨x, hx, grown⟩ := grows.back hx'
    rw [grown.snapshot]
    exact h.snapshot t x hx
  covered r hr ht := (h.covered r hr (grows.mem_iff.mp ht)).grows grows
  onRecord u hu ht := (h.onRecord u hu (grows.mem_iff.mp ht)).grows grows
  edges r u dep hr hu := grows.hasEdge (h.edges r u dep (grows.mem_iff.mp hr) (grows.mem_iff.mp hu))

omit [DecidableEq K] in
theorem LifeOk.grows (h : LifeOk ssi phase seq reads writes) (grows : Grows ssi ssi') :
    LifeOk ssi' phase seq reads writes where
  __ := h
  begun t x' hx' := by
    obtain ⟨x, hx, -⟩ := grows.back hx'
    exact h.begun t x hx
  finished t x' hx' fin := by
    obtain ⟨x, hx, grown⟩ := grows.back hx'
    exact h.finished t x hx (grown.finished ▸ fin)
  stamp t x' hx' := by
    obtain ⟨x, hx, grown⟩ := grows.back hx'
    rw [grown.commitSeq]
    exact h.stamp t x hx
  seq_lt t a ha := grows.nextCommitSeq ▸ h.seq_lt t a ha
  tracked t lg ended := grows.mem_iff.mpr (h.tracked t lg ended)

omit [DecidableEq K] in
theorem PurgeOk.grows (h : PurgeOk ssi snap held reads writes commits) (grows : Grows ssi ssi') :
    PurgeOk ssi' snap held reads writes commits :=
  fun u hu lg gone => h u hu lg fun mem => gone (grows.mem_iff.mpr mem)

/-! ### Reads and writes -/

theorem rwDep_cons_read {a b : TxnId} (h : rwDep snap (r :: reads) writes a b) :
    rwDep snap reads writes a b ∨
      a = r.txn ∧ a ≠ b ∧ (∃ s, snap a = some s ∧ s.concurrent b = true) ∧
        ∃ u ∈ writes, u.txn = b ∧ r.conflicts u = true := by
  have shown := rwDep_snap h
  obtain ⟨ne, conc, x, hx, u, hu, rfl, rfl, clash⟩ := h
  rcases hx with _ | ⟨_, old⟩
  · exact .inr ⟨rfl, ne, shown, u, hu, rfl, clash⟩
  · exact .inl ⟨ne, conc, x, old, u, hu, rfl, rfl, clash⟩

theorem rwDep_cons_write {a b : TxnId} (h : rwDep snap reads (u :: writes) a b) :
    rwDep snap reads writes a b ∨
      b = u.txn ∧ a ≠ b ∧ (∃ s, snap a = some s ∧ s.concurrent b = true) ∧
        ∃ r ∈ reads, r.txn = a ∧ r.conflicts u = true := by
  have shown := rwDep_snap h
  obtain ⟨ne, conc, r, hr, x, hx, rfl, rfl, clash⟩ := h
  rcases hx with _ | ⟨_, old⟩
  · exact .inr ⟨rfl, ne, shown, r, hr, rfl, clash⟩
  · exact .inl ⟨ne, conc, r, hr, x, old, rfl, rfl, clash⟩

/-- A new read keeps the graph complete, when the operation leaves a covering
lock and an edge to every tracked writer on record that it conflicts with. -/
theorem GraphOk.read (h : GraphOk ssi snap reads writes) (grows : Grows ssi ssi')
    (locks : LocksOk ssi') (cover : Covered ssi' r)
    (formed : ∀ u ∈ writes, r.conflicts u = true → r.txn ≠ u.txn → u.txn ∈ ssi.txns →
      OnRecord ssi u → (∃ s, snap r.txn = some s ∧ s.concurrent u.txn = true) →
      HasEdge ssi' r.txn u.txn) : GraphOk ssi' snap (r :: reads) writes where
  __ := h.grows grows locks
  covered x hx ht := by
    rcases hx with _ | ⟨_, old⟩
    · exact cover
    · exact (h.grows grows locks).covered x old ht
  edges a b dep ha hb := by
    rcases rwDep_cons_read dep with old | ⟨rfl, ne, shown, u, hu, rfl, clash⟩
    · exact (h.grows grows locks).edges a b old ha hb
    · have tracked := grows.mem_iff.mp hb
      exact formed u hu clash ne tracked (h.onRecord u hu tracked) shown

/-- The dual for a new write. -/
theorem GraphOk.write (h : GraphOk ssi snap reads writes) (grows : Grows ssi ssi')
    (locks : LocksOk ssi') (record : OnRecord ssi' u)
    (formed : ∀ r ∈ reads, r.conflicts u = true → r.txn ≠ u.txn → r.txn ∈ ssi.txns →
      Covered ssi r → (∃ s, snap r.txn = some s ∧ s.concurrent u.txn = true) →
      HasEdge ssi' r.txn u.txn) : GraphOk ssi' snap reads (u :: writes) where
  __ := h.grows grows locks
  onRecord x hx ht := by
    rcases hx with _ | ⟨_, old⟩
    · exact record
    · exact (h.grows grows locks).onRecord x old ht
  edges a b dep ha hb := by
    rcases rwDep_cons_write dep with old | ⟨rfl, ne, shown, r, hr, rfl, clash⟩
    · exact (h.grows grows locks).edges a b old ha hb
    · have tracked := grows.mem_iff.mp ha
      exact formed r hr clash ne tracked (h.covered r hr tracked) shown

theorem conflicts_iff {r u : Access K} : r.conflicts u = true ↔
    r.table = u.table ∧ (r.key = none ∨ u.key = none ∨ r.key = u.key) := by
  simp only [Access.conflicts, Bool.and_eq_true, Bool.or_eq_true, decide_eq_true_eq,
    isNone_iff_eq_none]
  tauto

section Accesses

/-- A tuple read consults every writer on record it conflicts with. -/
theorem OnRecord.mem_tupleReadWriters {u : Access K} {table : TableId} {key : K}
    (h : OnRecord ssi u) (clash : Access.conflicts ⟨top, table, some key⟩ u = true) :
    u.txn ∈ tupleReadWriters ssi table key := by
  obtain ⟨same, keys⟩ := conflicts_iff.mp clash
  obtain ⟨-, record⟩ := h
  rw [tupleReadWriters, mem_append, mem_append]
  cases hk : u.key with
  | none =>
    rw [hk] at record
    exact .inr (mem_membersAt.mpr (by simpa [← same] using record))
  | some k =>
    rw [hk] at record keys
    simp only [reduceCtorEq, some.injEq, false_or] at keys
    subst keys
    exact .inl (.inl (mem_membersAt.mpr (by simpa [← same] using record)))

variable {table : TableId} {key : K} (h : GraphOk ssi snap reads writes) (mem : top ∈ ssi.txns)
include h mem

theorem GraphOk.recordTupleRead :
    GraphOk (recordTupleRead ssi top table key) snap (⟨top, table, some key⟩ :: reads) writes := by
  obtain ⟨x, hx⟩ := isSome_iff_exists.mp (lookup_isSome.mpr mem)
  obtain ⟨grows, locks, lock, edges⟩ := recordTupleRead_spec table key h.locks hx
  refine h.read grows locks ?_ ?_
  · rcases lock with tuple | rel
    · exact .inr ⟨key, rfl, tuple⟩
    · exact .inl rel
  rintro u - clash ne known record ⟨s, hs, conc⟩
  rw [h.snapshot top x hx] at hs
  cases hs
  exact edges u.txn (record.mem_tupleReadWriters clash) ne known conc

theorem GraphOk.recordRelationRead :
    GraphOk (recordRelationRead ssi top table) snap (⟨top, table, none⟩ :: reads) writes := by
  obtain ⟨x, hx⟩ := isSome_iff_exists.mp (lookup_isSome.mpr mem)
  obtain ⟨grows, locks, lock, edges⟩ := recordRelationRead_spec table h.locks hx
  refine h.read grows locks (.inl lock) ?_
  rintro u - clash ne known ⟨record, -⟩ ⟨s, hs, conc⟩
  rw [h.snapshot top x hx] at hs
  cases hs
  exact edges u.txn (by simpa [← (conflicts_iff.mp clash).1] using record) ne known conc

theorem GraphOk.noteWrite :
    GraphOk (noteWrite ssi top table key).1 snap reads (⟨top, table, some key⟩ :: writes) := by
  obtain ⟨grows, locks, rel, tuple, edges⟩ := noteWrite_spec table key h.locks mem
  refine h.write grows locks ⟨rel, tuple⟩ ?_
  rintro r - clash ne known cover ⟨s, hs, conc⟩
  obtain ⟨x, hx⟩ := isSome_iff_exists.mp (lookup_isSome.mpr known)
  rw [h.snapshot r.txn x hx] at hs
  cases hs
  obtain ⟨same, keys⟩ := conflicts_iff.mp clash
  refine edges r.txn x ?_ ne hx conc
  rcases cover with whole | ⟨k, hk, row⟩
  · exact .inl (by simpa [same] using whole)
  rw [hk] at keys
  simp only [reduceCtorEq, some.injEq, false_or] at keys
  subst keys
  exact .inr (by simpa [same] using row)

theorem GraphOk.noteRelationWrite :
    GraphOk (noteRelationWrite ssi top table).1 snap reads (⟨top, table, none⟩ :: writes) := by
  obtain ⟨grows, locks, rel, whole, edges⟩ := noteRelationWrite_spec table h.locks mem
  refine h.write grows locks ⟨rel, whole⟩ ?_
  rintro r - clash ne known cover ⟨s, hs, conc⟩
  obtain ⟨x, hx⟩ := isSome_iff_exists.mp (lookup_isSome.mpr known)
  rw [h.snapshot r.txn x hx] at hs
  cases hs
  have same := (conflicts_iff.mp clash).1
  refine edges r.txn x ?_ ne hx conc
  rcases cover with lock | ⟨k, -, row⟩
  · exact .inl (by simpa [same] using lock)
  · exact .inr ⟨k, by simpa [same] using row⟩

end Accesses

omit [DecidableEq K] in
/-- A new access by a running, tracked transaction keeps the life facts. -/
theorem LifeOk.access {reads' writes' : List (Access K)} (h : LifeOk ssi phase seq reads writes)
    (mem : top ∈ ssi.txns) (running : phase top = .running)
    (logged : ∀ t, Logged reads' writes' t → t = top ∨ Logged reads writes t)
    (wrote : ∀ t, (∃ a ∈ writes', a.txn = t) → t = top ∨ ∃ a ∈ writes, a.txn = t) :
    LifeOk ssi phase seq reads' writes' where
  __ := h
  logged_begun t lg := by
    rcases logged t lg with rfl | old
    · simp [running]
    · exact h.logged_begun t old
  tracked t lg ended := by
    rcases logged t lg with rfl | old
    · exact mem
    · exact h.tracked t old ended
  stamped t hw passed := by
    rcases wrote t hw with rfl | old
    · simp [running] at passed
    · exact h.stamped t old passed

omit [DecidableEq K] in
theorem PurgeOk.access {reads' writes' : List (Access K)}
    (h : PurgeOk ssi snap held reads writes commits) (open_ : top ∉ commits)
    (logged : ∀ t, Logged reads' writes' t → t = top ∨ Logged reads writes t) :
    PurgeOk ssi snap held reads' writes' commits := by
  intro u hu lg
  rcases logged u lg with rfl | old
  · exact absurd hu open_
  · exact h u hu old

/-! ### Registration -/

variable {s : Snapshot}

theorem GraphOk.register (h : GraphOk ssi snap reads writes)
    (hs : snap top = some s) (fresh : top ∉ ssi.txns → ¬ Logged reads writes top) :
    GraphOk (register ssi top s) snap reads writes := by
  unfold Ssi.register
  split
  · exact h
  rename_i untracked
  have silent := fresh untracked
  have old : ∀ t, Logged reads writes t → t ∈ ssi.txns.insert top { snapshot := s } →
      t ∈ ssi.txns := by
    intro t lg mem
    rcases (mem_insert _).mp mem with rfl | known
    · exact absurd lg silent
    · exact known
  refine ⟨?_, ?_, fun r hr ht => h.covered r hr (old _ (.inl ⟨r, hr, rfl⟩) ht),
    fun u hu ht => h.onRecord u hu (old _ (.inr ⟨u, hu, rfl⟩) ht), ?_⟩
  · intro t x hx
    rcases lookup_insert_cases hx with ⟨-, rfl⟩ | ⟨-, old⟩
    · simp
    · exact h.locks t x old
  · intro t x hx
    rcases lookup_insert_cases hx with ⟨rfl, rfl⟩ | ⟨-, old⟩
    · exact hs
    · exact h.snapshot t x old
  intro r u dep hr hu
  obtain ⟨lr, lu⟩ := rwDep_logged dep
  obtain ⟨x, y, hx, hy, out, inn⟩ := h.edges r u dep (old r lr hr) (old u (.inr lu) hu)
  have keep : ∀ t z, ssi.txns.lookup t = some z →
      (ssi.txns.insert top { snapshot := s }).lookup t = some z := by
    intro t z hz
    have ne : t ≠ top := by
      rintro rfl
      exact untracked (lookup_isSome.mp (by simp [hz]))
    rw [lookup_insert_ne ne, hz]
  exact ⟨x, y, keep r x hx, keep u y hy, out, inn⟩

omit [DecidableEq K] in
theorem LifeOk.register (h : LifeOk ssi phase seq reads writes)
    (runs : phase top = .running) : LifeOk (register ssi top s) phase seq reads writes := by
  unfold Ssi.register
  split
  · exact h
  have unstamped : seq top = none := by
    cases hs : seq top with
    | none => rfl
    | some a => exact absurd runs (h.seq_passed top a hs).2.1
  refine ⟨?_, ?_, ?_, h.seq_passed, h.seq_lt, h.seq_inj, h.logged_begun,
    fun t lg ended => (mem_insert _).mpr (.inr (h.tracked t lg ended)), h.stamped⟩
  · intro t x hx
    rcases lookup_insert_cases hx with ⟨rfl, rfl⟩ | ⟨-, old⟩
    · simp [runs]
    · exact h.begun t x old
  · intro t x hx fin
    rcases lookup_insert_cases hx with ⟨rfl, rfl⟩ | ⟨-, old⟩
    · cases fin
    · exact h.finished t x old fin
  intro t x hx
  rcases lookup_insert_cases hx with ⟨rfl, rfl⟩ | ⟨-, old⟩
  · exact unstamped.symm
  · exact h.stamp t x old

omit [DecidableEq K] in
theorem PurgeOk.register (h : PurgeOk ssi snap held reads writes commits) :
    PurgeOk (register ssi top s) snap held reads writes commits := by
  unfold Ssi.register
  split
  · exact h
  · exact fun u hu lg gone => h u hu lg fun mem => gone ((mem_insert _).mpr (.inr mem))

/-! ### Removal -/

theorem GraphOk.drops (h : GraphOk ssi snap reads writes) (drops : Drops top ssi ssi') :
    GraphOk ssi' snap reads writes where
  locks := drops.locksOk h.locks
  snapshot t x' hx' := by
    obtain ⟨-, x, hx, sheds⟩ := drops.back hx'
    rw [sheds.snapshot]
    exact h.snapshot t x hx
  covered r hr ht := by
    obtain ⟨ne, before⟩ := drops.mem_iff.mp ht
    rcases h.covered r hr before with relation | ⟨k, hk, tuple⟩
    · exact .inl (drops.relationReaders _ ne relation)
    · exact .inr ⟨k, hk, drops.tupleReaders _ ne tuple⟩
  onRecord u hu ht := by
    obtain ⟨ne, before⟩ := drops.mem_iff.mp ht
    obtain ⟨relation, record⟩ := h.onRecord u hu before
    refine ⟨drops.relationWriters _ ne relation, ?_⟩
    cases hk : u.key with
    | none => rw [hk] at record; exact drops.wholeRelationWriters _ ne record
    | some k => rw [hk] at record; exact drops.tupleWriters _ ne record
  edges r u dep hr hu := by
    obtain ⟨nr, before⟩ := drops.mem_iff.mp hr
    obtain ⟨nu, before'⟩ := drops.mem_iff.mp hu
    exact drops.hasEdge nr nu (h.edges r u dep before before')

omit [DecidableEq K] in
/-- Removal keeps the life facts when the session is done with the transaction,
or is done with it in the same step. -/
theorem LifeOk.drops {phase' : TxnId → Phase} (h : LifeOk ssi phase seq reads writes)
    (drops : Drops top ssi ssi') (agree : ∀ t, t ≠ top → phase' t = phase t)
    (ended : phase' top = phase top ∧ phase top = .finished ∨ phase' top = .aborted) :
    LifeOk ssi' phase' seq reads writes where
  __ := h
  begun t x' hx' := by
    obtain ⟨ne, x, hx, -⟩ := drops.back hx'
    rw [agree t ne]
    exact h.begun t x hx
  finished t x' hx' fin := by
    obtain ⟨ne, x, hx, sheds⟩ := drops.back hx'
    rw [agree t ne]
    exact h.finished t x hx (sheds.finished ▸ fin)
  stamp t x' hx' := by
    obtain ⟨-, x, hx, sheds⟩ := drops.back hx'
    rw [sheds.commitSeq]
    exact h.stamp t x hx
  seq_passed t a ha := by
    by_cases same : t = top
    · rcases ended with ⟨kept, fin⟩ | ab <;> simp [*]
    · rw [agree t same]
      exact h.seq_passed t a ha
  seq_lt t a ha := drops.nextCommitSeq ▸ h.seq_lt t a ha
  logged_begun t lg := by
    by_cases same : t = top
    · rcases ended with ⟨kept, fin⟩ | ab <;> simp [*]
    · rw [agree t same]
      exact h.logged_begun t lg
  tracked t lg live := by
    by_cases same : t = top
    · rcases ended with ⟨kept, fin⟩ | ab <;> simp [*, Phase.isOver] at live
    · rw [agree t same] at live
      exact drops.mem_iff.mpr ⟨same, h.tracked t lg live⟩
  stamped t wrote passed := by
    by_cases same : t = top
    · subst same
      rcases ended with ⟨kept, fin⟩ | ab
      · exact h.stamped t wrote (.inr (.inr fin))
      · simp [ab] at passed
    · rw [agree t same] at passed
      exact h.stamped t wrote passed

/-! ### Phase changes and stamps -/

omit [DecidableEq K] in
/-- A phase change of a transaction that the manager has not been told to finish. -/
theorem LifeOk.rephase {p : Phase} (h : LifeOk ssi phase seq reads writes)
    (unfinished : phase top ≠ .finished) (begun : p ≠ .idle ∧ p ≠ .aborted)
    (unstamped : p = .running ∨ p = .rejected → seq top = none)
    (ended : p.isOver = false → (phase top).isOver = false ∨ ¬ Logged reads writes top)
    (stamped : p = .checked ∨ p = .settled ∨ p = .finished →
      (∃ a ∈ writes, a.txn = top) → ∃ a, seq top = some a) :
    LifeOk ssi (update phase top p) seq reads writes := by
  refine ⟨?_, ?_, h.stamp, ?_, h.seq_lt, h.seq_inj, ?_, ?_, ?_⟩
  · intro t x hx
    rw [update_apply]
    split
    · exact begun
    · exact h.begun t x hx
  · intro t x hx fin
    have ne : t ≠ top := fun same => unfinished (same ▸ h.finished t x hx fin)
    rw [update_of_ne ne]
    exact h.finished t x hx fin
  · intro t a ha
    rw [update_apply]
    split
    · have stamp : p = .running ∨ p = .rejected → False := fun early => by
        simp [‹t = top›, unstamped early] at ha
      exact ⟨begun.1, fun run => stamp (.inl run), fun rej => stamp (.inr rej)⟩
    · exact h.seq_passed t a ha
  · intro t lg
    rw [update_apply]
    split
    · exact begun.1
    · exact h.logged_begun t lg
  · intro t lg live
    refine h.tracked t lg ?_
    rw [update_apply] at live
    split at live
    · exact (ended live).elim (‹t = top› ▸ id) fun silent => absurd (‹t = top› ▸ lg) silent
    · exact live
  intro t wrote passed
  rw [update_apply] at passed
  split at passed
  · exact ‹t = top› ▸ stamped passed (‹t = top› ▸ wrote)
  · exact h.stamped t wrote passed

/-- Replacing an entry by one with the same snapshot, locks and edges keeps the
graph. -/
theorem GraphOk.reentry {x x' : TxnSsi K} {n : Nat} (h : GraphOk ssi snap reads writes)
    (hx : ssi.txns.lookup top = some x) (snapshot : x'.snapshot = x.snapshot)
    (tuple : x'.tupleLocks = x.tupleLocks) (rel : x'.relationLocks = x.relationLocks)
    (out : x'.outEdges = x.outEdges) (inn : x'.inEdges = x.inEdges) :
    GraphOk { ssi with txns := ssi.txns.insert top x', nextCommitSeq := n } snap reads writes := by
  have known : top ∈ ssi.txns := lookup_isSome.mp (by simp [hx])
  have mem_of : ∀ t, t ∈ ssi.txns.insert top x' → t ∈ ssi.txns := by
    intro t mem
    rcases (mem_insert _).mp mem with rfl | old
    · exact known
    · exact old
  -- Every entry afterwards agrees with the entry before on what the graph reads.
  have entry : ∀ t y, ssi.txns.lookup t = some y → ∃ y',
      (ssi.txns.insert top x').lookup t = some y' ∧ y'.snapshot = y.snapshot ∧
        y'.tupleLocks = y.tupleLocks ∧ y'.relationLocks = y.relationLocks ∧
        y'.outEdges = y.outEdges ∧ y'.inEdges = y.inEdges := by
    intro t y hy
    by_cases same : t = top
    · subst same
      rw [hx] at hy
      cases hy
      exact ⟨x', by simp, snapshot, tuple, rel, out, inn⟩
    · exact ⟨y, by rw [lookup_insert_ne same, hy], rfl, rfl, rfl, rfl, rfl⟩
  have back : ∀ t y', (ssi.txns.insert top x').lookup t = some y' → ∃ y,
      ssi.txns.lookup t = some y ∧ y'.snapshot = y.snapshot ∧
        y'.tupleLocks = y.tupleLocks ∧ y'.relationLocks = y.relationLocks := by
    intro t y' hy'
    obtain ⟨y, hy⟩ := isSome_iff_exists.mp (lookup_isSome.mpr
      (mem_of t (lookup_isSome.mp (by simp [hy']))))
    obtain ⟨z, hz, s, tl, rl, -, -⟩ := entry t y hy
    rw [hz] at hy'
    cases hy'
    exact ⟨y, hy, s, tl, rl⟩
  refine ⟨?_, ?_, fun r hr ht => h.covered r hr (mem_of _ ht),
    fun u hu ht => h.onRecord u hu (mem_of _ ht), ?_⟩
  · intro t y' hy'
    obtain ⟨y, hy, -, tl, rl⟩ := back t y' hy'
    rw [tl, rl]
    exact h.locks t y hy
  · intro t y' hy'
    obtain ⟨y, hy, s, -, -⟩ := back t y' hy'
    rw [s]
    exact h.snapshot t y hy
  intro r u dep hr hu
  obtain ⟨y, z, hy, hz, o, i⟩ := h.edges r u dep (mem_of _ hr) (mem_of _ hu)
  obtain ⟨y', hy', -, -, -, oy, -⟩ := entry r y hy
  obtain ⟨z', hz', -, -, -, -, iz⟩ := entry u z hz
  exact ⟨y', z', hy', hz', oy ▸ o, iz ▸ i⟩

omit [DecidableEq K]

/-- Replacing an entry never purges one. -/
theorem PurgeOk.reentry {x' : TxnSsi K} {n : Nat} (h : PurgeOk ssi snap held reads writes commits) :
    PurgeOk { ssi with txns := ssi.txns.insert top x', nextCommitSeq := n } snap held reads writes
      commits := fun u hu lg gone => h u hu lg fun mem => gone ((mem_insert _).mpr (.inr mem))

/-- The entry may change as long as its stamp and its `finished` mark tell the
truth. -/
theorem LifeOk.reentry {x' : TxnSsi K} (h : LifeOk ssi phase seq reads writes)
    (begun : phase top ≠ .idle ∧ phase top ≠ .aborted)
    (fin : x'.finished = true → phase top = .finished) (stamp : x'.commitSeq = seq top) :
    LifeOk { ssi with txns := ssi.txns.insert top x' } phase seq reads writes := by
  refine ⟨?_, ?_, ?_, h.seq_passed, h.seq_lt, h.seq_inj, h.logged_begun,
    fun t lg ended => (mem_insert _).mpr (.inr (h.tracked t lg ended)), h.stamped⟩
  · intro t y hy
    rcases lookup_insert_cases hy with ⟨rfl, rfl⟩ | ⟨-, old⟩
    · exact begun
    · exact h.begun t y old
  · intro t y hy finished
    rcases lookup_insert_cases hy with ⟨rfl, rfl⟩ | ⟨-, old⟩
    · exact fin finished
    · exact h.finished t y old finished
  intro t y hy
  rcases lookup_insert_cases hy with ⟨rfl, rfl⟩ | ⟨-, old⟩
  · exact stamp
  · exact h.stamp t y old

/-- A running transaction passes its check and is stamped. -/
theorem LifeOk.stamps {x : TxnSsi K} (h : LifeOk ssi phase seq reads writes)
    (hx : ssi.txns.lookup top = some x) (runs : phase top = .running) : LifeOk { ssi with
        nextCommitSeq := ssi.nextCommitSeq + 1
        txns := ssi.txns.insert top { x with commitSeq := some ssi.nextCommitSeq } }
      (update phase top .checked)
      (update seq top (some ssi.nextCommitSeq)) reads writes := by
  have known : top ∈ ssi.txns := lookup_isSome.mp (by simp [hx])
  have phase_of : ∀ t, t ≠ top → update phase top .checked t = phase t :=
    fun t ne => update_of_ne ne _ _
  have seq_of : ∀ t, t ≠ top → update seq top (some ssi.nextCommitSeq) t = seq t :=
    fun t ne => update_of_ne ne _ _
  -- Older stamps are below the one handed out now.
  have seq_cases : ∀ t a, update seq top (some ssi.nextCommitSeq) t = some a →
      t = top ∧ a = ssi.nextCommitSeq ∨ t ≠ top ∧ seq t = some a ∧ a < ssi.nextCommitSeq :=
    fun t a ha => (update_eq_some.mp ha).imp id fun ⟨ne, old⟩ =>
      ⟨ne, old, h.seq_lt t a old⟩
  refine ⟨?_, ?_, ?_, ?_, ?_, ?_, ?_, ?_, ?_⟩
  · intro t y hy
    rcases lookup_insert_cases hy with ⟨rfl, -⟩ | ⟨ne, old⟩
    · simp
    · rw [phase_of t ne]
      exact h.begun t y old
  · intro t y hy fin
    rcases lookup_insert_cases hy with ⟨rfl, rfl⟩ | ⟨ne, old⟩
    · have := h.finished t x hx fin
      rw [runs] at this
      cases this
    · rw [phase_of t ne]
      exact h.finished t y old fin
  · intro t y hy
    rcases lookup_insert_cases hy with ⟨rfl, rfl⟩ | ⟨ne, old⟩
    · rw [update_self]
    · rw [seq_of t ne]
      exact h.stamp t y old
  · intro t a ha
    rcases seq_cases t a ha with ⟨rfl, -⟩ | ⟨ne, old, -⟩
    · simp
    · rw [phase_of t ne]
      exact h.seq_passed t a old
  · intro t a ha
    rcases seq_cases t a ha with ⟨-, rfl⟩ | ⟨-, -, lt⟩
    · exact Nat.lt_succ_self _
    · exact Nat.lt_succ_of_lt lt
  · intro t u a ha hb
    rcases seq_cases t a ha with ⟨rfl, rfl⟩ | ⟨-, old, lt⟩
    · rcases seq_cases u _ hb with ⟨rfl, -⟩ | ⟨-, -, lt⟩
      · rfl
      · exact absurd lt (lt_irrefl _)
    · rcases seq_cases u a hb with ⟨-, rfl⟩ | ⟨-, old', -⟩
      · exact absurd lt (lt_irrefl _)
      · exact h.seq_inj t u a old old'
  · intro t lg
    rw [update_apply]
    split
    · simp
    · exact h.logged_begun t lg
  · intro t lg ended
    refine (mem_insert _).mpr ?_
    by_cases same : t = top
    · exact .inl same
    · rw [phase_of t same] at ended
      exact .inr (h.tracked t lg ended)
  intro t wrote passed
  by_cases same : t = top
  · exact ⟨ssi.nextCommitSeq, by rw [same, update_self]⟩
  rw [phase_of t same] at passed
  rw [seq_of t same]
  exact h.stamped t wrote passed

/-! ### The commit check -/

theorem isDoomedPivot_of_edges {i p o : TxnId} {y : TxnSsi K} (hin : HasEdge ssi i p)
    (hout : HasEdge ssi p o) (ho : ssi.txns.lookup o = some y) (stamped : y.commitSeq.isSome) :
    isDoomedPivot ssi p = true := by
  obtain ⟨-, x, -, hx, -, inn⟩ := hin
  obtain ⟨x', -, hx', -, out, -⟩ := hout
  rw [hx] at hx'
  cases hx'
  have hasIn : x.inEdges.isEmpty = false := by
    rw [isEmpty_eq_false_iff]
    exact ne_nil_of_mem inn
  have hasOut : x.outEdges.isEmpty = false := by
    rw [isEmpty_eq_false_iff]
    exact ne_nil_of_mem out
  simp only [isDoomedPivot, hx, hasIn, hasOut, Bool.or_self, Bool.false_eq_true, if_false]
  exact any_eq_true.mpr ⟨o, out, by simp [ho, stamped]⟩

/-- What the commit check does to a tracked transaction: it refuses and changes
nothing, or it passes a transaction that is not doomed and stamps it. -/
theorem commitCheck_cases {x : TxnSsi K} (hx : ssi.txns.lookup top = some x) :
    (∃ e, commitCheck ssi top = (ssi, .error e)) ∨
      isDoomedPivot ssi top = false ∧ commitCheck ssi top = ({ ssi with
        nextCommitSeq := ssi.nextCommitSeq + 1
        txns := ssi.txns.insert top { x with commitSeq := some ssi.nextCommitSeq } }, .ok ()) := by
  unfold commitCheck
  rw [hx]
  dsimp only
  split
  · exact .inl ⟨_, rfl⟩
  rename_i undoomed
  split
  · exact .inl ⟨_, rfl⟩
  split
  · exact .inr ⟨by simpa using undoomed, rfl⟩
  · exact .inl ⟨_, rfl⟩

end Saguaro.Ssi
