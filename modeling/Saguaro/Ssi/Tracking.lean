/-
What each operation of the conflict manager does to the tracked state.

Two relations carry every later proof. `Grows st st'` is what a read, a write or
a promotion may do: the tracked transactions stay, their snapshots and stamps
stay, edges and write records only accumulate, and a tuple lock may at most turn
into a relation lock. `Drops top st st'` is what removing one transaction does to
the others. Each operation has one lemma that places it in one of the two and
says which edges it forms; no later module unfolds an operation.
-/

import Saguaro.Ssi.Manager

namespace Saguaro.Ssi

open List Option AList

/-! ### Memberships -/

section Memberships

variable {κ : Type} [DecidableEq κ] {x' : TxnSsi K}

variable {m : List (κ × TxnId)}

@[simp] theorem mem_membersAt {key : κ} {t : TxnId} : t ∈ membersAt m key ↔ (key, t) ∈ m := by
  simp only [membersAt, List.mem_map, mem_filter, decide_eq_true_eq, Prod.exists]
  constructor
  · rintro ⟨k, u, ⟨mem, rfl⟩, rfl⟩
    exact mem
  · intro mem
    exact ⟨key, t, ⟨mem, rfl⟩, rfl⟩

theorem mem_removeReader {key : κ} {reader : TxnId} {e : κ × TxnId} :
    e ∈ removeReader m key reader ↔ e ∈ m ∧ e ≠ (key, reader) := by
  simp [removeReader]

theorem mem_removeReaderAll {keys : List κ} {reader : TxnId} {e : κ × TxnId} :
    e ∈ removeReaderAll m keys reader ↔ e ∈ m ∧ (e.2 = reader → e.1 ∉ keys) := by
  induction keys generalizing m with
  | nil => simp [removeReaderAll]
  | cons key keys ih =>
    have unfolded : removeReaderAll m (key :: keys) reader =
        removeReaderAll (removeReader m key reader) keys reader := rfl
    rw [unfolded, ih, mem_removeReader]
    obtain ⟨k, t⟩ := e
    simp only [ne_eq, Prod.mk.injEq, mem_cons, not_or]
    tauto

end Memberships

/-! ### Edges and their growth -/

variable {K : Type}

/-- The edge `reader →rw writer` is recorded at both ends. -/
def HasEdge (st : SsiState K) (reader writer : TxnId) : Prop :=
  ∃ x y, st.txns.lookup reader = some x ∧ st.txns.lookup writer = some y ∧
    writer ∈ x.outEdges ∧ reader ∈ y.inEdges

/-- The reverse indexes of a transaction point at real memberships. -/
def LocksOk (st : SsiState K) : Prop := ∀ t x, st.txns.lookup t = some x →
    (∀ e ∈ x.tupleLocks, (e, t) ∈ st.tupleReaders) ∧
    ∀ table ∈ x.relationLocks, (table, t) ∈ st.relationReaders

/-- One transaction's entry after a step that only records more about it. -/
structure TxnSsi.Grows (x x' : TxnSsi K) : Prop where
  snapshot : x'.snapshot = x.snapshot
  commitSeq : x'.commitSeq = x.commitSeq
  finished : x'.finished = x.finished
  outEdges : x.outEdges ⊆ x'.outEdges
  inEdges : x.inEdges ⊆ x'.inEdges

theorem TxnSsi.Grows.refl (x : TxnSsi K) : x.Grows x := ⟨rfl, rfl, rfl, fun _ h => h, fun _ h => h⟩

theorem TxnSsi.Grows.trans {x y z : TxnSsi K} (h : x.Grows y) (h' : y.Grows z) : x.Grows z :=
  ⟨h'.snapshot.trans h.snapshot, h'.commitSeq.trans h.commitSeq, h'.finished.trans h.finished,
    fun _ m => h'.outEdges (h.outEdges m), fun _ m => h'.inEdges (h.inEdges m)⟩

/-- What reads, writes and promotions may do to the state. -/
structure Grows (st st' : SsiState K) : Prop where
  txn : ∀ t, match st.txns.lookup t with
    | none => st'.txns.lookup t = none
    | some x => ∃ x', st'.txns.lookup t = some x' ∧ x.Grows x'
  relationWriters : st.relationWriters ⊆ st'.relationWriters
  tupleWriters : st.tupleWriters ⊆ st'.tupleWriters
  wholeRelationWriters : st.wholeRelationWriters ⊆ st'.wholeRelationWriters
  relationReaders : st.relationReaders ⊆ st'.relationReaders
  tupleReaders : ∀ e ∈ st.tupleReaders, e ∈ st'.tupleReaders ∨ (e.1.1, e.2) ∈ st'.relationReaders
  nextCommitSeq : st'.nextCommitSeq = st.nextCommitSeq

namespace Grows

variable {st st' st'' : SsiState K} {t : TxnId}

theorem some (h : Grows st st') {x : TxnSsi K} (hx : st.txns.lookup t = some x) :
    ∃ x', st'.txns.lookup t = .some x' ∧ x.Grows x' := by
  have := h.txn t
  rwa [hx] at this

theorem none (h : Grows st st') (hx : st.txns.lookup t = .none) : st'.txns.lookup t = .none := by
  have := h.txn t
  rwa [hx] at this

/-- Nothing is newly tracked: an entry afterwards has an entry before. -/
theorem back (h : Grows st st') (hx : st'.txns.lookup t = .some x') :
    ∃ x, st.txns.lookup t = .some x ∧ x.Grows x' := by
  cases prior : st.txns.lookup t with
  | none => rw [h.none prior] at hx; cases hx
  | some x =>
    obtain ⟨y, hy, grows⟩ := h.some prior
    rw [hy] at hx
    cases hx
    exact ⟨x, rfl, grows⟩

theorem mem_iff (h : Grows st st') : t ∈ st'.txns ↔ t ∈ st.txns := by
  rw [← lookup_isSome, ← lookup_isSome]
  cases prior : st.txns.lookup t with
  | none => simp [h.none prior]
  | some x =>
    obtain ⟨y, hy, -⟩ := h.some prior
    simp [hy]

theorem of_txns (h : ∀ t, match st.txns.lookup t with
      | .none => st'.txns.lookup t = .none
      | .some x => ∃ x', st'.txns.lookup t = .some x' ∧ x.Grows x')
    (hrw : st'.relationWriters = st.relationWriters) (htw : st'.tupleWriters = st.tupleWriters)
    (hww : st'.wholeRelationWriters = st.wholeRelationWriters)
    (hrr : st'.relationReaders = st.relationReaders) (htr : st'.tupleReaders = st.tupleReaders)
    (hseq : st'.nextCommitSeq = st.nextCommitSeq) : Grows st st' :=
  ⟨h, by rw [hrw]; exact fun _ m => m, by rw [htw]; exact fun _ m => m,
    by rw [hww]; exact fun _ m => m, by rw [hrr]; exact fun _ m => m,
    fun e m => .inl (by rw [htr]; exact m), hseq⟩

theorem refl (st : SsiState K) : Grows st st := by
  refine of_txns (fun t => ?_) rfl rfl rfl rfl rfl rfl
  cases st.txns.lookup t with
  | none => rfl
  | some x => exact ⟨x, rfl, .refl x⟩

theorem trans (h : Grows st st') (h' : Grows st' st'') : Grows st st'' where
  txn t := by
    cases before : st.txns.lookup t with
    | none => exact h'.none (h.none before)
    | some x =>
      obtain ⟨y, hy, first⟩ := h.some before
      obtain ⟨z, hz, second⟩ := h'.some hy
      exact ⟨z, hz, first.trans second⟩
  relationWriters _ m := h'.relationWriters (h.relationWriters m)
  tupleWriters _ m := h'.tupleWriters (h.tupleWriters m)
  wholeRelationWriters _ m := h'.wholeRelationWriters (h.wholeRelationWriters m)
  relationReaders _ m := h'.relationReaders (h.relationReaders m)
  tupleReaders e m := by
    rcases h.tupleReaders e m with kept | collapsed
    · exact h'.tupleReaders e kept
    · exact .inr (h'.relationReaders collapsed)
  nextCommitSeq := h'.nextCommitSeq.trans h.nextCommitSeq

theorem hasEdge (h : Grows st st') {r w : TxnId} (edge : HasEdge st r w) : HasEdge st' r w := by
  obtain ⟨x, y, hx, hy, out, inn⟩ := edge
  obtain ⟨x', hx', gx⟩ := h.some hx
  obtain ⟨y', hy', gy⟩ := h.some hy
  exact ⟨x', y', hx', hy', gx.outEdges out, gy.inEdges inn⟩

end Grows

/-! ### The operations -/

variable {st : SsiState K} {t r w top : TxnId}

variable {f : TxnSsi K → TxnSsi K}

/-- Updating one entry by a growing function grows the state. -/
theorem grows_modify (st : SsiState K) (top : TxnId) (growing : ∀ x : TxnSsi K, x.Grows (f x)) :
    Grows st { st with txns := st.txns.modify top f } := by
  refine .of_txns (fun t => ?_) rfl rfl rfl rfl rfl rfl
  by_cases same : t = top
  · subst same
    rw [lookup_modify_self]
    cases st.txns.lookup t with
    | none => rfl
    | some x => exact ⟨f x, rfl, growing x⟩
  rw [lookup_modify_ne same]
  cases st.txns.lookup t with
  | none => rfl
  | some x => exact ⟨x, rfl, .refl x⟩

/-- Replacing an entry by one that grew from it grows the state. -/
theorem grows_insert {x : TxnSsi K} (hx : st.txns.lookup top = some x) (growing : x.Grows x') :
    Grows st { st with txns := st.txns.insert top x' } := by
  refine .of_txns (fun t => ?_) rfl rfl rfl rfl rfl rfl
  by_cases same : t = top
  · subst same
    rw [hx]
    exact ⟨x', by simp, growing⟩
  simp only [lookup_insert_ne same]
  cases st.txns.lookup t with
  | none => rfl
  | some y => exact ⟨y, rfl, .refl y⟩

theorem formRwEdge_grows : Grows st (formRwEdge st r w) := by
  unfold formRwEdge
  split
  · exact .refl st
  split
  · exact .refl st
  split
  · refine Grows.trans (grows_modify st r
        fun x => ?_)
      (grows_modify _ w fun x => ?_)
    · exact ⟨rfl, rfl, rfl, fun _ m => mem_insert_of_mem m, fun _ m => m⟩
    · exact ⟨rfl, rfl, rfl, fun _ m => m, fun _ m => mem_insert_of_mem m⟩
  · exact .refl st

/-- Edge formation touches the edge sets and nothing else. -/
theorem formRwEdge_tables : formRwEdge st r w = { st with txns := (formRwEdge st r w).txns } := by
  unfold formRwEdge
  split
  · rfl
  split
  · rfl
  · split <;> rfl

variable {x : TxnSsi K}

theorem formRwEdge_hasEdge (ne : r ≠ w) (hr : st.txns.lookup r = some x)
    (hw : w ∈ st.txns) (conc : x.snapshot.concurrent w = true) :
    HasEdge (formRwEdge st r w) r w := by
  obtain ⟨y, hy⟩ := isSome_iff_exists.mp (lookup_isSome.mpr hw)
  have formed : formRwEdge st r w = { st with
      txns := (st.txns.modify r fun t =>
        { t with outEdges := t.outEdges.insert w }).modify w fun t =>
          { t with inEdges := t.inEdges.insert r } } := by
    unfold formRwEdge
    rw [if_neg (by simp [ne, hw]), hr]
    simp [conc]
  rw [formed]
  refine ⟨{ x with outEdges := x.outEdges.insert w }, { y with inEdges := y.inEdges.insert r },
    ?_, ?_, mem_insert_self, mem_insert_self⟩
  · simp [lookup_modify_ne ne, hr]
  · simp [lookup_modify_ne ne.symm, hy]

/-- A fold of edge formations grows the state and changes no other table. -/
theorem foldl_formRwEdge_grows {α : Type} (st : SsiState K) (ends : α → TxnId × TxnId) (xs : List α) :
    Grows st (xs.foldl (fun st a => formRwEdge st (ends a).1 (ends a).2) st) ∧
      ∃ txns, xs.foldl (fun st a => formRwEdge st (ends a).1 (ends a).2) st = { st with txns } := by
  induction xs generalizing st with
  | nil => exact ⟨.refl st, st.txns, rfl⟩
  | cons a xs ih =>
    obtain ⟨grows, txns, eq⟩ := ih (formRwEdge st (ends a).1 (ends a).2)
    refine ⟨formRwEdge_grows.trans grows, txns, ?_⟩
    rw [foldl_cons, eq, formRwEdge_tables]

/-- Every pair of the fold that deserves an edge gets one. -/
theorem foldl_formRwEdge_hasEdge {α : Type} (ends : α → TxnId × TxnId) {xs : List α} {a : α}
    (mem : a ∈ xs) (ne : (ends a).1 ≠ (ends a).2)
    (hr : st.txns.lookup (ends a).1 = some x) (hw : (ends a).2 ∈ st.txns)
    (conc : x.snapshot.concurrent (ends a).2 = true) :
    HasEdge (xs.foldl (fun st a => formRwEdge st (ends a).1 (ends a).2) st)
      (ends a).1 (ends a).2 := by
  induction xs generalizing st x with
  | nil => cases mem
  | cons b xs ih =>
    rw [foldl_cons]
    rcases mem with _ | ⟨_, later⟩
    · exact (foldl_formRwEdge_grows _ ends xs).1.hasEdge (formRwEdge_hasEdge ne hr hw conc)
    have step : Grows st (formRwEdge st (ends b).1 (ends b).2) := formRwEdge_grows
    obtain ⟨x', hx', grown⟩ := step.some hr
    exact ih later hx' (step.mem_iff.mpr hw) (by rw [grown.snapshot]; exact conc)

/-! ### Locks -/

/-- An update of one entry that leaves its locks alone keeps the reverse indexes
sound. -/
theorem LocksOk.modify (ok : LocksOk st) (top : TxnId)
    (tuple : ∀ x, (f x).tupleLocks = x.tupleLocks)
    (rel : ∀ x, (f x).relationLocks = x.relationLocks) :
    LocksOk { st with txns := st.txns.modify top f } := by
  intro t x hx
  by_cases same : t = top
  · subst same
    rw [lookup_modify_self, map_eq_some_iff] at hx
    obtain ⟨y, hy, rfl⟩ := hx
    rw [tuple, rel]
    exact ok t y hy
  · rw [lookup_modify_ne same] at hx
    exact ok t x hx

theorem LocksOk.formRwEdge (ok : LocksOk st) : LocksOk (formRwEdge st r w) := by
  unfold Ssi.formRwEdge
  split
  · exact ok
  split
  · exact ok
  split
  · exact (ok.modify r (f := fun t => { t with outEdges := t.outEdges.insert w })
      (fun _ => rfl) fun _ => rfl).modify w (fun _ => rfl) fun _ => rfl
  · exact ok

theorem LocksOk.foldl_formRwEdge {α : Type} (ends : α → TxnId × TxnId) (xs : List α)
    (ok : LocksOk st) :
    LocksOk (xs.foldl (fun st a => Ssi.formRwEdge st (ends a).1 (ends a).2) st) := by
  induction xs generalizing st with
  | nil => exact ok
  | cons a xs ih => exact ih ok.formRwEdge

/-- A change of one entry's locks is sound when the entry's new locks are real
memberships and the others keep theirs. -/
theorem LocksOk.insert {relationReaders : List (TableId × TxnId)}
    {tupleReaders : List ((TableId × K) × TxnId)} (ok : LocksOk st)
    (tuples : ∀ e ∈ x'.tupleLocks, (e, top) ∈ tupleReaders)
    (relations : ∀ table ∈ x'.relationLocks, (table, top) ∈ relationReaders)
    (others : ∀ t, t ≠ top → (∀ e, (e, t) ∈ st.tupleReaders → (e, t) ∈ tupleReaders) ∧
      ∀ table, (table, t) ∈ st.relationReaders → (table, t) ∈ relationReaders) :
    LocksOk { st with txns := st.txns.insert top x', relationReaders, tupleReaders } := by
  intro t y hy
  rcases lookup_insert_cases hy with ⟨rfl, rfl⟩ | ⟨ne, old⟩
  · exact ⟨tuples, relations⟩
  · exact ⟨fun e m => (others t ne).1 e ((ok t y old).1 e m),
      fun table m => (others t ne).2 table ((ok t y old).2 table m)⟩

theorem addRelationLock_spec (table : TableId) (ok : LocksOk st) (known : top ∈ st.txns) :
    Grows st (addRelationLock st top table) ∧ LocksOk (addRelationLock st top table) ∧
      (table, top) ∈ (addRelationLock st top table).relationReaders := by
  obtain ⟨x, hx⟩ := isSome_iff_exists.mp (lookup_isSome.mpr known)
  unfold addRelationLock
  rw [hx]
  dsimp only
  split
  · rename_i held
    exact ⟨.refl st, ok, (ok top x hx).2 table held⟩
  have entry : Grows st { st with
      txns := st.txns.insert top { x with relationLocks := table :: x.relationLocks } } :=
    grows_insert hx ⟨rfl, rfl, rfl, fun _ m => m, fun _ m => m⟩
  refine ⟨⟨entry.txn, fun _ m => m, fun _ m => m, fun _ m => m,
    fun _ m => mem_insert_of_mem m, fun e m => .inl m, rfl⟩, ok.insert (ok top x hx).1 ?_
      fun t _ => ⟨fun _ m => m, fun _ m => mem_insert_of_mem m⟩, mem_insert_self⟩
  intro tb m
  rcases m with _ | ⟨_, old⟩
  · exact mem_insert_self
  · exact mem_insert_of_mem ((ok top x hx).2 tb old)

section Keyed

variable [DecidableEq K] {table : TableId} {key : K}

variable {x : TxnSsi K}

/-- Giving up one transaction's tuple locks on a table, as the collapse and the
promotion do before they take the relation lock. -/
theorem dropTupleLocks_locksOk {keys : List (TableId × K)} (ok : LocksOk st)
    (hx : st.txns.lookup top = some x) (keysOn : ∀ e ∈ keys, e.1 = table) : LocksOk { st with
      txns := st.txns.insert top
        { x with tupleLocks := x.tupleLocks.filter fun e => e.1 ≠ table }
      tupleReaders := removeReaderAll st.tupleReaders keys top } := by
  refine ok.insert (fun e m => ?_) (ok top x hx).2 fun t ne =>
    ⟨fun e m => mem_removeReaderAll.mpr ⟨m, fun eq => absurd eq ne⟩, fun _ m => m⟩
  obtain ⟨held, off⟩ := mem_filter.mp m
  refine mem_removeReaderAll.mpr ⟨(ok top x hx).1 e held, fun _ inKeys => ?_⟩
  simp only [ne_eq, decide_not, Bool.not_eq_true', decide_eq_false_iff_not] at off
  exact off (keysOn e inKeys)

/-- Tuple locks given up in exchange for the table's relation lock: the state
grows, because every lost tuple lock is covered by the relation lock. -/
theorem exchangeTupleLocks_spec (keys : List (TableId × K)) (edges : List TxnId)
    (ok : LocksOk st) (hx : st.txns.lookup top = some x) (keysOn : ∀ e ∈ keys, e.1 = table) :
    let bare := { st with
      txns := st.txns.insert top
        { x with tupleLocks := x.tupleLocks.filter fun e => e.1 ≠ table }
      tupleReaders := removeReaderAll st.tupleReaders keys top }
    let st' := addRelationLock (edges.foldl (formRwEdge · top ·) bare) top table
    Grows st st' ∧ LocksOk st' ∧ (table, top) ∈ st'.relationReaders := by
  intro bare st'
  have bareOk : LocksOk bare := dropTupleLocks_locksOk ok hx keysOn
  obtain ⟨formed, txns, tables⟩ := foldl_formRwEdge_grows bare (fun u => (top, u)) edges
  have entry : Grows st { st with txns := bare.txns } :=
    grows_insert hx ⟨rfl, rfl, rfl, fun _ m => m, fun _ m => m⟩
  have known : top ∈ (edges.foldl (formRwEdge · top ·) bare).txns :=
    formed.mem_iff.mpr (mem_insert _ |>.mpr (.inl rfl))
  obtain ⟨locked, locksOk, here⟩ := addRelationLock_spec table
    (bareOk.foldl_formRwEdge (fun u => (top, u)) edges) known
  refine ⟨?_, locksOk, here⟩
  have middle : Grows bare st' := formed.trans locked
  refine ⟨fun t => ?_, middle.relationWriters, middle.tupleWriters, middle.wholeRelationWriters,
    middle.relationReaders, fun e m => ?_, middle.nextCommitSeq⟩
  · cases prior : st.txns.lookup t with
    | none => exact middle.none (entry.none prior)
    | some y =>
      obtain ⟨y', hy', first⟩ := entry.some prior
      obtain ⟨z, hz, snd⟩ := middle.some hy'
      exact ⟨z, hz, first.trans snd⟩
  by_cases lost : e.2 = top ∧ e.1 ∈ keys
  · right
    rw [keysOn _ lost.2, lost.1]
    exact here
  · refine middle.tupleReaders e (mem_removeReaderAll.mpr ⟨m, fun eq inKeys => ?_⟩)
    exact lost ⟨eq, inKeys⟩

theorem addTupleLock_spec (table : TableId) (key : K) (ok : LocksOk st) (known : top ∈ st.txns) :
    Grows st (addTupleLock st top table key) ∧ LocksOk (addTupleLock st top table key) ∧
      (((table, key), top) ∈ (addTupleLock st top table key).tupleReaders ∨
        (table, top) ∈ (addTupleLock st top table key).relationReaders) := by
  obtain ⟨x, hx⟩ := isSome_iff_exists.mp (lookup_isSome.mpr known)
  unfold addTupleLock
  rw [hx]
  dsimp only
  split
  · rename_i held
    exact ⟨.refl st, ok, .inl ((ok top x hx).1 _ held)⟩
  split
  · obtain ⟨grows, locksOk, here⟩ := exchangeTupleLocks_spec
      ((table, key) :: x.tupleLocks.filter fun e => e.1 = table) [] ok hx (fun e m => by
        rcases m with _ | ⟨_, old⟩
        · rfl
        · exact of_decide_eq_true (mem_filter.mp old).2)
    exact ⟨grows, locksOk, .inr here⟩
  have entry : Grows st { st with
      txns := st.txns.insert top { x with tupleLocks := (table, key) :: x.tupleLocks } } :=
    grows_insert hx ⟨rfl, rfl, rfl, fun _ m => m, fun _ m => m⟩
  refine ⟨⟨entry.txn, fun _ m => m, fun _ m => m, fun _ m => m, fun _ m => m,
    fun e m => .inl (mem_insert_of_mem m), rfl⟩, ok.insert ?_ (ok top x hx).2
      fun t _ => ⟨fun _ m => mem_insert_of_mem m, fun _ m => m⟩, .inl mem_insert_self⟩
  intro e m
  rcases m with _ | ⟨_, old⟩
  · exact mem_insert_self
  · exact mem_insert_of_mem ((ok top x hx).1 e old)

/-- A tuple read leaves a lock that covers the row, and an edge to every tracked
concurrent writer it had to conflict with. -/
theorem recordTupleRead_spec (table : TableId) (key : K) (ok : LocksOk st)
    (hx : st.txns.lookup top = some x) :
    Grows st (recordTupleRead st top table key) ∧ LocksOk (recordTupleRead st top table key) ∧
      (((table, key), top) ∈ (recordTupleRead st top table key).tupleReaders ∨
        (table, top) ∈ (recordTupleRead st top table key).relationReaders) ∧
      ∀ w ∈ tupleReadWriters st table key, top ≠ w → w ∈ st.txns →
        x.snapshot.concurrent w = true → HasEdge (recordTupleRead st top table key) top w := by
  have known : top ∈ st.txns := lookup_isSome.mp (by simp [hx])
  have formed := (foldl_formRwEdge_grows st (fun u => (top, u)) (tupleReadWriters st table key)).1
  obtain ⟨locked, locksOk, here⟩ := addTupleLock_spec table key
    (ok.foldl_formRwEdge (fun u => (top, u)) (tupleReadWriters st table key))
    (formed.mem_iff.mpr known)
  simp only [recordTupleRead, if_pos known]
  refine ⟨formed.trans locked, locksOk, here, fun w mem ne hw conc => ?_⟩
  exact locked.hasEdge (foldl_formRwEdge_hasEdge (fun u => (top, u)) mem ne hx hw conc)

end Keyed

theorem recordRelationRead_spec (table : TableId) (ok : LocksOk st)
    (hx : st.txns.lookup top = some x) :
    Grows st (recordRelationRead st top table) ∧ LocksOk (recordRelationRead st top table) ∧
      (table, top) ∈ (recordRelationRead st top table).relationReaders ∧
      ∀ w, (table, w) ∈ st.relationWriters → top ≠ w → w ∈ st.txns →
        x.snapshot.concurrent w = true → HasEdge (recordRelationRead st top table) top w := by
  have known : top ∈ st.txns := lookup_isSome.mp (by simp [hx])
  have formed := (foldl_formRwEdge_grows st (fun u => (top, u))
    (membersAt st.relationWriters table)).1
  obtain ⟨locked, locksOk, here⟩ := addRelationLock_spec table
    (ok.foldl_formRwEdge (fun u => (top, u)) (membersAt st.relationWriters table))
    (formed.mem_iff.mpr known)
  simp only [recordRelationRead, if_pos known]
  refine ⟨formed.trans locked, locksOk, here, fun w mem ne hw conc => ?_⟩
  exact locked.hasEdge (foldl_formRwEdge_hasEdge (fun u => (top, u))
    (mem_membersAt.mpr mem) ne hx hw conc)

/-- The state `note_write` and `note_relation_write` leave: edges from `readers`,
then the write recorded in the writer tables. Both return it whatever the
edge-time check answers. -/
theorem recordWrite_spec {formed : SsiState K} (readers : List TxnId)
    {relationWriters wholeRelationWriters : List (TableId × TxnId)}
    {tupleWriters : List ((TableId × K) × TxnId)} (ok : LocksOk st) (known : w ∈ st.txns)
    (fold : formed = readers.foldl (formRwEdge · · w) st)
    (growing : ∀ x : TxnSsi K, x.Grows (f x)) (tuple : ∀ x, (f x).tupleLocks = x.tupleLocks)
    (rel : ∀ x, (f x).relationLocks = x.relationLocks)
    (hrel : formed.relationWriters ⊆ relationWriters)
    (hwhole : formed.wholeRelationWriters ⊆ wholeRelationWriters)
    (htup : formed.tupleWriters ⊆ tupleWriters) :
    let st' := { formed with
      txns := formed.txns.modify w f, relationWriters, wholeRelationWriters, tupleWriters }
    Grows st st' ∧ LocksOk st' ∧ ∀ r x, r ∈ readers → r ≠ w → st.txns.lookup r = some x →
        x.snapshot.concurrent w = true → HasEdge st' r w := by
  intro st'
  subst fold
  have grows := (foldl_formRwEdge_grows st (fun u => (u, w)) readers).1
  have entry := grows_modify (readers.foldl (formRwEdge · · w) st) w growing
  have wrote : Grows (readers.foldl (formRwEdge · · w) st) st' :=
    ⟨entry.txn, hrel, htup, hwhole, fun _ m => m, fun e m => .inl m, rfl⟩
  refine ⟨grows.trans wrote, ?_, ?_⟩
  · exact (ok.foldl_formRwEdge (fun u => (u, w)) readers).modify w tuple rel
  · intro r x mem ne hx conc
    exact wrote.hasEdge (foldl_formRwEdge_hasEdge (fun u => (u, w)) mem ne hx known conc)

/-- A row write is on record at both grains, with an edge from every tracked
reader of the row or of the table that does not see the writer. -/
theorem noteWrite_spec [DecidableEq K] (table : TableId) (key : K) (ok : LocksOk st) (known : w ∈ st.txns) :
    Grows st (noteWrite st w table key).1 ∧ LocksOk (noteWrite st w table key).1 ∧
      (table, w) ∈ (noteWrite st w table key).1.relationWriters ∧
      ((table, key), w) ∈ (noteWrite st w table key).1.tupleWriters ∧
      ∀ r x, (table, r) ∈ st.relationReaders ∨ ((table, key), r) ∈ st.tupleReaders → r ≠ w →
        st.txns.lookup r = some x → x.snapshot.concurrent w = true →
        HasEdge (noteWrite st w table key).1 r w := by
  unfold noteWrite
  rw [if_pos known]
  obtain ⟨grows, locksOk, edges⟩ := recordWrite_spec
    (membersAt st.relationReaders table ++ membersAt st.tupleReaders (table, key))
    (f := fun t => { t with
      relationWrites := t.relationWrites.insert table
      tupleWrites := t.tupleWrites.insert (table, key) }) ok known rfl
    (fun x => ⟨rfl, rfl, rfl, fun _ m => m, fun _ m => m⟩) (fun _ => rfl) (fun _ => rfl)
    (fun _ m => mem_insert_of_mem m) (fun _ m => m)
    (fun _ m => mem_insert_of_mem m)
  refine ⟨grows, locksOk, mem_insert_self, mem_insert_self, ?_⟩
  intro r x read ne hx conc
  exact edges r x (by simpa using read) ne hx conc

theorem noteRelationWrite_spec (table : TableId) (ok : LocksOk st) (known : w ∈ st.txns) :
    Grows st (noteRelationWrite st w table).1 ∧ LocksOk (noteRelationWrite st w table).1 ∧
      (table, w) ∈ (noteRelationWrite st w table).1.relationWriters ∧
      (table, w) ∈ (noteRelationWrite st w table).1.wholeRelationWriters ∧
      ∀ r x, (table, r) ∈ st.relationReaders ∨ (∃ key, ((table, key), r) ∈ st.tupleReaders) →
        r ≠ w → st.txns.lookup r = some x → x.snapshot.concurrent w = true →
        HasEdge (noteRelationWrite st w table).1 r w := by
  unfold noteRelationWrite
  rw [if_pos known]
  obtain ⟨grows, locksOk, edges⟩ := recordWrite_spec (membersAt st.relationReaders table ++
      (st.tupleReaders.filter fun e => e.1.1 = table).map Prod.snd)
    (f := fun t => { t with
      relationWrites := t.relationWrites.insert table
      wholeRelationWrites := t.wholeRelationWrites.insert table }) ok known rfl
    (fun x => ⟨rfl, rfl, rfl, fun _ m => m, fun _ m => m⟩) (fun _ => rfl) (fun _ => rfl)
    (fun _ m => mem_insert_of_mem m)
    (fun _ m => mem_insert_of_mem m) (fun _ m => m)
  refine ⟨grows, locksOk, mem_insert_self, mem_insert_self, ?_⟩
  intro r x read ne hx conc
  refine edges r x (mem_append.mpr ?_) ne hx conc
  rcases read with rel | ⟨k, tuple⟩
  · exact .inl (mem_membersAt.mpr rel)
  · exact .inr (mem_map.mpr ⟨_, mem_filter.mpr ⟨tuple, by simp⟩, rfl⟩)

theorem promoteReader_spec [DecidableEq K] (table : TableId) (writers : List TxnId) (r : TxnId)
    (ok : LocksOk st) :
    Grows st (promoteReader table writers st r) ∧ LocksOk (promoteReader table writers st r) := by
  unfold promoteReader
  cases hx : st.txns.lookup r with
  | none => exact ⟨.refl st, ok⟩
  | some x =>
    obtain ⟨grows, locksOk, -⟩ := exchangeTupleLocks_spec
      (x.tupleLocks.filter fun e => e.1 = table) writers ok hx
      (fun e m => of_decide_eq_true (mem_filter.mp m).2)
    exact ⟨grows, locksOk⟩

theorem promote_spec [DecidableEq K] (table : TableId) (ok : LocksOk st) :
    Grows st (promoteTableIdentityLocksToRelation st table) ∧
      LocksOk (promoteTableIdentityLocksToRelation st table) := by
  have fold : ∀ (readers writers : List TxnId) (st : SsiState K), LocksOk st →
      Grows st (readers.foldl (promoteReader table writers) st) ∧
        LocksOk (readers.foldl (promoteReader table writers) st) := by
    intro readers writers
    induction readers with
    | nil => exact fun st ok => ⟨.refl st, ok⟩
    | cons reader readers ih =>
      intro st ok
      obtain ⟨grows, locksOk⟩ := promoteReader_spec table writers reader ok
      obtain ⟨grows', locksOk'⟩ := ih _ locksOk
      exact ⟨grows.trans grows', locksOk'⟩
  obtain ⟨grows, locksOk⟩ := fold (st.txns.keys.filter fun t =>
      match st.txns.lookup t with
      | none => false
      | some txn => txn.tupleLocks.any fun e => e.1 = table)
    (membersAt st.relationWriters table)
    { st with promotedTupleWriters := st.promotedTupleWriters ++
        (membersAt st.relationWriters table).map fun w => (table, w) } ok
  exact ⟨⟨grows.txn, grows.relationWriters, grows.tupleWriters, grows.wholeRelationWriters,
    grows.relationReaders, grows.tupleReaders, grows.nextCommitSeq⟩, locksOk⟩

/-! ### Removal -/

/-- One entry after the removal of another transaction: at most its edges to
`top` are gone. -/
structure TxnSsi.Sheds (top : TxnId) (x x' : TxnSsi K) : Prop where
  snapshot : x'.snapshot = x.snapshot
  commitSeq : x'.commitSeq = x.commitSeq
  finished : x'.finished = x.finished
  tupleLocks : x'.tupleLocks = x.tupleLocks
  relationLocks : x'.relationLocks = x.relationLocks
  outEdges : ∀ u ∈ x.outEdges, u ≠ top → u ∈ x'.outEdges
  inEdges : ∀ u ∈ x.inEdges, u ≠ top → u ∈ x'.inEdges

theorem TxnSsi.Sheds.refl (x : TxnSsi K) : x.Sheds top x :=
  ⟨rfl, rfl, rfl, rfl, rfl, fun _ m _ => m, fun _ m _ => m⟩

theorem dropInEdge_sheds (x : TxnSsi K) : x.Sheds top (dropInEdge top x) where
  __ := TxnSsi.Sheds.refl x
  inEdges u m hu := by simp [dropInEdge, m, hu]

theorem TxnSsi.Sheds.dropOutEdge {x y : TxnSsi K} (h : x.Sheds top y) :
    x.Sheds top (dropOutEdge top y) where
  __ := h
  outEdges u m hu := by simp [Ssi.dropOutEdge, h.outEdges u m hu, hu]

/-- What the removal of `top` leaves of the rest. -/
structure Drops (top : TxnId) (st st' : SsiState K) : Prop where
  gone : st'.txns.lookup top = none
  txn : ∀ t, t ≠ top → match st.txns.lookup t with
    | none => st'.txns.lookup t = none
    | some x => ∃ x', st'.txns.lookup t = some x' ∧ x.Sheds top x'
  relationReaders : ∀ e : TableId × TxnId, e.2 ≠ top →
    e ∈ st.relationReaders → e ∈ st'.relationReaders
  tupleReaders : ∀ e : (TableId × K) × TxnId, e.2 ≠ top → e ∈ st.tupleReaders → e ∈ st'.tupleReaders
  relationWriters : ∀ e : TableId × TxnId, e.2 ≠ top →
    e ∈ st.relationWriters → e ∈ st'.relationWriters
  wholeRelationWriters : ∀ e : TableId × TxnId, e.2 ≠ top →
    e ∈ st.wholeRelationWriters → e ∈ st'.wholeRelationWriters
  tupleWriters : ∀ e : (TableId × K) × TxnId, e.2 ≠ top → e ∈ st.tupleWriters → e ∈ st'.tupleWriters
  nextCommitSeq : st'.nextCommitSeq = st.nextCommitSeq

namespace Drops

variable {st' : SsiState K}

section

variable (h : Drops top st st')

include h

theorem some (ne : t ≠ top) {x : TxnSsi K}
    (hx : st.txns.lookup t = some x) : ∃ x', st'.txns.lookup t = .some x' ∧ x.Sheds top x' := by
  have := h.txn t ne
  rwa [hx] at this

theorem none (hx : st.txns.lookup t = .none) : st'.txns.lookup t = .none := by
  by_cases same : t = top
  · rw [same, h.gone]
  · have := h.txn t same
    rwa [hx] at this

theorem back (hx : st'.txns.lookup t = .some x') :
    t ≠ top ∧ ∃ x, st.txns.lookup t = .some x ∧ x.Sheds top x' := by
  have ne : t ≠ top := by
    rintro rfl
    rw [h.gone] at hx
    cases hx
  refine ⟨ne, ?_⟩
  cases prior : st.txns.lookup t with
  | none => rw [h.none prior] at hx; cases hx
  | some x =>
    obtain ⟨y, hy, sheds⟩ := h.some ne prior
    rw [hy] at hx
    cases hx
    exact ⟨x, rfl, sheds⟩

theorem mem_iff : t ∈ st'.txns ↔ t ≠ top ∧ t ∈ st.txns := by
  rw [← lookup_isSome, ← lookup_isSome]
  constructor
  · intro after
    obtain ⟨x', hx'⟩ := isSome_iff_exists.mp after
    obtain ⟨ne, x, hx, -⟩ := h.back hx'
    exact ⟨ne, by simp [hx]⟩
  rintro ⟨ne, prior⟩
  obtain ⟨x, hx⟩ := isSome_iff_exists.mp prior
  obtain ⟨x', hx', -⟩ := h.some ne hx
  simp [hx']

theorem hasEdge (hr : r ≠ top) (hw : w ≠ top) (edge : HasEdge st r w) : HasEdge st' r w := by
  obtain ⟨x, y, hx, hy, out, inn⟩ := edge
  obtain ⟨x', hx', sx⟩ := h.some hr hx
  obtain ⟨y', hy', sy⟩ := h.some hw hy
  exact ⟨x', y', hx', hy', sx.outEdges w out hw, sy.inEdges r inn hr⟩

theorem locksOk (ok : LocksOk st) : LocksOk st' := by
  intro t x' hx'
  obtain ⟨ne, x, hx, sheds⟩ := h.back hx'
  rw [sheds.tupleLocks, sheds.relationLocks]
  exact ⟨fun e m => h.tupleReaders _ ne ((ok t x hx).1 e m),
    fun tb m => h.relationReaders _ ne ((ok t x hx).2 tb m)⟩

end

end Drops

private theorem removed_other {κ : Type} [DecidableEq κ] {m : List (κ × TxnId)} {keys : List κ}
    {e : κ × TxnId} (ne : e.2 ≠ top) (mem : e ∈ m) : e ∈ removeReaderAll m keys top :=
  mem_removeReaderAll.mpr ⟨mem, fun eq => absurd eq ne⟩

/-- An untracked transaction is dropped by doing nothing. -/
theorem Drops.refl (hx : st.txns.lookup top = .none) : Drops top st st := by
  refine ⟨hx, fun t _ => ?_, fun _ _ m => m, fun _ _ m => m, fun _ _ m => m, fun _ _ m => m,
    fun _ _ m => m, rfl⟩
  cases st.txns.lookup t with
  | none => rfl
  | some x => exact ⟨x, rfl, .refl x⟩

/-- Removing a tracked transaction is a drop. -/
theorem aborted_drops_tracked [DecidableEq K] (hx : st.txns.lookup top = some x) :
    Drops top st (aborted st top) := by
  have dropIn : ∀ x : TxnSsi K, dropInEdge top (dropInEdge top x) = dropInEdge top x := by
    intro x
    simp [dropInEdge, List.filter_filter]
  have dropOut : ∀ x : TxnSsi K, dropOutEdge top (dropOutEdge top x) = dropOutEdge top x := by
    intro x
    simp [dropOutEdge, List.filter_filter]
  have unfolded : aborted st top = purge { st with txns := st.txns.erase top } top x := by
    simp [aborted, hx]
  rw [unfolded]
  refine ⟨?_, fun t ne => ?_, fun e ne m => removed_other ne m, fun e ne m => removed_other ne m,
    fun e ne m => removed_other ne m, fun e ne m => removed_other ne m,
    fun e ne m => removed_other ne m, rfl⟩
  · simp [purge, lookup_modifyAll dropIn, lookup_modifyAll dropOut]
  simp only [purge, lookup_modifyAll dropIn, lookup_modifyAll dropOut, lookup_erase_ne ne]
  cases st.txns.lookup t with
  | none => simp
  | some y =>
    by_cases hin : t ∈ x.inEdges <;> by_cases hout : t ∈ x.outEdges <;>
      refine ⟨_, by simp [hin, hout]; rfl, ?_⟩
    · exact (dropInEdge_sheds y).dropOutEdge
    · exact (TxnSsi.Sheds.refl y).dropOutEdge
    · exact dropInEdge_sheds y
    · exact .refl y

theorem aborted_drops [DecidableEq K] : Drops top st (aborted st top) := by
  cases hx : st.txns.lookup top with
  | none =>
    have idle : aborted st top = st := by simp [aborted, hx]
    rw [idle]
    exact .refl hx
  | some x => exact aborted_drops_tracked hx

/-- **The release rule**: what the removal of every finished transaction below
the horizon keeps, `release_up_to` keeps. -/
theorem releaseUpTo_keeps [DecidableEq K] {P : SsiState K → Prop} {gcHorizon : TxnId}
    (keeps : ∀ st top x, P st → st.txns.lookup top = some x → x.finished = true →
      x.snapshot.xmax ≤ gcHorizon → P (aborted st top)) (start : P st) :
    P (releaseUpTo st gcHorizon) := by
  have fold : ∀ (tops : List TxnId) (st : SsiState K), P st →
      (∀ top ∈ tops, ∀ x, st.txns.lookup top = some x →
        x.finished = true ∧ x.snapshot.xmax ≤ gcHorizon) → P (tops.foldl aborted st) := by
    intro tops
    induction tops with
    | nil => exact fun st start _ => start
    | cons top tops ih =>
      intro st start due
      cases hx : st.txns.lookup top with
      | none =>
        have idle : aborted st top = st := by simp [aborted, hx]
        rw [foldl_cons, idle]
        exact ih st start fun u m => due u (.tail _ m)
      | some x =>
        obtain ⟨fin, below⟩ := due top (.head _) x hx
        refine ih _ (keeps st top x start hx fin below) fun u m y' hy' => ?_
        obtain ⟨-, y, hy, sheds⟩ := aborted_drops.back hy'
        rw [sheds.finished, sheds.snapshot]
        exact due u (.tail _ m) y hy
  refine fold _ st start fun top m x hx => ?_
  have released := (mem_filter.mp m).2
  simp only [releasable, hx, Bool.and_eq_true, decide_eq_true_eq] at released
  exact released

end Saguaro.Ssi
