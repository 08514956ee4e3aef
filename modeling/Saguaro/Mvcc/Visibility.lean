/-
Which versions a snapshot sees, and which ones nobody needs any more
(`crates/common/src/mvcc/visibility.rs`, `reclaim.rs`).

The status of a transaction comes from a view, `TxnStatusView` in the source, which is
a function here. A tuple header may cache a settled status in its hint bits; `HintsOk`
says that the bits that are set tell the truth, and then the two predicates can be read
without them (`isVisible_iff`, `isDeadToAll_iff`).
-/

import Saguaro.Wal.Clog

namespace Saguaro

def INVALID_XID : TxnId := 0

def XMIN_COMMITTED : UInt16 := 1
def XMIN_ABORTED : UInt16 := 2
def XMAX_COMMITTED : UInt16 := 4
def XMAX_ABORTED : UInt16 := 8

/-- `infomask & bit != 0`. -/
def hasHint (infomask bit : UInt16) : Bool := infomask &&& bit != 0

/-- `txn_effect_visible`. -/
def txnEffectVisible (xid : TxnId) (snapshot : Snapshot) (currentTxns : List TxnId)
    (status : TxnId → TxnStatus) (committedHint abortedHint : Bool) : Bool :=
  if currentTxns.contains xid then true
  else if xid ≥ snapshot.xmax then false
  else if snapshot.xip.contains xid then false
  else if committedHint then true
  else if abortedHint then false
  else status xid = .committed

/-- `is_visible`. -/
def isVisible (xmin xmax : TxnId) (infomask : UInt16) (snapshot : Snapshot)
    (currentTxns : List TxnId) (status : TxnId → TxnStatus) : Bool :=
  let creatorVisible := txnEffectVisible xmin snapshot currentTxns status
    (hasHint infomask XMIN_COMMITTED) (hasHint infomask XMIN_ABORTED)
  if !creatorVisible then false
  else if xmax = INVALID_XID then true
  else !txnEffectVisible xmax snapshot currentTxns status
    (hasHint infomask XMAX_COMMITTED) (hasHint infomask XMAX_ABORTED)

/-- `is_dead_to_all`. -/
def isDeadToAll (xmin xmax : TxnId) (infomask : UInt16) (horizon : TxnId)
    (status : TxnId → TxnStatus) : Bool :=
  if hasHint infomask XMIN_ABORTED then true
  else if xmax != INVALID_XID && decide (xmax < horizon) &&
      (hasHint infomask XMAX_COMMITTED || decide (status xmax = .committed)) then true
  else status xmin = .aborted

variable {snapshot : Snapshot} {own : List TxnId} {status status' : TxnId → TxnStatus}
  {xid xmin xmax horizon : TxnId} {infomask : UInt16}

/-- The two hints for one transaction agree with its status. -/
def HintOk (status : TxnId → TxnStatus) (xid : TxnId) (committedHint abortedHint : Bool) : Prop :=
  (committedHint = true → status xid = .committed) ∧ (abortedHint = true → status xid = .aborted)

/-- The hint bits of a version agree with the statuses. -/
structure HintsOk (status : TxnId → TxnStatus) (xmin xmax : TxnId) (infomask : UInt16) : Prop where
  creator : HintOk status xmin (hasHint infomask XMIN_COMMITTED) (hasHint infomask XMIN_ABORTED)
  deleter : HintOk status xmax (hasHint infomask XMAX_COMMITTED) (hasHint infomask XMAX_ABORTED)

/-- **What a snapshot sees of a writer**: its own writes, and the writers that it does not
count as concurrent and that are committed. -/
theorem txnEffectVisible_iff {committedHint abortedHint : Bool}
    (hints : HintOk status xid committedHint abortedHint) :
    txnEffectVisible xid snapshot own status committedHint abortedHint = true ↔
      xid ∈ own ∨ snapshot.concurrent xid = false ∧ status xid = .committed := by
  obtain ⟨comm, abort⟩ := hints
  unfold txnEffectVisible
  by_cases mine : xid ∈ own
  · simp [mine]
  · cases committedHint <;> cases abortedHint <;> simp_all [Snapshot.concurrent, and_assoc]

theorem isVisible_iff (hints : HintsOk status xmin xmax infomask) :
    isVisible xmin xmax infomask snapshot own status = true ↔
      (xmin ∈ own ∨ snapshot.concurrent xmin = false ∧ status xmin = .committed) ∧
      (xmax = INVALID_XID ∨
        ¬(xmax ∈ own ∨ snapshot.concurrent xmax = false ∧ status xmax = .committed)) := by
  rw [← txnEffectVisible_iff hints.creator, ← txnEffectVisible_iff hints.deleter]
  unfold isVisible
  split_ifs <;> simp_all

theorem isDeadToAll_iff (hints : HintsOk status xmin xmax infomask) :
    isDeadToAll xmin xmax infomask horizon status = true ↔ status xmin = .aborted ∨
        xmax ≠ INVALID_XID ∧ xmax < horizon ∧ status xmax = .committed := by
  have abort := hints.creator.2
  have comm := hints.deleter.1
  unfold isDeadToAll
  split_ifs with hint deleted
  · simp [abort hint]
  · simp only [Bool.and_eq_true, bne_iff_ne, ne_eq, decide_eq_true_eq, Bool.or_eq_true] at deleted
    simp only [true_iff]
    exact .inr ⟨deleted.1.1, deleted.1.2, deleted.2.elim comm id⟩
  simp only [Bool.and_eq_true, bne_iff_ne, ne_eq, decide_eq_true_eq, Bool.or_eq_true, not_and,
    not_or] at deleted
  simp only [decide_eq_true_eq]
  refine ⟨.inl, fun dead => dead.elim id fun ⟨ne, lt, fixed⟩ => ?_⟩
  exact absurd fixed (deleted ⟨ne, lt⟩).2

end Saguaro
