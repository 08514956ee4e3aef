/-
Transaction ids and visibility snapshots (`crates/common/src/mvcc/mod.rs`).
-/

import Mathlib.Data.List.Basic

namespace Saguaro

/-- A transaction id (`u64` in the source; ids are only ever handed out by the
allocator, which counts up and never wraps). -/
abbrev TxnId := Nat

abbrev TableId := Nat

/-- A visibility snapshot: ids below `xmin` are settled, ids at or above `xmax`
lie in the future, and `xip` lists the ids between the two that were in progress
at capture. -/
structure Snapshot where
  xmin : TxnId
  xmax : TxnId
  xip : List TxnId
  deriving DecidableEq, Repr

/-- Whether `writer` is concurrent with the reader snapshot: in its future, or in
progress at its capture (`ssi_manager.rs`, `concurrent`). -/
def Snapshot.concurrent (s : Snapshot) (writer : TxnId) : Bool :=
  decide (s.xmax ≤ writer) || s.xip.contains writer

theorem Snapshot.concurrent_iff {s : Snapshot} {writer : TxnId} :
    s.concurrent writer = true ↔ s.xmax ≤ writer ∨ writer ∈ s.xip := by
  simp [Snapshot.concurrent]

end Saguaro
