/-
The active-transaction registry (`crates/server/src/registry.rs`).

One latched record holds the in-progress ids, the multiset of `xmin`s that live
snapshots advertise, and the parent of every active savepoint id. Every public
operation of the source is one critical section, so each is one function on the
record. The id allocator (`ServerComponents::next_txn_id`) is only read or
advanced inside those sections and is a field here.

The advertised `xmin`s are the bag the reference counts stand for: advertising
adds one occurrence and dropping a guard removes one. The schema-rewrite fence
(`snapshot_exclusion`), set by tests only, is left out.
-/

import Saguaro.Mvcc.Snapshot
import Mathlib.Data.List.AList
import Mathlib.Data.List.MinMax

namespace Saguaro

structure Registry where
  nextTxnId : TxnId
  active : List TxnId
  xmins : List TxnId
  subtrans : AList fun _ : TxnId => TxnId

namespace Registry

/-- The registry of a freshly opened server; ids start at `first`. -/
def new (first : TxnId) : Registry := ⟨first, [], [], ∅⟩

/-- `register_allocated`: take the next id and mark it in progress, under one latch. -/
def registerAllocated (r : Registry) : TxnId × Registry :=
  (r.nextTxnId, { r with nextTxnId := r.nextTxnId + 1, active := r.nextTxnId :: r.active })

/-- `register_subxid_allocated`: the same for a savepoint id owned by `top`. -/
def registerSubxidAllocated (r : Registry) (top : TxnId) : TxnId × Registry :=
  (r.nextTxnId, { r with
    nextTxnId := r.nextTxnId + 1
    active := r.nextTxnId :: r.active
    subtrans := r.subtrans.insert r.nextTxnId top })

/-- `deregister_all`: settle a whole family in one critical section. -/
def deregisterAll (r : Registry) (ids : List TxnId) : Registry := { r with
    active := r.active.filter fun id => !ids.contains id
    subtrans := ids.foldl (fun m id => m.erase id) r.subtrans }

def isActive (r : Registry) (xid : TxnId) : Bool := r.active.contains xid

/-- `top_of`: the owner of an active savepoint id, or the id itself. -/
def topOf (r : Registry) (xid : TxnId) : TxnId := (r.subtrans.lookup xid).getD xid

/-- `oldest_xmin`: the least advertised `xmin`. -/
def oldestXmin (r : Registry) : Option TxnId := r.xmins.min?

/-- `ServerComponents::gc_horizon`. -/
def gcHorizon (r : Registry) : TxnId := r.oldestXmin.getD r.nextTxnId

/-- `try_capture_snapshot_for_transaction`: read the active set and the
allocation boundary and advertise the `xmin`, under one latch. A transaction's
own id is not in its `xip`. -/
def capture (r : Registry) (own : TxnId) : Snapshot × Registry :=
  let xmin := r.active.min?.getD r.nextTxnId
  (⟨xmin, r.nextTxnId, r.active.filter fun id => id != own⟩, { r with xmins := xmin :: r.xmins })

/-- `advertise_xmin`: advertise a captured snapshot's `xmin` once more. -/
def advertiseXmin (r : Registry) (xmin : TxnId) : Registry := { r with xmins := xmin :: r.xmins }

/-- `release_advertised`: drop one advertisement of `xmin`. -/
def releaseAdvertised (r : Registry) (xmin : TxnId) : Registry :=
  { r with xmins := r.xmins.erase xmin }

end Registry

end Saguaro
