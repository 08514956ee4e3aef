/-
The lock manager (`crates/server/src/lock_manager.rs`).

Row locks, catalog-object locks and transaction waits share one mutexed state.
Every stretch of code between taking the mutex (or waking up with it) and giving
it back is one function here: `acquireOne` runs from the call to its first wait
or its return, `resumeAcquire` from a wakeup to the next. What a call keeps in
its local variables across a wait is a `Call`.

The maps of the source are finite maps; the nested grant table is keyed by
resource and owner together. Sets of owners are lists, of which only membership
and emptiness are read. The clock is an argument: `elapsed` says whether the
deadlock timeout has passed since the last detection.
-/

import Saguaro.Locks.Modes
import Saguaro.Lib.AssocMap
import Saguaro.Server.Registry

namespace Saguaro.Locks

structure QueuedRequest where
  id : Nat
  owner : LockOwner
  mode : ObjectLockMode
  deriving DecidableEq, Repr

structure OwnerGrantSnapshot (K : Type) where
  managerId : Nat
  guardId : Nat
  owner : LockOwner
  grants : List (LockResource K × ObjectLockMode)
  deriving DecidableEq, Repr

inductive AcquireOne where
  | acquired (previous : Option ObjectLockMode) (previousGeneration : Option Nat)
      (granted : ObjectLockMode) (grantedGeneration : Option Nat)
  | skipped
  deriving DecidableEq, Repr

structure TupleLockTag (K : Type) where
  table : TableId
  key : K
  deriving DecidableEq, Repr

structure TupleGrantReceipt (K : Type) where
  managerId : Nat
  owner : TxnId
  tag : TupleLockTag K
  previous : Option TupleLockMode
  previousGeneration : Option Nat
  granted : TupleLockMode
  grantedGeneration : Nat
  deriving DecidableEq, Repr

inductive TupleLockWaitPolicy where
  | block
  | noWait
  | skipLocked
  deriving DecidableEq, Repr

/-- `LockState` together with the id and the counters of its `LockManager`. -/
structure LockState (K : Type) where
  id : Nat
  activeOwners : List LockOwner := []
  waitsFor : AList (fun _ : LockOwner => List LockOwner) := ∅
  grants : AList (fun _ : LockResource K × LockOwner => ObjectLockMode) := ∅
  queues : AList (fun _ : LockResource K => List QueuedRequest) := ∅
  tupleGrantGenerations : AList (fun _ : LockResource K × LockOwner => Nat) := ∅
  nextTupleGrantGeneration : Nat := 0
  nextGuardId : Nat := 1
  nextStatementOwner : Nat := 1
  nextRequestId : Nat := 1

/-- The `Debug` text of an owner. -/
def LockOwner.debug : LockOwner → String
  | .transaction xid => "Transaction(" ++ toString xid ++ ")"
  | .statement id => "Statement(" ++ toString id ++ ")"

/-- `u64::checked_add(1)`. -/
def checkedSucc (n : Nat) : Option Nat := if n + 1 < 2 ^ 64 then some (n + 1) else none

/-- `next_id`: the counter's value and the counter after it. -/
def nextId (counter : Nat) (kind : String) : Result (Nat × Nat) :=
  match checkedSucc counter with
  | some next => .ok (counter, next)
  | none => .error (.internal (kind ++ " id space exhausted"))

variable {K : Type} [DecidableEq K]

namespace LockState

def queueOf (st : LockState K) (resource : LockResource K) : List QueuedRequest :=
  (st.queues.lookup resource).getD []

def grantOf (st : LockState K) (resource : LockResource K) (owner : LockOwner) :
    Option ObjectLockMode := st.grants.lookup (resource, owner)

def generationOf (st : LockState K) (resource : LockResource K) (owner : LockOwner) : Option Nat :=
  st.tupleGrantGenerations.lookup (resource, owner)

end LockState

/-! ### Owners -/

/-- `create_guard`: the guard id is burned even when the owner has a guard already. -/
def createGuard (st : LockState K) (owner : LockOwner) : LockState K × Result Nat :=
  match nextId st.nextGuardId "object lock guard" with
  | .error e => (st, .error e)
  | .ok (guardId, next) =>
    if owner ∈ st.activeOwners then
      ({ st with nextGuardId := next },
        .error (.internal ("lock owner " ++ owner.debug ++ " already has a lifetime guard")))
    else ({ st with nextGuardId := next, activeOwners := owner :: st.activeOwners }, .ok guardId)

/-- `statement_owner`. -/
def statementOwner (st : LockState K) : LockState K × Result (LockOwner × Nat) :=
  match nextId st.nextStatementOwner "statement lock owner" with
  | .error e => (st, .error e)
  | .ok (id, next) =>
    let (st, guardId) := createGuard { st with nextStatementOwner := next } (.statement id)
    (st, guardId.map fun guardId => (.statement id, guardId))

/-- `transaction_owner`. -/
def transactionOwner (st : LockState K) (registry : Registry) (xid : TxnId) :
    LockState K × Result (LockOwner × Nat) :=
  let owner := LockOwner.transaction (registry.topOf xid)
  let (st, guardId) := createGuard st owner
  (st, guardId.map fun guardId => (owner, guardId))

/-! ### Acquisition -/

/-- Take a place at the end of a queue. -/
def enqueue (st : LockState K) (resource : LockResource K) (queued : QueuedRequest) : LockState K :=
  { st with queues := st.queues.insert resource (st.queueOf resource ++ [queued]) }

/-- `remove_request`. -/
def removeRequest (st : LockState K) (resource : LockResource K) (requestId : Nat) : LockState K :=
  match st.queues.lookup resource with
  | none => st
  | some queue =>
    let queue := queue.filter fun request => request.id ≠ requestId
    { st with queues := if queue.isEmpty then st.queues.erase resource
        else st.queues.insert resource queue }

/-- `request_blockers`: the holders and the earlier requests of other owners that
conflict with `mode`. -/
def requestBlockers (st : LockState K) (resource : LockResource K) (requestId : Nat)
    (owner : LockOwner) (mode : ObjectLockMode) : List LockOwner :=
  let holders := st.grants.entries.filter fun e =>
    e.1.1 = resource && e.1.2 ≠ owner && !mode.compatible e.2
  let ahead := (st.queueOf resource).takeWhile fun request => request.id ≠ requestId
  let waiting := ahead.filter fun earlier =>
    earlier.owner ≠ owner && !mode.compatible earlier.mode
  holders.map (fun e => e.1.2) ++ waiting.map QueuedRequest.owner

/-- `on_cycle::visit`. The fuel bounds the depth of the recursion. -/
def visit (graph : AList fun _ : LockOwner => List LockOwner) (start : LockOwner) :
    Nat → LockOwner → List LockOwner → Bool × List LockOwner
  | 0, _, visited => (false, visited)
  | fuel + 1, current, visited =>
    match graph.lookup current with
    | none => (false, visited)
    | some next => next.foldl (fun acc owner =>
      if acc.1 then acc
      else if owner = start then (true, acc.2)
      else if owner ∈ acc.2 then acc
      else visit graph start fuel owner (owner :: acc.2)) (false, visited)

/-- `on_cycle`. Each nested visit marks a new owner, so the number of edges bounds
their depth. -/
def onCycle (graph : AList fun _ : LockOwner => List LockOwner) (start : LockOwner) : Bool :=
  (visit graph start ((graph.entries.map fun e => e.2.length).sum + 1) start [start]).1

/-- The local variables of an `acquire_one` call that waits. -/
structure Call (K : Type) where
  owner : LockOwner
  request : ObjectLockRequest K
  policy : TupleLockWaitPolicy
  requestId : Nat
  previous : Option ObjectLockMode
  previousGeneration : Option Nat

/-- Where a call stands when it gives the mutex back. -/
inductive Progress (K : Type) where
  | done (result : Result AcquireOne)
  | waiting (call : Call K)

/-- The clean-up on every way out of the wait loop. -/
def withdraw (st : LockState K) (call : Call K) : LockState K :=
  let st := removeRequest st call.request.resource call.requestId
  { st with waitsFor := st.waitsFor.erase call.owner }

/-- The mode a call ends up with: an upgrade keeps the stronger of the two. -/
def Call.strongest (call : Call K) : Result ObjectLockMode :=
  match call.previous with
  | some held => held.strongest call.request.mode
  | none => .ok call.request.mode

/-- The unblocked branch of `acquire_one`, after the clean-up. -/
def grant (st : LockState K) (call : Call K) : LockState K × Result AcquireOne :=
  match call.strongest with
  | .error e => (st, .error e)
  | .ok granted =>
    let holder := (call.request.resource, call.owner)
    match call.request.mode with
    | .tuple _ =>
      match checkedSucc st.nextTupleGrantGeneration with
      | none => (st, .error (.internal "tuple grant generation exhausted"))
      | some generation => ({ st with
          nextTupleGrantGeneration := generation
          tupleGrantGenerations := st.tupleGrantGenerations.insert holder generation
          grants := st.grants.insert holder granted },
          .ok (.acquired call.previous call.previousGeneration granted (some generation)))
    | _ => ({ st with grants := st.grants.insert holder granted },
        .ok (.acquired call.previous call.previousGeneration granted none))

/-- One iteration of the wait loop of `acquire_one`. -/
def attempt (st : LockState K) (call : Call K) (cancel : Option CancelReason) :
    LockState K × Progress K :=
  match QueryCancel.check cancel with
  | .error e => (withdraw st call, .done (.error e))
  | .ok () =>
    let blockers := requestBlockers st call.request.resource call.requestId call.owner
      call.request.mode
    if blockers.isEmpty then
      let (st, result) := grant (withdraw st call) call
      (st, .done result)
    else match call.policy with
      | .noWait => (withdraw st call, .done (.error
          (.execute .lockNotAvailable "could not obtain tuple lock on row")))
      | .skipLocked => (withdraw st call, .done (.ok .skipped))
      | .block => ({ st with waitsFor := st.waitsFor.insert call.owner blockers }, .waiting call)

def noGuard (owner : LockOwner) : DbError :=
  .internal ("lock owner " ++ owner.debug ++ " has no lifetime guard")

/-- `acquire_one`, up to its first wait or its return. -/
def acquireOne (st : LockState K) (owner : LockOwner) (request : ObjectLockRequest K)
    (policy : TupleLockWaitPolicy) (cancel : Option CancelReason) : LockState K × Progress K :=
  match validateRequest request with
  | .error e => (st, .done (.error e))
  | .ok () =>
    if owner ∉ st.activeOwners then (st, .done (.error (noGuard owner)))
    else
      let previous := st.grantOf request.resource owner
      let previousGeneration := st.generationOf request.resource owner
      match previous.filter fun held => held.covers request.mode with
      | some held => (st, .done (.ok
          (.acquired (some held) previousGeneration held previousGeneration)))
      | none =>
        match nextId st.nextRequestId "object lock request" with
        | .error e => (st, .done (.error e))
        | .ok (requestId, next) =>
          attempt (enqueue { st with nextRequestId := next } request.resource
              ⟨requestId, owner, request.mode⟩)
            ⟨owner, request, policy, requestId, previous, previousGeneration⟩ cancel

/-- A waiting `acquire_one` call, from a wakeup to its next wait or its return. -/
def resumeAcquire (st : LockState K) (call : Call K) (cancel : Option CancelReason)
    (elapsed : Bool) : LockState K × Progress K :=
  if elapsed && onCycle st.waitsFor call.owner then
    (withdraw st call, .done (.error (.execute .deadlockDetected "deadlock detected")))
  else attempt st call cancel

/-- The tail of `acquire_tuple`: the receipt for a result of `acquire_one`. `none`
stands for `Skipped`. -/
def tupleReceipt (st : LockState K) (owner : TxnId) (tag : TupleLockTag K) :
    AcquireOne → Result (Option (TupleGrantReceipt K))
  | .skipped => .ok none
  | .acquired previous previousGeneration granted grantedGeneration =>
    match previous, granted, grantedGeneration with
    | none, .tuple granted, some generation =>
      .ok (some ⟨st.id, owner, tag, none, previousGeneration, granted, generation⟩)
    | some (.tuple previous), .tuple granted, some generation =>
      .ok (some ⟨st.id, owner, tag, some previous, previousGeneration, granted, generation⟩)
    | some (.tuple _), .tuple _, none | none, .tuple _, none =>
      .error (.internal "tuple grant has no generation")
    | some (.tuple _), _, _ | none, _, _ =>
      .error (.internal "tuple resource carried a non-tuple granted mode")
    | some _, _, _ => .error (.internal "tuple resource carried a non-tuple previous mode")

/-! ### Giving grants back -/

/-- What a rollback holds for a resource while it is replayed. -/
abbrev Simulated (K : Type) := AList fun _ : LockResource K => Option ObjectLockMode × Option Nat

/-- One receipt of `restore_tuple_changes` against the simulated grants. -/
def simulateReceipt (st : LockState K) (owner : LockOwner) (ownerXid : TxnId)
    (simulated : Simulated K) (receipt : TupleGrantReceipt K) : Result (Simulated K) :=
  if receipt.managerId ≠ st.id ∨ receipt.owner ≠ ownerXid then
    .error (.internal "tuple lock receipt belongs to a different manager or owner")
  else
    let resource := LockResource.tuple receipt.tag.table receipt.tag.key
    let current := (simulated.lookup resource).getD
      (st.grantOf resource owner, st.generationOf resource owner)
    if current ≠ (some (.tuple receipt.granted), some receipt.grantedGeneration) then
      .error (.internal "tuple lock grant changed before acquisition rollback")
    else .ok (simulated.insert resource
      (receipt.previous.map .tuple, receipt.previousGeneration))

/-- Write the replayed grants of `owner` back. -/
def writeRestored (owner : LockOwner) : LockState K →
    List (LockResource K × Option ObjectLockMode × Option Nat) → LockState K × Result Unit
  | st, [] => (st, .ok ())
  | st, (resource, some mode, some generation) :: rest =>
    writeRestored owner { st with
      grants := st.grants.insert (resource, owner) mode
      tupleGrantGenerations := st.tupleGrantGenerations.insert (resource, owner) generation } rest
  | st, (resource, some mode, none) :: _ =>
    ({ st with grants := st.grants.insert (resource, owner) mode },
      .error (.internal "restored tuple grant has no generation"))
  | st, (resource, none, _) :: rest =>
    writeRestored owner { st with
      grants := st.grants.erase (resource, owner)
      tupleGrantGenerations := st.tupleGrantGenerations.erase (resource, owner) } rest

/-- `restore_tuple_changes`: replay the receipts backwards on a copy, and write
only when all of them apply. -/
def restoreTupleChanges (st : LockState K) (owner : LockOwner)
    (changes : List (TupleGrantReceipt K)) : LockState K × Result Unit :=
  if owner ∉ st.activeOwners then (st, .error (noGuard owner))
  else match owner with
    | .statement _ =>
      (st, .error (.internal "statement owners cannot restore tuple lock grants"))
    | .transaction xid =>
      match changes.reverse.foldlM (simulateReceipt st owner xid) ∅ with
      | .error e => (st, .error e)
      | .ok simulated =>
        match writeRestored owner st (simulated.entries.map fun e => (e.1, e.2)) with
        | (st, .error e) => (st, .error e)
        | (st, .ok ()) => ({ st with waitsFor := st.waitsFor.erase owner }, .ok ())

/-- `owner_snapshot`. -/
def ownerSnapshot (st : LockState K) (owner : LockOwner) (guardId : Nat) : OwnerGrantSnapshot K :=
  ⟨st.id, guardId, owner, (st.grants.entries.filter fun e => e.1.2 = owner).map
    fun e => (e.1.1, e.2)⟩

/-- The modes of a snapshot with their fresh generations. -/
def assignGenerations : Nat → List (LockResource K × ObjectLockMode) →
    Result (Nat × List (LockResource K × ObjectLockMode × Option Nat))
  | next, [] => .ok (next, [])
  | next, (resource, .tuple mode) :: rest =>
    match checkedSucc next with
    | none => .error (.internal "tuple grant generation exhausted")
    | some generation =>
      (assignGenerations generation rest).map fun (next, restored) =>
        (next, (resource, .tuple mode, some generation) :: restored)
  | next, (resource, mode) :: rest =>
    (assignGenerations next rest).map fun (next, restored) =>
      (next, (resource, mode, none) :: restored)

/-- Drop every grant of `owner`, with its generation. -/
def dropGrants (st : LockState K) (owner : LockOwner) : LockState K := { st with
    grants := st.grants.retain fun holder => holder.2 ≠ owner
    tupleGrantGenerations := st.tupleGrantGenerations.retain fun holder => holder.2 ≠ owner }

/-- Put one restored grant back. -/
def putGrant (owner : LockOwner) (st : LockState K)
    (grant : LockResource K × ObjectLockMode × Option Nat) : LockState K := { st with
    grants := st.grants.insert (grant.1, owner) grant.2.1
    tupleGrantGenerations := match grant.2.2 with
      | some generation => st.tupleGrantGenerations.insert (grant.1, owner) generation
      | none => st.tupleGrantGenerations }

/-- `restore_owner`. -/
def restoreOwner (st : LockState K) (owner : LockOwner) (guardId : Nat)
    (snapshot : OwnerGrantSnapshot K) : LockState K × Result Unit :=
  if snapshot.managerId ≠ st.id ∨ snapshot.guardId ≠ guardId ∨ snapshot.owner ≠ owner then
    (st, .error (.internal "object lock snapshot belongs to a different lock owner"))
  else if !(snapshot.grants.all fun grant =>
      (st.grantOf grant.1 owner).any fun held => held.covers grant.2) then
    (st, .error (.internal "object lock snapshot is stale and cannot restore released grants"))
  else match assignGenerations st.nextTupleGrantGeneration snapshot.grants with
    | .error e => (st, .error e)
    | .ok (next, restored) =>
      let st := restored.foldl (putGrant owner)
        { dropGrants st owner with nextTupleGrantGeneration := next }
      ({ st with waitsFor := st.waitsFor.erase owner }, .ok ())

/-- Drop the members of a list that fail a test, and the list itself when nothing
is left. -/
def shrink {α : Type} (keep : α → Bool) (members : List α) : Option (List α) :=
  if (members.filter keep).isEmpty then none else some (members.filter keep)

/-- `release_owner`. -/
def releaseOwner (st : LockState K) (owner : LockOwner) : LockState K := { dropGrants st owner with
    activeOwners := st.activeOwners.filter fun o => o ≠ owner
    queues := st.queues.filterMapValues (shrink fun request => request.owner ≠ owner)
    waitsFor := (st.waitsFor.erase owner).filterMapValues (shrink fun blocker => blocker ≠ owner) }

/-! ### Waiting for a transaction -/

/-- One iteration of the loop of `wait_for`; `none` when it goes on waiting. -/
def waitLoop (st : LockState K) (registry : Registry) (waiter : LockOwner)
    (blockerSubxid : TxnId) (cancel : Option CancelReason) : LockState K × Option (Result Unit) :=
  let stop := { st with waitsFor := st.waitsFor.erase waiter }
  if !registry.isActive blockerSubxid then (stop, some (.ok ()))
  else match QueryCancel.check cancel with
    | .error e => (stop, some (.error e))
    | .ok () => (st, none)

/-- `wait_for`, up to its first wait or its return. -/
def waitFor (st : LockState K) (registry : Registry) (waiterSubxid blockerSubxid : TxnId)
    (cancel : Option CancelReason) : LockState K × Option (Result Unit) :=
  let waiter := LockOwner.transaction (registry.topOf waiterSubxid)
  let blocker := LockOwner.transaction (registry.topOf blockerSubxid)
  waitLoop { st with waitsFor := st.waitsFor.insert waiter [blocker] } registry waiter
    blockerSubxid cancel

/-- A waiting `wait_for` call, from a wakeup to its next wait or its return. -/
def resumeWait (st : LockState K) (registry : Registry) (waiter : LockOwner)
    (blockerSubxid : TxnId) (cancel : Option CancelReason) (elapsed : Bool) :
    LockState K × Option (Result Unit) :=
  if elapsed && onCycle st.waitsFor waiter then
    ({ st with waitsFor := st.waitsFor.erase waiter },
      some (.error (.execute .deadlockDetected "deadlock detected")))
  else waitLoop st registry waiter blockerSubxid cancel

end Saguaro.Locks
