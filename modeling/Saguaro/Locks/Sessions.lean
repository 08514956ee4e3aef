/-
Owners at work on the lock table.

A lock owner is one statement or one top-level transaction. `ObjectLockGuard` is
used through `&mut`, and a transaction runs one statement at a time, so an owner
is either free to call the manager or blocked inside a call. One thread may work
for several owners: VACUUM keeps the locks of its statement while it waits for
those of its transactions. Threads are left out: the world interleaves the calls
of any number of owners at the points where the mutex changes hands, and so has
every run of the threads.

Beside the manager's state the world keeps what has been handed to the sessions
(guards, receipts, snapshots) and two ghost records of what was acquired:
`given`, every acquisition so far, and `live`, those that were not rolled back,
by their receipt, by a snapshot taken before them, or by a release.
-/

import Saguaro.Locks.Manager
import Saguaro.Lib.Transition

namespace Saguaro.Locks

/-- An acquisition that returned `Acquired`. -/
structure Given (K : Type) where
  ticket : Nat
  owner : LockOwner
  resource : LockResource K
  /-- The mode it reported as granted. -/
  mode : ObjectLockMode
  generation : Option Nat
  /-- It changed the grant, as opposed to finding its request covered already. -/
  changed : Bool
  /-- The id of its request; one that was covered counts as the newest. -/
  requestId : Nat
  /-- The queue of the resource when it was granted. -/
  queued : List QueuedRequest
  deriving DecidableEq, Repr

/-- The call an owner's thread is blocked in. -/
inductive Blocked (K : Type) where
  /-- `acquire_one`, for `acquire_tuple` when there is an `origin`. -/
  | acquire (origin : Option (TxnId × TupleLockTag K)) (call : Call K)
  | conflict (blockerSubxid : TxnId)

structure World (K : Type) where
  locks : LockState K
  registry : Registry
  /-- The live guards with their ids. -/
  guards : List (LockOwner × Nat)
  blocked : LockOwner → Option (Blocked K)
  /-- Every receipt handed out, with the ticket of its acquisition. -/
  receipts : List (TupleGrantReceipt K × Nat)
  /-- Every snapshot taken, with the first ticket issued after it. -/
  snapshots : List (OwnerGrantSnapshot K × Nat)
  given : List (Given K)
  live : List (Given K)
  nextTicket : Nat

def World.init (K : Type) (managerId : Nat) (first : TxnId) : World K where
  locks := { id := managerId }
  registry := .new first
  guards := []
  blocked _ := none
  receipts := []
  snapshots := []
  given := []
  live := []
  nextTicket := 0

inductive Action (K : Type) where
  | begin
  | savepoint (top : TxnId)
  | deregister (ids : List TxnId)
  | statementOwner
  | transactionOwner (xid : TxnId)
  | acquire (owner : LockOwner) (request : ObjectLockRequest K) (cancel : Option CancelReason)
  | acquireTuple (xid : TxnId) (tag : TupleLockTag K) (mode : TupleLockMode)
      (policy : TupleLockWaitPolicy) (cancel : Option CancelReason)
  | waitFor (waiterSubxid blockerSubxid : TxnId) (cancel : Option CancelReason)
  /-- A blocked owner wakes up. -/
  | wake (owner : LockOwner) (cancel : Option CancelReason) (elapsed : Bool)
  | restoreTuple (xid : TxnId) (changes : List (TupleGrantReceipt K × Nat))
  | snapshot (owner : LockOwner)
  | restore (owner : LockOwner) (snapshot : OwnerGrantSnapshot K × Nat)
  | release (owner : LockOwner)

namespace World

variable {K : Type} [DecidableEq K]

def setBlocked (w : World K) (owner : LockOwner) (b : Option (Blocked K)) : World K :=
  { w with blocked := Function.update w.blocked owner b }

/-- The receipt `acquire_tuple` returns for an acquisition. -/
def receiptFor (w : World K) (st : LockState K) (origin : Option (TxnId × TupleLockTag K))
    (result : AcquireOne) : List (TupleGrantReceipt K × Nat) :=
  match origin with
  | none => []
  | some (xid, tag) =>
    match tupleReceipt st (w.registry.topOf xid) tag result with
    | .ok (some receipt) => [(receipt, w.nextTicket)]
    | _ => []

/-- The world after `owner`'s call for `request`, numbered `requestId`, has given
the mutex back. -/
def complete (w : World K) (origin : Option (TxnId × TupleLockTag K)) (owner : LockOwner)
    (resource : LockResource K) (requestId : Nat) : LockState K × Progress K → World K
  | (st, .waiting call) => { w.setBlocked owner (some (.acquire origin call)) with locks := st }
  | (st, .done (.ok (.acquired previous previousGeneration granted generation))) =>
    let acquisition : Given K := ⟨w.nextTicket, owner, resource, granted, generation,
      previous ≠ some granted, requestId, w.locks.queueOf resource⟩
    { w.setBlocked owner none with
      locks := st
      receipts := w.receiptFor st origin
        (.acquired previous previousGeneration granted generation) ++ w.receipts
      given := acquisition :: w.given
      live := acquisition :: w.live
      nextTicket := w.nextTicket + 1 }
  | (st, .done _) => { w.setBlocked owner none with locks := st }

/-- The world after a guard was asked for. -/
def guarded (w : World K) : LockState K × Result (LockOwner × Nat) → World K
  | (st, .ok guard) => { w with locks := st, guards := guard :: w.guards }
  | (st, .error _) => { w with locks := st }

/-- The world after a `wait_for` call has given the mutex back. -/
def waited (w : World K) (waiter : LockOwner) (blockerSubxid : TxnId) :
    LockState K × Option (Result Unit) → World K
  | (st, none) => { w.setBlocked waiter (some (.conflict blockerSubxid)) with locks := st }
  | (st, some _) => { w.setBlocked waiter none with locks := st }

/-- `none` when no session can do the action in this world. -/
def step (w : World K) : Action K → Option (World K)
  | .begin => some { w with registry := w.registry.registerAllocated.2 }
  | .savepoint top => some { w with registry := (w.registry.registerSubxidAllocated top).2 }
  | .deregister ids =>
    if ∀ id ∈ ids, (w.blocked (.transaction (w.registry.topOf id))).isNone then
      some { w with registry := w.registry.deregisterAll ids }
    else none
  | .statementOwner => some (w.guarded (statementOwner w.locks))
  | .transactionOwner xid => some (w.guarded (transactionOwner w.locks w.registry xid))
  | .acquire owner request cancel =>
    if (w.blocked owner).isNone then
      some (w.complete none owner request.resource w.locks.nextRequestId
        (acquireOne w.locks owner request .block cancel))
    else none
  | .acquireTuple xid tag mode policy cancel =>
    let owner := LockOwner.transaction (w.registry.topOf xid)
    if (w.blocked owner).isSome then none
    -- `acquire_tuple` refuses an xid that is not active.
    else if !w.registry.isActive xid then some w
    else some (w.complete (some (xid, tag)) owner (.tuple tag.table tag.key)
      w.locks.nextRequestId (acquireOne w.locks owner ⟨.tuple tag.table tag.key, .tuple mode⟩
        policy cancel))
  | .waitFor waiterSubxid blockerSubxid cancel =>
    let waiter := LockOwner.transaction (w.registry.topOf waiterSubxid)
    if (w.blocked waiter).isSome then none
    else some (w.waited waiter blockerSubxid
      (Locks.waitFor w.locks w.registry waiterSubxid blockerSubxid cancel))
  | .wake owner cancel elapsed =>
    match w.blocked owner with
    | none => none
    | some (.acquire origin call) =>
      some (w.complete origin owner call.request.resource call.requestId
        (resumeAcquire w.locks call cancel elapsed))
    | some (.conflict blockerSubxid) =>
      some (w.waited owner blockerSubxid
        (resumeWait w.locks w.registry owner blockerSubxid cancel elapsed))
  | .restoreTuple xid changes =>
    let owner := LockOwner.transaction (w.registry.topOf xid)
    if (w.blocked owner).isNone ∧ ∀ change ∈ changes, change ∈ w.receipts then
      match restoreTupleChanges w.locks owner (changes.map Prod.fst) with
      | (st, .ok ()) => some { w with
          locks := st
          live := w.live.filter fun g => !(changes.map Prod.snd).contains g.ticket }
      | (st, .error _) => some { w with locks := st }
    else none
  | .snapshot owner =>
    match w.guards.find? fun guard => guard.1 = owner with
    | none => none
    | some (_, guardId) => some { w with
        snapshots := (ownerSnapshot w.locks owner guardId, w.nextTicket) :: w.snapshots }
  | .restore owner snapshot =>
    if (w.blocked owner).isNone ∧ snapshot ∈ w.snapshots then
      match w.guards.find? fun guard => guard.1 = owner with
      | none => none
      | some (_, guardId) =>
        match restoreOwner w.locks owner guardId snapshot.1 with
        | (st, .ok ()) => some { w with
            locks := st
            live := w.live.filter fun g => g.owner ≠ owner || g.ticket < snapshot.2 }
        | (st, .error _) => some { w with locks := st }
    else none
  | .release owner =>
    if (w.blocked owner).isNone then
      some { w with
        locks := releaseOwner w.locks owner
        guards := w.guards.filter fun guard => guard.1 ≠ owner
        live := w.live.filter fun g => g.owner ≠ owner }
    else none

/-! ### What the lock table promises -/

/-- Different owners of one resource hold compatible modes. -/
def Compatible (w : World K) : Prop :=
  ∀ resource o o' m m', o ≠ o' → w.locks.grantOf resource o = some m →
    w.locks.grantOf resource o' = some m' → m.compatible m' = true

/-- No acquisition that `counts` and was not rolled back is stronger than the grant
its owner holds. -/
def Retained (w : World K) (counts : Given K → Prop) : Prop := ∀ g ∈ w.live, counts g →
    ∃ m, w.locks.grantOf g.resource g.owner = some m ∧ m.covers g.mode = true

/-- No acquisition that `counts` was granted past an earlier, conflicting request of
another owner. -/
def Fair (w : World K) (counts : Given K → Prop) : Prop :=
  ∀ g ∈ w.given, counts g → ∀ q ∈ g.queued, q.id < g.requestId → q.owner ≠ g.owner →
    g.mode.compatible q.mode = true

end World

end Saguaro.Locks
