/-
Sessions over the conflict manager: every interleaving of the calls that
`crates/server/src/query/txn.rs` makes for its transactions.

A transaction begins by taking an id from the registry, captures one snapshot at
its first statement, registers with the manager, reads and writes (possibly
under savepoint ids), and ends by `commit_transaction` or `abort_transaction`.
Those two are not atomic: the commit check, the deregistration that makes the
effects visible, the manager's `finished` and the release of the advertised
snapshot are separate critical sections, and so are separate actions here. A
transaction without writes skips the commit check.

The world also carries what happened: the tracked reads and writes, the order in
which commits took effect, the stamp each transaction got, and the transactions
that passed their check while an outbound neighbour was already stamped. No
action reads this history; properties of a schedule are stated over it.
-/

import Saguaro.Ssi.Manager
import Saguaro.Server.Registry
import Saguaro.Lib.Transition

namespace Saguaro.Ssi

/-- Where a top-level transaction stands in its session's control flow. -/
inductive Phase where
  | idle
  | running
  /-- The commit check failed; only a rollback can follow. -/
  | rejected
  /-- The commit check passed. -/
  | checked
  /-- Deregistered as committed. -/
  | settled
  /-- `finished` was called. -/
  | finished
  /-- Deregistered as aborted. -/
  | rolledBack
  /-- `aborted` was called. -/
  | aborted
  deriving DecidableEq, Repr

/-- A tracked access: of one row, or of the whole relation when there is no key. -/
structure Access (K : Type) where
  txn : TxnId
  table : TableId
  key : Option K
  deriving DecidableEq

/-- The access pair touches a common row, now or after a change of the table. -/
def Access.conflicts {K : Type} [DecidableEq K] (read write : Access K) : Bool :=
  decide (read.table = write.table) &&
    (read.key.isNone || write.key.isNone || decide (read.key = write.key))

structure World (K : Type) where
  registry : Registry
  ssi : SsiState K
  /-- `Transaction::rr_snapshot`. -/
  snap : TxnId → Option Snapshot
  /-- The transactions whose `rr_advertised` guard is alive. -/
  held : List TxnId
  phase : TxnId → Phase
  /-- `Transaction::live_subxids`. -/
  family : TxnId → List TxnId
  reads : List (Access K)
  writes : List (Access K)
  commits : List TxnId
  seq : TxnId → Option Nat
  committedPivots : List TxnId

def World.init (K : Type) (first : TxnId) : World K where
  registry := .new first
  ssi := {}
  snap _ := none
  held := []
  phase _ := .idle
  family _ := []
  reads := []
  writes := []
  commits := []
  seq _ := none
  committedPivots := []

inductive Action (K : Type) where
  | begin
  | savepoint (top : TxnId)
  | rollbackTo (top : TxnId) (subxids : List TxnId)
  | capture (top : TxnId)
  | register (xid : TxnId)
  | recordTupleRead (xid : TxnId) (table : TableId) (key : K)
  | recordRelationRead (xid : TxnId) (table : TableId)
  | noteWrite (xid : TxnId) (table : TableId) (key : K)
  | noteRelationWrite (xid : TxnId) (table : TableId)
  | promote (table : TableId)
  | commitCheck (top : TxnId)
  | settle (top : TxnId)
  | finish (top : TxnId)
  | releaseUpTo (gcHorizon : TxnId)
  | rollback (top : TxnId)
  | aborted (top : TxnId)
  | dropSnapshot (top : TxnId)

namespace World

variable {K : Type} [DecidableEq K]

def setPhase (w : World K) (top : TxnId) (p : Phase) : World K :=
  { w with phase := Function.update w.phase top p }

/-- The transaction a statement running under `xid` belongs to, while it runs. -/
def actor (w : World K) (xid : TxnId) : Option TxnId :=
  if w.registry.isActive xid ∧ w.phase (w.registry.topOf xid) = .running then
    some (w.registry.topOf xid)
  else none

/-- A tracked read by the running transaction of `xid`. -/
def read (w : World K) (xid : TxnId) (table : TableId) (key : Option K)
    (record : SsiState K → TxnId → SsiState K) : Option (World K) :=
  (w.actor xid).map fun top => { w with
    ssi := record w.ssi top
    reads := if top ∈ w.ssi.txns then ⟨top, table, key⟩ :: w.reads else w.reads }

/-- A tracked write by the running transaction of `xid`. An error of the
edge-time check fails the statement; the transaction may still go on after a
rollback to a savepoint, so the world does not end it. -/
def write (w : World K) (xid : TxnId) (table : TableId) (key : Option K)
    (note : SsiState K → TxnId → SsiState K × Result Unit) : Option (World K) :=
  (w.actor xid).map fun top => { w with
    ssi := (note w.ssi top).1
    writes := if top ∈ w.ssi.txns then ⟨top, table, key⟩ :: w.writes else w.writes }

/-- Whether some outbound neighbour of `top` is stamped already. -/
def outStamped (st : SsiState K) (top : TxnId) : Bool :=
  match st.txns.lookup top with
  | none => false
  | some x => x.outEdges.any fun o =>
    match st.txns.lookup o with
    | none => false
    | some y => y.commitSeq.isSome

/-- The world after `commit_check`. -/
def check (w : World K) (top : TxnId) : World K :=
  match (Ssi.commitCheck w.ssi top).2 with
  | .ok () => { w.setPhase top .checked with
      ssi := (Ssi.commitCheck w.ssi top).1
      seq := if top ∈ w.ssi.txns then
        Function.update w.seq top (some w.ssi.nextCommitSeq) else w.seq
      committedPivots := if outStamped w.ssi top then top :: w.committedPivots
        else w.committedPivots }
  | .error _ => { w.setPhase top .rejected with ssi := (Ssi.commitCheck w.ssi top).1 }

/-- `top` has no tracked write. -/
def readOnly (w : World K) (top : TxnId) : Bool := w.writes.all fun a => a.txn ≠ top

/-- `none` when the session's control flow does not allow the action. -/
def step (w : World K) : Action K → Option (World K)
  | .begin =>
    let (top, registry) := w.registry.registerAllocated
    some { w.setPhase top .running with registry }
  | .savepoint top =>
    if w.phase top = .running then
      let (subxid, registry) := w.registry.registerSubxidAllocated top
      some { w with registry, family := Function.update w.family top (subxid :: w.family top) }
    else none
  | .rollbackTo top subxids =>
    if w.phase top = .running ∧ ∀ x ∈ subxids, x ∈ w.family top then
      some { w with
        registry := w.registry.deregisterAll subxids
        family := Function.update w.family top
          ((w.family top).filter fun x => !subxids.contains x) }
    else none
  | .capture top =>
    if w.phase top = .running ∧ w.snap top = none then
      let (snapshot, registry) := w.registry.capture top
      some { w with
        registry, snap := Function.update w.snap top (some snapshot), held := top :: w.held }
    else none
  | .register xid =>
    (w.actor xid).bind fun top => (w.snap top).map fun snapshot =>
      { w with ssi := Ssi.register w.ssi top snapshot }
  | .recordTupleRead xid table key =>
    w.read xid table (some key) fun st top => Ssi.recordTupleRead st top table key
  | .recordRelationRead xid table =>
    w.read xid table none fun st top => Ssi.recordRelationRead st top table
  | .noteWrite xid table key =>
    w.write xid table (some key) fun st top => Ssi.noteWrite st top table key
  | .noteRelationWrite xid table =>
    w.write xid table none fun st top => Ssi.noteRelationWrite st top table
  | .promote table => some { w with ssi := promoteTableIdentityLocksToRelation w.ssi table }
  | .commitCheck top => if w.phase top = .running then some (w.check top) else none
  | .settle top =>
    if w.phase top = .checked ∨ w.phase top = .running ∧ w.readOnly top then
      some { w.setPhase top .settled with
        registry := w.registry.deregisterAll (top :: w.family top)
        commits := w.commits ++ [top] }
    else none
  | .finish top =>
    if w.phase top = .settled then
      some { w.setPhase top .finished with ssi := Ssi.finished w.ssi top }
    else none
  | .releaseUpTo gcHorizon => some { w with ssi := Ssi.releaseUpTo w.ssi gcHorizon }
  | .rollback top =>
    if w.phase top = .running ∨ w.phase top = .rejected ∨ w.phase top = .checked then
      some { w.setPhase top .rolledBack with
        registry := w.registry.deregisterAll (top :: w.family top) }
    else none
  | .aborted top =>
    if w.phase top = .rolledBack then
      some { w.setPhase top .aborted with ssi := Ssi.aborted w.ssi top }
    else none
  | .dropSnapshot top =>
    if (w.phase top = .finished ∨ w.phase top = .aborted) ∧ top ∈ w.held then
      (w.snap top).map fun snapshot => { w with
        registry := w.registry.releaseAdvertised snapshot.xmin
        held := w.held.erase top }
    else none

/-! ### What a schedule did -/

/-- The rw-antidependency `reader →rw writer`: the reader read what the writer
wrote, and its snapshot does not show the writer. -/
def rwDep (snap : TxnId → Option Snapshot) (reads writes : List (Access K))
    (reader writer : TxnId) : Prop :=
  reader ≠ writer ∧ ((snap reader).any fun s => s.concurrent writer) = true ∧
    ∃ r ∈ reads, ∃ u ∈ writes, r.txn = reader ∧ u.txn = writer ∧ r.conflicts u = true

def rw (w : World K) (reader writer : TxnId) : Prop := rwDep w.snap w.reads w.writes reader writer

instance (w : World K) (reader writer : TxnId) : Decidable (w.rw reader writer) := by
  unfold rw rwDep; infer_instance

/-- Committed `tIn →rw pivot →rw tOut` whose `tOut` was the first of the three to
commit (`tIn` may be `tOut`). -/
def Dangerous (w : World K) : Prop := ∃ tIn ∈ w.commits, ∃ pivot ∈ w.commits, ∃ tOut ∈ w.commits,
    w.rw tIn pivot ∧ w.rw pivot tOut ∧ w.commits.idxOf tOut < w.commits.idxOf pivot ∧
      w.commits.idxOf tOut ≤ w.commits.idxOf tIn

instance (w : World K) : Decidable w.Dangerous := by
  unfold Dangerous; infer_instance

end World

end Saguaro.Ssi
