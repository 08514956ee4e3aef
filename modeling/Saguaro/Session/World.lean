/-
A session that commits: its connection task, its worker, and everybody who cancels
(`crates/server/src/connection`, `crates/server/src/query/exec.rs`, `txn.rs`).

A statement of the client is run by a blocking worker while the connection task waits
for rows and for the cancellation token. The worker ends with a `StreamOutcome`; the
connection task then reconciles it with a cancellation it has seen, and answers. A cancel
request or the statement timer may set the token between any two steps, and other
sessions append, flush and fail on the same log between any two steps.

The statements that are followed in detail are those that commit: one in autocommit
(`write`), an ALTER that commits on its own (`maintenance`), and COMMIT. All others are a
change of the session's transaction (`transact`). A panic of a worker and COPY are left
out. `answers` remembers every terminal response, with the ids of the transaction that the
statement was about and whether there was something to commit.
-/

import Saguaro.Session.CommitLog
import Saguaro.Lib.Transition

namespace Saguaro.Session

inductive Protocol where
  | simple
  | extended
  deriving DecidableEq, Repr

inductive Statement where
  | write
  | maintenance
  | commit
  deriving DecidableEq, Repr

/-- `StreamOutcome`, with the command tag of the result; reads and COPY have others. -/
inductive StreamOutcome where
  | direct (tag : String)
  | durable (tag : String)
  deriving DecidableEq, Repr

/-- How each path of `dispatch`, `run_autocommit` and the extended Execute wraps the result
of a statement; `hadTxn` is `transaction_control_is_irreversible`. -/
def classify (protocol : Protocol) (hadTxn : Bool) (tag : String) : Statement → StreamOutcome
  | .maintenance => .durable tag
  | .write =>
    match protocol with
    | .simple => .direct tag
    | .extended => .durable tag
  | .commit =>
    match protocol with
    | .simple => .direct tag
    | .extended => if hadTxn then .durable tag else .direct tag

/-- `Transaction` of the session's slot, as far as COMMIT reads it. -/
structure Transaction where
  txnId : TxnId
  /-- The ids of its savepoints that are not rolled back. -/
  liveSubxids : List TxnId
  hasWrites : Bool
  failed : Bool
  deriving DecidableEq

namespace Transaction

/-- `live_txns`: what a commit record of the transaction commits. -/
def family (t : Transaction) : List TxnId := t.txnId :: t.liveSubxids

def markFailed (t : Transaction) : Transaction := { t with failed := true }

@[simp] theorem family_markFailed (t : Transaction) : t.markFailed.family = t.family := rfl

end Transaction

def idsOf : Option Transaction → List TxnId
  | none => []
  | some t => t.family

/-- How far the worker is. -/
inductive Worker where
  | executing
  /-- `handle_transaction_control` for COMMIT. -/
  | controlling
  /-- Everything is prepared; the last look at the token comes next. -/
  | checking (tag : String)
  | committing (tag : String)
  | flushing (tag : String)
  /-- The commit is durable, the family is still registered. -/
  | finishing (tag : String)
  | rollingBack (err : DbError)
  | returned (outcome : Result StreamOutcome)

def Statement.start : Statement → Worker
  | .commit => .controlling
  | _ => .executing

/-- Only the maintenance units look at the token before they commit. -/
def Statement.prepared (tag : String) : Statement → Worker
  | .maintenance => .checking tag
  | _ => .committing tag

structure Running where
  protocol : Protocol
  statement : Statement
  /-- A transaction was open when the statement began. -/
  hadTxn : Bool
  /-- The ids of the transaction that the statement is to commit. -/
  unit : List TxnId
  /-- A commit record is to be written. -/
  due : Bool
  worker : Worker
  /-- `stream_cancel`: the connection task has stopped waiting for rows. -/
  streamCancel : Option DbError

inductive Phase where
  | idle
  | running (run : Running)
  | responding (protocol : Protocol) (unit : List TxnId) (due : Bool)
      (outcome : Result StreamOutcome)
  | closed
  /-- The process has ended itself. -/
  | exited

/-- The terminal response to a statement. -/
inductive Response where
  | commandComplete (tag : String)
  | errorResponse (err : DbError)
  deriving DecidableEq

structure Answer where
  unit : List TxnId
  due : Bool
  response : Response
  deriving DecidableEq

structure World where
  log : CommitLog
  nextTxnId : TxnId
  /-- The ids that this client's transactions have had. -/
  mine : List TxnId
  slot : Option Transaction
  /-- The reason that is set on the session's token. -/
  cancel : Option CancelReason
  /-- `statement_active`: the timer runs and cancel requests are for this statement. -/
  statementActive : Bool
  /-- Messages are skipped until Sync. -/
  failed : Bool
  /-- The server is not shutting down. -/
  accepting : Bool
  phase : Phase
  answers : List Answer

/-- What the worker finds in its next step. -/
inductive Choice where
  | proceed (tag : String)
  /-- The statement turns out to have nothing to commit. -/
  | nothing (tag : String)
  /-- An error, before or after an id was allocated. -/
  | fail (err : DbError) (registered : Bool)
  /-- An error of COMMIT that is returned without a rollback. -/
  | abandon (err : DbError)
  | append (outcome : AppendOutcome)
  | flush (outcome : FlushOutcome)
  /-- Cleaning up fails, which ends the process. -/
  | die

/-- What other sessions do with the log. -/
inductive Others where
  | register
  | append (ids : List TxnId) (outcome : AppendOutcome)
  | abort (ids : List TxnId)
  | flush (outcome : FlushOutcome)

inductive Action where
  /-- A cancel request of the client, or the statement timer. -/
  | request (reason : CancelReason)
  | arrive (protocol : Protocol) (statement : Statement)
  /-- Any other statement: BEGIN, ROLLBACK, SAVEPOINT, ROLLBACK TO, reads and writes in the
  transaction, with `fresh` new ids. -/
  | transact (fresh : Nat) (slot : Option Transaction)
  | work (choice : Choice)
  /-- The connection task sees the token while it waits for rows. -/
  | notice
  | join
  /-- The answer is written, or the write fails and the connection is closed. -/
  | respond (written : Bool)
  /-- `handle_idle_statement_timeout`: the token is seen between two messages. -/
  | expire
  | sync
  | disconnect
  | connect
  | others (event : Others)
  | stopAccepting
  | crash

namespace World

def init : World where
  log := .init
  nextTxnId := FIRST_NORMAL_XID
  mine := []
  slot := none
  cancel := none
  statementActive := false
  failed := false
  accepting := true
  phase := .idle
  answers := []

/-- `start_statement_timer`: the token is reset for a new statement, and stays as it is while
the extended cycle of an earlier one is not over. -/
def startStatementTimer (w : World) : World :=
  { w with cancel := if w.statementActive then w.cancel else none, statementActive := true }

def markFailed (w : World) : World := { w with slot := w.slot.map Transaction.markFailed }

/-- The session takes `count` new ids. -/
def allocate (w : World) (count : Nat) : World := { w with
    nextTxnId := w.nextTxnId + count
    mine := (List.range' w.nextTxnId count) ++ w.mine }

/-- The ids of the open transaction. -/
def slotIds (w : World) : List TxnId := idsOf w.slot

def answer (w : World) (answer : Answer) : World := { w with answers := answer :: w.answers }

/-- `abort_transaction`; an ambiguous log ends the process. -/
def abortTransaction (w : World) (t : Transaction) : World × Bool :=
  if t.hasWrites then
    let (log, appended) := w.log.appendAborts t.family
    ({ w with log }, isAmbiguous appended)
  else (w, false)

/-- The session ends and aborts the transaction it has left. -/
def close (w : World) : World :=
  match w.slot with
  | none => { w with phase := .closed }
  | some t =>
    let (w, fatal) := w.abortTransaction t
    { w with slot := none, phase := if fatal then .exited else .closed }

/-- An ErrorResponse; in the extended protocol the messages up to Sync are then skipped. -/
def reportError (w : World) (protocol : Protocol) (unit : List TxnId) (due : Bool) (err : DbError) :
    World :=
  let w := w.answer ⟨unit, due, .errorResponse err⟩
  match protocol with
  | .simple => { w with phase := .idle, statementActive := false }
  | .extended => { w with phase := .idle, failed := true }

/-- `ShutdownState::begin_query`. -/
def beginQuery (w : World) : Result Unit :=
  if w.accepting then .ok () else .error (.internal "server is shutting down")

/-- The ids that the answer to a new statement is about: those of the open transaction for
COMMIT; the others have no transaction yet. -/
def about (w : World) : Statement → List TxnId
  | .commit => w.slotIds
  | _ => []

/-- A statement begins. -/
def arrive (w : World) (protocol : Protocol) (statement : Statement) : World :=
  let unit := w.about statement
  let w := w.startStatementTimer
  match protocol, QueryCancel.check w.cancel, w.beginQuery with
  -- an extended message that finds the token set is answered and not run
  | .extended, .error err, _ =>
    { w.markFailed.reportError .extended unit false err with statementActive := false }
  | .extended, .ok (), .error err => w.reportError .extended unit false err
  | .simple, _, .error err => (w.answer ⟨unit, false, .errorResponse err⟩).close
  | _, _, .ok () =>
    { w with
      phase := .running
        { protocol, statement, unit
          hadTxn := w.slot.isSome
          due := false
          worker := statement.start
          streamCancel := none } }

def setRun (w : World) (run : Running) : World := { w with phase := .running run }

def returns (w : World) (run : Running) (outcome : Result StreamOutcome) : World :=
  w.setRun { run with worker := .returned outcome }

/-- COMMIT, up to the point where the transaction has writes and is to be committed. -/
def control (w : World) (run : Running) : World :=
  let succeed (w : World) (tag : String) : World :=
    w.returns run (.ok (classify run.protocol run.hadTxn tag .commit))
  match run.protocol, QueryCancel.check w.cancel with
  | .extended, .error err => w.markFailed.returns run (.error err)
  | _, check =>
    match w.slot with
    | none => succeed w "COMMIT"
    | some t =>
      if t.failed then
        let (w, fatal) := w.abortTransaction t
        if fatal then { w with slot := none, phase := .exited }
        else succeed { w with slot := none } "ROLLBACK"
      else
        match check with
        | .error err => w.markFailed.returns run (.error err)
        | .ok () =>
          if t.hasWrites then
            { w with slot := none }.setRun
              { run with due := true, worker := .checking "COMMIT" }
          else succeed { w with slot := none } "COMMIT"

/-- `rollback_pre_durable_or_die`. -/
def rollback (w : World) (run : Running) (err : DbError) : World :=
  let (log, appended) := w.log.appendAborts run.unit
  if isAmbiguous appended then { w with log, phase := .exited }
  else { w with log }.returns run (.error err)

/-- `append_and_flush_commit`, the append. -/
def appendCommit (w : World) (run : Running) (tag : String) (outcome : AppendOutcome) : World :=
  match w.log.appendCommit run.unit outcome with
  | (log, .ok ()) => { w with log }.setRun { run with worker := .flushing tag }
  | (log, .error err) => { w with log }.setRun { run with worker := .rollingBack err }

/-- `append_and_flush_commit`, the flush; an ambiguous error ends the process. -/
def flushCommit (w : World) (run : Running) (tag : String) (outcome : FlushOutcome) : World :=
  match w.log.flush outcome with
  | (log, .ok ()) => { w with log }.setRun { run with worker := .finishing tag }
  | (log, .error err) =>
    if ambiguous err then { w with log, phase := .exited }
    else { w with log }.setRun { run with worker := .rollingBack err }

/-- One step of the worker. -/
def work (w : World) (run : Running) : Choice → Option World
  | .proceed tag =>
    match run.worker with
    | .executing =>
      some <| (w.allocate 1).setRun
        { run with
          unit := [w.nextTxnId]
          due := true
          worker := run.statement.prepared tag }
    | .controlling => some (w.control run)
    | .checking tag =>
      match QueryCancel.check w.cancel with
      | .error err => some (w.setRun { run with worker := .rollingBack err })
      | .ok () => some (w.setRun { run with worker := .committing tag })
    | .finishing tag =>
      some (w.returns run (.ok (classify run.protocol run.hadTxn tag run.statement)))
    | .rollingBack err => some (w.rollback run err)
    | _ => none
  | .nothing tag =>
    match run.worker with
    | .executing =>
      some (w.returns run (.ok (classify run.protocol run.hadTxn tag run.statement)))
    | _ => none
  | .fail err registered =>
    match run.worker with
    | .executing =>
      if registered then
        some ((w.allocate 1).setRun
          { run with unit := [w.nextTxnId], due := true, worker := .rollingBack err })
      else some (w.returns run (.error err))
    | .checking _ => some (w.setRun { run with worker := .rollingBack err })
    | _ => none
  | .abandon err =>
    match run.worker with
    | .checking _ => some (w.returns run (.error err))
    | _ => none
  | .append outcome =>
    match run.worker with
    | .committing tag => some (w.appendCommit run tag outcome)
    | _ => none
  | .flush outcome =>
    match run.worker with
    | .flushing tag =>
      if outcome.Ordinary then some (w.flushCommit run tag outcome) else none
    | _ => none
  | .die =>
    match run.worker with
    | .controlling | .finishing _ | .rollingBack _ => some { w with phase := .exited }
    | _ => none

/-- `apply_stream_consumer_cancel`. -/
def applyStreamConsumerCancel (w : World) (outcome : Result StreamOutcome) (err : DbError) :
    World × Result StreamOutcome :=
  match outcome with
  | .error _ | .ok (.durable _) => (w, outcome)
  | .ok (.direct _) => (w.markFailed, .error err)

/-- The connection task has the worker's outcome. -/
def join (w : World) (run : Running) (outcome : Result StreamOutcome) : World :=
  let (w, outcome) := match run.streamCancel with
    | some err => w.applyStreamConsumerCancel outcome err
    | none => (w, outcome)
  let (w, outcome) := match QueryCancel.check w.cancel with
    | .error err => w.applyStreamConsumerCancel outcome err
    | .ok () => (w, outcome)
  { w with phase := .responding run.protocol run.unit run.due outcome }

/-- The answer is recorded also when the connection breaks while it is written: the client
may have received it. -/
def respond (w : World) (protocol : Protocol) (unit : List TxnId) (due : Bool)
    (outcome : Result StreamOutcome) (written : Bool) : World :=
  match outcome with
  | .error err =>
    let w := w.reportError protocol unit due err
    if written then w else w.close
  | .ok (.direct tag) | .ok (.durable tag) =>
    let w := w.answer ⟨unit, due, .commandComplete tag⟩
    if !written then w.close
    else
      match protocol with
      | .simple => { w with phase := .idle, statementActive := false }
      | .extended => { w with phase := .idle }

/-- Another statement of the session: its transaction begins or goes on, takes new ids, drops
the ids of savepoints it rolls back, or is rolled back itself. -/
def transact (w : World) (fresh : Nat) (slot : Option Transaction) : Option World :=
  if w.accepting ∧ ∀ id ∈ idsOf slot, id ∈ w.slotIds ∨ id ∈ List.range' w.nextTxnId fresh then
    let dropped := w.slotIds.filter (· ∉ idsOf slot)
    some { w.allocate fresh with slot, log := (w.log.appendAborts dropped).1 }
  else none

/-- What other sessions do; their ids are not this client's. -/
def others (w : World) : Others → Option World
  | .register => some { w with nextTxnId := w.nextTxnId + 1 }
  | .append ids outcome =>
    if ∀ id ∈ ids, id < w.nextTxnId ∧ id ∉ w.mine then
      some { w with log := (w.log.appendCommit ids outcome).1 }
    else none
  | .abort ids =>
    if ∀ id ∈ ids, id < w.nextTxnId ∧ id ∉ w.mine then
      some { w with log := (w.log.appendAborts ids).1 }
    else none
  | .flush outcome =>
    if outcome.Ordinary then some { w with log := (w.log.flush outcome).1 } else none

/-- The next process, with a new connection. -/
def crash (w : World) : World := { w with
    log := w.log.recover
    slot := none
    cancel := none
    statementActive := false
    failed := false
    accepting := true
    phase := .idle }

def step (w : World) (action : Action) : Option World :=
  match action, w.phase with
  | .crash, _ => some w.crash
  | _, .exited => none
  | .others event, _ => w.others event
  | .request reason, _ => some { w with cancel := w.cancel.orElse fun _ => some reason }
  | .connect, .closed =>
    some { w with slot := none, cancel := none, statementActive := false, failed := false,
                  phase := .idle }
  | .stopAccepting, _ => some { w with accepting := false }
  | .arrive protocol statement, .idle =>
    -- a write in an open transaction does not commit: it is a `transact`
    if w.failed = false ∧ (statement ≠ .commit → w.slot = none) then
      some (w.arrive protocol statement)
    else none
  | .transact fresh slot, .idle => w.transact fresh slot
  | .expire, .idle =>
    if w.statementActive && w.cancel.isSome then
      some { w.markFailed with statementActive := false, failed := true }
    else none
  | .sync, .idle => some { w with statementActive := false, failed := false }
  | .disconnect, .idle => some w.close
  | .work choice, .running run => w.work run choice
  | .notice, .running run =>
    match run.streamCancel, QueryCancel.check w.cancel with
    | none, .error err => some (w.setRun { run with streamCancel := some err })
    | _, _ => none
  | .join, .running run =>
    match run.worker with
    | .returned outcome => some (w.join run outcome)
    | _ => none
  | .respond written, .responding protocol unit due outcome =>
    some (w.respond protocol unit due outcome written)
  | _, _ => none

end World

end Saguaro.Session
