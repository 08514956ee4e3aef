/-
What the client is told about a commit.

The main result is `commit_outcome_reported`: a success response is for a durable commit,
and an ErrorResponse for a transaction that is not committed and never will be. It needs
three conditions, and the source fails without each of them (`durable_commit_denied`):

* in the simple protocol `dispatch` and `run_autocommit` wrap COMMIT and autocommit writes
  as `Direct`, so `apply_stream_consumer_cancel` turns the outcome of a durable commit into
  an error when the token is set before the connection task has the outcome;
* a session's flush may fail although the flush of another session has made its commit
  record durable already, and the transaction is then rolled back and reported as failed;
* a COMMIT that is refused because the token is set leaves the failed transaction open, and
  after ROLLBACK TO a second COMMIT commits it.
-/

import Saguaro.Session.Invariant

namespace Saguaro.Session

open Transition List Option Holds CommitLog World

section Steps

variable {w w' : World} {run : Running} {unit : List TxnId} {tag : String} {err : DbError}

/-! ### Statements that begin and end -/

theorem Base.slotIds (base : Base w) : ∀ id ∈ w.slotIds, id ∈ w.mine ∧ Untouched w.log id := by
  intro id mem
  unfold World.slotIds at mem
  cases here : w.slot with
  | none =>
    rw [here] at mem
    cases mem
  | some t =>
    rw [here] at mem
    exact base.slot t here id mem

theorem Base.about (base : Base w) (stmt : Statement) :
    ∀ id ∈ w.about stmt, id ∈ w.mine ∧ Untouched w.log id := by
  cases stmt with
  | commit => exact base.slotIds
  | write => exact nofun
  | maintenance => exact nofun

theorem Base.reportError (base : Base w) (protocol : Protocol) (due : Bool) (err : DbError)
    (known : ∀ id ∈ unit, id ∈ w.mine) (holds : Holds w.log w.slot w.accepting unit false) :
    Base (w.reportError protocol unit due err) := by
  have answered := base.answer ⟨unit, due, .errorResponse err⟩ known holds
  cases protocol with
  | simple => exact { answered with }
  | extended => exact { answered with }

theorem sound_close (base : Base w) : Sound w.close := by
  obtain ⟨log', phase, eq, calm, done⟩ := close_eq w fun id => id ∈ w.mine ∨ w.nextTxnId ≤ id
  rw [eq]
  refine ⟨{ (base.calm_mine calm).noSlot with }, ?_⟩
  rcases done with rfl | rfl <;> trivial

/-- An error may be reported for the open transaction when the session ends with it. -/
theorem sound_close_answer {due : Bool} (base : Base w)
    (fresh : ∀ id ∈ unit, id ∈ w.mine ∧ Untouched w.log id) :
    Sound (w.answer ⟨unit, due, .errorResponse err⟩).close := by
  obtain ⟨log', phase, eq, calm, done⟩ :=
    close_eq (w.answer ⟨unit, due, .errorResponse err⟩) fun id => id ∈ w.mine ∨ w.nextTxnId ≤ id
  rw [eq]
  have holds : Holds log' none w.accepting unit false := of_untouched (fun id mem =>
      (fresh id mem).2.spared (calm.spared id (.inl (fresh id mem).1))) failed_of_none
  have answered := (base.calm_mine calm).noSlot.answer ⟨unit, due, .errorResponse err⟩
    (fun id mem => (fresh id mem).1) holds
  refine ⟨{ answered with }, ?_⟩
  rcases done with rfl | rfl <;> trivial

theorem beginQuery_eq_error (refused : w.beginQuery = .error err) : w.accepting = false := by
  unfold beginQuery at refused
  split at refused
  · cases refused
  · simpa using ‹¬w.accepting = true›

theorem beginQuery_eq_ok (adm : w.beginQuery = .ok ()) : w.accepting = true := by
  unfold beginQuery at adm
  split at adm
  · assumption
  · cases adm

section

variable (base : Base w)

include base

/-- A statement that begins with an error is about a transaction that nobody commits. -/
theorem sound_arrive {protocol : Protocol} {stmt : Statement}
    (free : stmt ≠ .commit → w.slot = none) : Sound (w.arrive protocol stmt) := by
  have started : Base w.startStatementTimer := { base with }
  have known : ∀ id ∈ w.about stmt, id ∈ w.mine := fun id mem => (base.about stmt id mem).1
  have fresh : ∀ id ∈ w.about stmt, Untouched w.log id := fun id mem => (base.about stmt id mem).2
  unfold arrive
  dsimp only
  split
  · rename_i err _
    have reported := started.markFailed.reportError .extended false err known
      (of_untouched fresh failed_of_markFailed)
    exact ⟨{ reported with }, trivial⟩
  · -- the server takes no more statements, so that the healthy transaction stays open in vain
    rename_i err _ refused
    have closing : w.accepting = false := beginQuery_eq_error refused
    have reported := started.reportError .extended false err known fun id mem =>
      ⟨(fresh id mem).dead, fun accepting => by cases closing.symm.trans accepting⟩
    exact ⟨{ reported with }, trivial⟩
  · exact sound_close_answer started (base.about stmt)
  rename_i adm _
  have accepting : w.accepting = true := beginQuery_eq_ok adm
  refine ⟨{ started with }, known, nofun, ?_⟩
  cases stmt with
  | write => exact ⟨rfl, rfl, nofun, free nofun⟩
  | maintenance => exact ⟨rfl, rfl, nofun, free nofun⟩
  | commit =>
    refine ⟨rfl, rfl, rfl, rfl, fun t here healthy id mem answer told unconfirmed named => ?_⟩
    have holds := base.answers answer told
    rw [unconfirmed] at holds
    have bad := (holds id named).failed accepting t here mem
    cases healthy.symm.trans bad

/-! ### The worker -/

/-- The worker goes on with the statement in a world that is in order. -/
theorem sound_setRun (ok : RunOk w run) : Sound (w.setRun run) :=
  ⟨{ base with }, ok.known, ok.noticed, ok.worker⟩

theorem sound_returns_error (ok : RunOk w run)
    (holds : Holds w.log w.slot w.accepting run.unit false) : Sound (w.returns run (.error err)) :=
  sound_setRun base ⟨ok.known, ok.noticed, holds⟩

/-- Both ways in which COMMIT finds nothing to commit. -/
theorem sound_returns_nothing (known : ∀ id ∈ run.unit, id ∈ w.mine)
    (noticed : run.streamCancel.isSome → w.cancel.isSome) (undue : run.due = false)
    (holds : Holds w.log w.slot w.accepting run.unit false) :
    Sound (w.returns run (.ok (classify run.protocol run.hadTxn tag run.statement))) := by
  refine sound_setRun base ⟨known, noticed, ?_, fun due => ?_, tag, rfl⟩
  · exact undue ▸ holds
  · cases undue.symm.trans due

theorem sound_control (ok : RunOk w run) (stage : run.worker = .controlling) :
    Sound (w.control run) := by
  have worker := ok.worker
  rw [WorkerOk, stage] at worker
  obtain ⟨about, undue, commit, had, unanswered⟩ := worker
  have fresh : ∀ id ∈ run.unit, Untouched w.log id := fun id mem =>
    (base.slotIds id (about ▸ mem)).2
  have refused (err : DbError) : Sound (w.markFailed.returns run (.error err)) :=
    sound_setRun base.markFailed
      ⟨ok.known, ok.noticed, of_untouched fresh failed_of_markFailed⟩
  unfold World.control
  split
  · exact refused _
  split
  · rename_i none
    rw [← commit]
    refine sound_returns_nothing base ok.known ok.noticed undue (of_untouched fresh ?_)
    rw [none]
    exact failed_of_none
  rename_i t here
  split
  · obtain ⟨log', fatal, eq, calm⟩ :=
      abortTransaction_eq w t fun id => id ∈ w.mine ∨ w.nextTxnId ≤ id
    rw [eq]
    have abort := (base.calm_mine calm).noSlot
    dsimp only
    split
    · exact ⟨{ abort with }, trivial⟩
    rw [← commit]
    refine sound_returns_nothing abort ok.known ok.noticed undue
      (of_untouched (fun id mem => ?_) failed_of_none)
    exact (fresh id mem).spared (calm.spared id (.inl (ok.known id mem)))
  rename_i healthy
  split
  · exact refused _
  split
  · refine sound_setRun base.noSlot ⟨ok.known, ok.noticed, ⟨rfl, rfl, ?_, ?_⟩, fresh⟩
    · intro _
      rw [had, here]
      rfl
    intro id mem
    have inside : w.slotIds = t.family := by
      rw [World.slotIds, here]
      rfl
    exact unanswered t here (by simpa using healthy) id (inside ▸ about ▸ mem)
  · rw [← commit]
    exact sound_returns_nothing base.noSlot ok.known ok.noticed undue
      (of_untouched fresh failed_of_none)

theorem sound_rollback (ok : RunOk w run)
    (holds : Holds w.log w.slot w.accepting run.unit false) : Sound (w.rollback run err) := by
  have calm := calm_appendAborts w.log (fun id => id ∈ w.mine ∨ w.nextTxnId ≤ id) run.unit
  have abort := base.calm_mine calm
  unfold rollback
  dsimp only
  split
  · exact ⟨{ abort with }, trivial⟩
  · refine sound_setRun abort ⟨ok.known, ok.noticed, ?_⟩
    exact Holds.calm holds calm fun _ id mem => .inl (ok.known id mem)

/-- The one step on the log that is about the statement's own ids. -/
theorem sound_appendCommit {out : AppendOutcome} (ok : RunOk w run)
    (undecided : Undecided w.slot w.answers run) (fresh : ∀ id ∈ run.unit, Untouched w.log id) :
    Sound (w.appendCommit run tag out) := by
  have calm : Calm w.log (w.log.appendCommit run.unit out).1 (· ∉ run.unit) :=
    calm_appendCommit w.log out fun id mem other => other mem
  have after : Base { w with log := (w.log.appendCommit run.unit out).1 } := by
    refine base.calm calm (fun id new mem => ?_) (fun t here => ?_) fun id answered mem => ?_
    · exact absurd (base.allocated id (ok.known id mem)) (not_lt.mpr new)
    · rw [undecided.slot] at here
      cases here
    · exact answered (undecided.unanswered id mem)
  have dead (log' : CommitLog) (same : ∀ id ∈ run.unit, Dead log' id) :
      Holds log' w.slot w.accepting run.unit false := by
    intro id mem
    refine ⟨same id mem, ?_⟩
    rw [undecided.slot]
    exact nofun
  unfold World.appendCommit
  have same {id : TxnId} (mem : id ∈ run.unit)
      (comm : (w.log.setStatus (run.unit.take 1) .inProgress).status id = .committed) : False :=
    (fresh id mem).status (of_status_setStatus _ .inProgress nofun comm)
  obtain ⟨_, rfl, ⟨err, eq⟩ | ⟨err, fine, eq⟩ | ⟨fine, eq⟩⟩ :=
    appendCommit_cases w.log run.unit out
  · rw [eq] at after ⊢
    refine sound_setRun after ⟨ok.known, ok.noticed, dead _ fun id mem => ?_⟩
    exact ⟨fun due => absurd due (fresh id mem).pending, (fresh id mem).durable, same mem⟩
  · rw [eq] at after ⊢
    refine sound_setRun after ⟨ok.known, ok.noticed, dead _ fun id mem => ?_⟩
    exact ⟨fun _ => rfl, (fresh id mem).durable, same mem⟩
  rw [eq] at after ⊢
  refine sound_setRun after ⟨ok.known, ok.noticed, { undecided with }, .inr fun id mem => ?_⟩
  exact ⟨fun _ => mem_append_right _ mem, (fresh id mem).durable, same mem⟩

/-- A flush that fails is for a record that is not durable, unless the process ends. -/
theorem sound_flushCommit {out : FlushOutcome} (ok : RunOk w run)
    (undecided : Undecided w.slot w.answers run) (queued : Queued w.log run.unit)
    (ordinary : out.Ordinary)
    (accepted : ∀ err, (w.log.flush out).2 = .error err → ambiguous err = false →
      ∀ id ∈ run.unit, id ∉ w.log.durable) : Sound (w.flushCommit run tag out) := by
  have after : Base { w with log := (w.log.flush out).1 } := base.calm_mine (calm_flush ordinary)
  have bad (err : DbError) (log' : CommitLog) (ret : (w.log.flush out).2 = .error err)
      (certain : ambiguous err = false) (poisoned : log'.poisoned.isSome)
      (dur : log'.durable = w.log.durable) (stat : log'.status = w.log.status) :
      Holds log' w.slot w.accepting run.unit false := by
    intro id mem
    have lost := accepted err ret certain id mem
    refine ⟨⟨fun _ => poisoned, dur ▸ lost, ?_⟩, by rw [undecided.slot]; exact nofun⟩
    rcases queued with here | waits
    · exact absurd (here id mem) lost
    · exact stat ▸ (waits id mem).status
  unfold flushCommit
  rcases flush_cases w.log out ordinary with
    ⟨err, poisoned, eq⟩ | ⟨fine, eq⟩ | ⟨poison, err, due, fine, certain, -, eq⟩ |
    ⟨err, dur, fine, unknown, -, eq⟩
  · have ret := congrArg Prod.snd eq
    rw [eq] at after ⊢
    dsimp only
    split
    · exact ⟨{ after with }, trivial⟩
    rename_i certain
    refine sound_setRun after ⟨ok.known, ok.noticed, ?_⟩
    exact bad err _ ret (by simpa using certain) (by rw [poisoned]; rfl) rfl rfl
  · rw [eq] at after ⊢
    refine sound_setRun after ⟨ok.known, ok.noticed, { undecided with }, fun id mem => ?_⟩
    refine mem_append.mpr (queued.imp (· id mem) fun waits => ?_)
    exact (waits id mem).pending fine
  · have ret := congrArg Prod.snd eq
    rw [eq] at after ⊢
    dsimp only
    rw [if_neg (by simp [certain])]
    refine sound_setRun after ⟨ok.known, ok.noticed, ?_⟩
    exact bad err _ ret certain rfl rfl rfl
  rw [eq] at after ⊢
  dsimp only
  rw [if_pos unknown]
  exact ⟨{ after with }, trivial⟩

/-- One step of the worker; a flush of a commit that is durable already has to return. -/
theorem sound_work {choice : Choice} (ok : RunOk w run)
    (accepted : ∀ out, choice = .flush out → ∀ err, (w.log.flush out).2 = .error err →
      ambiguous err = false → ∀ id ∈ run.unit, id ∉ w.log.durable)
    (taken : w.work run choice = some w') : Sound w' := by
  have worker := ok.worker
  unfold WorkerOk at worker
  cases choice with
  | proceed next =>
    simp only [work] at taken
    split at taken
    · -- a new id: nobody has heard of it
      rename_i stage
      simp only [stage] at worker
      obtain ⟨-, -, other, free⟩ := worker
      cases taken
      have new : ∀ id ∈ [w.nextTxnId], Untouched w.log id := fun id mem =>
        base.fresh id (mem_singleton.mp mem).ge
      have undecided (next : Worker) : Undecided w.slot w.answers
          { run with unit := [w.nextTxnId], due := true, worker := next } := by
        refine ⟨rfl, free, fun commit => absurd commit other, ?_⟩
        intro id mem answer told _ named
        have old := base.allocated id (base.known answer told id named)
        exact absurd (mem_singleton.mp mem) (ne_of_lt old)
      refine sound_setRun (base.allocate 1) ⟨fun id mem => mem_append_left _ mem, ok.noticed, ?_⟩
      have stage : run.statement.prepared next = .checking next ∨
          run.statement.prepared next = .committing next := by
        cases run.statement <;> simp [Statement.prepared]
      rcases stage with eq | eq <;> rw [eq] <;> exact ⟨undecided _, new⟩
    · exact some.inj taken ▸ sound_control base ok ‹_›
    · rename_i stage
      simp only [stage] at worker
      split at taken
      · cases taken
        refine sound_setRun base ⟨ok.known, ok.noticed, ?_⟩
        refine of_untouched worker.2 ?_
        rw [worker.1.slot]
        exact failed_of_none
      · cases taken
        exact sound_setRun base ⟨ok.known, ok.noticed, { worker.1 with }, worker.2⟩
    · rename_i stage
      simp only [stage] at worker
      cases taken
      refine sound_setRun base ⟨ok.known, ok.noticed, ?_, fun _ => worker.1.had, _, rfl⟩
      exact worker.1.due ▸ worker.2
    · rename_i stage
      simp only [stage] at worker
      exact some.inj taken ▸ sound_rollback base ok worker
    · cases taken
  | nothing next =>
    simp only [work] at taken
    split at taken
    · rename_i stage
      simp only [stage] at worker
      cases taken
      refine sound_returns_nothing base ok.known ok.noticed worker.2.1 ?_
      rw [worker.1]
      exact nofun
    · cases taken
  | fail err reg =>
    simp only [work] at taken
    split at taken
    · rename_i stage
      simp only [stage] at worker
      split at taken
      · cases taken
        refine sound_setRun (base.allocate 1) ⟨fun id mem => mem_append_left _ mem, ok.noticed, ?_⟩
        refine of_untouched (fun id mem => base.fresh id (mem_singleton.mp mem).ge) ?_
        exact worker.2.2.2 ▸ failed_of_none
      cases taken
      refine sound_returns_error base ok ?_
      rw [worker.1]
      exact nofun
    · rename_i stage
      simp only [stage] at worker
      cases taken
      refine sound_setRun base ⟨ok.known, ok.noticed, of_untouched worker.2 ?_⟩
      rw [worker.1.slot]
      exact failed_of_none
    · cases taken
  | abandon err =>
    simp only [work] at taken
    split at taken
    · rename_i stage
      simp only [stage] at worker
      cases taken
      refine sound_returns_error base ok (of_untouched worker.2 ?_)
      rw [worker.1.slot]
      exact failed_of_none
    · cases taken
  | append out =>
    simp only [work] at taken
    split at taken
    · rename_i stage
      simp only [stage] at worker
      exact some.inj taken ▸ sound_appendCommit base ok worker.1 worker.2
    · cases taken
  | flush out =>
    simp only [work] at taken
    split at taken
    · rename_i stage
      simp only [stage] at worker
      split at taken
      · exact some.inj taken ▸ sound_flushCommit base ok worker.1 worker.2 ‹_› (accepted out rfl)
      · cases taken
    · cases taken
  | die =>
    simp only [work] at taken
    split at taken
    · exact some.inj taken ▸ ⟨{ base with }, trivial⟩
    · exact some.inj taken ▸ ⟨{ base with }, trivial⟩
    · exact some.inj taken ▸ ⟨{ base with }, trivial⟩
    · cases taken

end

/-! ### The connection task -/

/-- Reconciling keeps what the worker returned, unless that is a `Direct` success. -/
theorem join_cases (w : World) (run : Running) (out : Result StreamOutcome) :
    w.join run out = { w with phase := .responding run.protocol run.unit run.due out } ∨
    ∃ tag err, out = .ok (.direct tag) ∧ (run.streamCancel.isSome ∨ w.cancel.isSome) ∧
      w.join run out =
        { w.markFailed with phase := .responding run.protocol run.unit run.due (.error err) } := by
  have check : (∃ err, QueryCancel.check w.cancel = .error err ∧ w.cancel.isSome) ∨
      QueryCancel.check w.cancel = .ok () := by
    cases w.cancel with
    | none => exact .inr rfl
    | some reason => cases reason <;> exact .inl ⟨_, rfl, rfl⟩
  have marked : w.markFailed.cancel = w.cancel := rfl
  rcases out with err | (tag | tag)
  · left
    unfold World.join
    cases run.streamCancel <;> obtain ⟨_, eq, -⟩ | eq := check <;>
      simp [World.applyStreamConsumerCancel, eq]
  · cases seen : run.streamCancel with
    | none =>
      rcases check with ⟨err, eq, set⟩ | eq
      · exact .inr ⟨tag, err, rfl, .inr set, by
          simp only [World.join, seen, World.applyStreamConsumerCancel, eq]⟩
      · exact .inl (by simp [World.join, seen, eq])
    | some err =>
      refine .inr ⟨tag, err, rfl, .inl rfl, ?_⟩
      rcases check with ⟨_, eq, -⟩ | eq <;>
        simp [World.join, seen, World.applyStreamConsumerCancel, marked, eq]
  · left
    unfold World.join
    cases run.streamCancel <;> obtain ⟨_, eq, -⟩ | eq := check <;>
      simp [World.applyStreamConsumerCancel, eq]

theorem WorkerOk.notice (ok : WorkerOk w run) (seen : Option DbError) :
    WorkerOk w { run with streamCancel := seen } := by
  obtain ⟨protocol, stmt, hadTxn, unit, due, worker, seen'⟩ := run
  cases worker with
  | executing => exact ok
  | controlling => exact ok
  | checking => exact ⟨{ ok.1 with }, ok.2⟩
  | committing => exact ⟨{ ok.1 with }, ok.2⟩
  | flushing => exact ⟨{ ok.1 with }, ok.2⟩
  | finishing => exact ⟨{ ok.1 with }, ok.2⟩
  | rollingBack => exact ok
  | returned out => cases out <;> exact ok

/-- A `Direct` commit that is reported as an error was not durable, as long as the token is
not set in between. -/
theorem sound_join {out : Result StreamOutcome} (base : Base w) (ok : RunOk w run)
    (phase : w.phase = .running run) (clear : w.Exposed → w.cancel = none)
    (stage : run.worker = .returned out) : Sound (w.join run out) := by
  have worker := ok.worker
  rw [WorkerOk, stage] at worker
  rcases join_cases w run out with eq | ⟨tag, err, rfl, set, eq⟩
  · rw [eq]
    refine ⟨{ base with }, ok.known, ?_⟩
    cases out with
    | error err => exact worker
    | ok out => exact worker.1
  rw [eq]
  obtain ⟨holds, had, tag', direct⟩ := worker
  have marked := base.markFailed
  refine ⟨{ marked with }, ok.known, ?_⟩
  cases due : run.due with
  | false =>
    rw [due] at holds
    exact holds.setSlot failed_of_markFailed
  | true =>
    -- a durable commit in the simple protocol, with the token set
    rw [due] at holds
    intro id mem
    have dur : id ∈ w.log.durable := holds id mem
    have exposed : w.Exposed := by
      rw [Exposed, phase]
      refine ⟨?_, ?_, id, mem, dur⟩
      · cases protocol : run.protocol with
        | simple => rfl
        | extended =>
          cases stmt : run.statement <;> rw [protocol, stmt] at direct
          · cases direct
          · cases direct
          · rw [had due stmt] at direct
            cases direct
      · intro maintenance
        rw [maintenance] at direct
        cases direct
    have unset := clear exposed
    rcases set with seen | set
    · have set := ok.noticed seen
      rw [unset] at set
      cases set
    · rw [unset] at set
      cases set

theorem sound_respond {protocol : Protocol} {due wrote : Bool} {out : Result StreamOutcome}
    (base : Base w) (known : ∀ id ∈ unit, id ∈ w.mine)
    (holds : Holds w.log w.slot w.accepting unit (out.isOk && due)) :
    Sound (w.respond protocol unit due out wrote) := by
  have succeeds (tag : String) (success : out.isOk = true) :
      Base (w.answer ⟨unit, due, .commandComplete tag⟩) := by
    refine base.answer _ known ?_
    rw [success, Bool.true_and] at holds
    exact holds
  unfold respond
  rcases out with err | (tag | tag)
  · have reported := base.reportError protocol due err known holds
    dsimp only
    split
    · refine ⟨reported, ?_⟩
      cases protocol <;> trivial
    · exact sound_close reported
  all_goals
    have answered := succeeds tag rfl
    dsimp only
    split
    · exact sound_close answered
    · cases protocol <;> exact ⟨{ answered with }, trivial⟩

/-! ### Everybody else -/

/-- Other statements of the session; they must not bring back a transaction whose COMMIT was
answered with an error. -/
theorem sound_transact {fresh : Nat} {slot : Option Transaction} (base : Base w)
    (phase : w.phase = .idle)
    (kept : ∀ t ∈ slot, t.failed = false → ∀ id ∈ t.family, Unanswered w.answers id)
    (taken : w.transact fresh slot = some w') : Sound w' := by
  simp only [transact] at taken
  split at taken
  · rename_i valid
    cases taken
    have calm := calm_appendAborts w.log (fun id => id ∈ w.mine ∨ w.nextTxnId ≤ id)
      (w.slotIds.filter (· ∉ idsOf slot))
    have after := (base.calm_mine calm).allocate fresh
    refine ⟨⟨after.allocated, after.fresh, fun t here id mem => ?_, after.known,
      fun answer told => ?_⟩, ?_⟩
    · have here : slot = some t := here
      subst here
      rcases valid.2 id mem with old | new
      · have := base.slotIds id old
        exact ⟨mem_append_right _ this.1, this.2.spared (calm.spared id (.inl this.1))⟩
      · have le := (mem_range'_1.mp new).1
        exact ⟨mem_append_left _ new, (base.fresh id le).spared (calm.spared id (.inr le))⟩
    · have holds := after.answers answer told
      cases unconfirmed : answer.confirms with
      | true =>
        rw [unconfirmed] at holds
        exact holds
      | false =>
        rw [unconfirmed] at holds
        refine fun id named => ⟨(holds id named).dead, fun _ t here mem => ?_⟩
        by_contra healthy
        exact kept t here (by simpa using healthy) id mem answer told unconfirmed named
    · change PhaseOk _ w.phase
      rw [phase]
      trivial
  · cases taken

theorem sound_others {event : Others} (base : Base w) (ok : PhaseOk w w.phase)
    (taken : w.others event = some w') : Sound w' := by
  have apart (ids : List TxnId) (theirs : ∀ id ∈ ids, id < w.nextTxnId ∧ id ∉ w.mine) :
      ∀ id ∈ ids, ¬(id ∈ w.mine ∨ w.nextTxnId ≤ id) := by
    rintro id mem (mine | new)
    · exact (theirs id mem).2 mine
    · exact absurd (theirs id mem).1 (not_lt.mpr new)
  cases event with
  | register =>
    cases taken
    refine ⟨{ base with
      allocated := fun id mem => Nat.lt_succ_of_lt (base.allocated id mem)
      fresh := fun id le => base.fresh id (Nat.le_of_succ_le le) }, ?_⟩
    exact PhaseOk.later ok fun set => set
  | append ids out =>
    simp only [others] at taken
    split at taken
    · rename_i theirs
      cases taken
      have calm := calm_appendCommit w.log out (apart ids theirs)
      exact ⟨base.calm_mine calm, ok.calm calm⟩
    · cases taken
  | abort ids =>
    simp only [others] at taken
    split at taken
    · cases taken
      have calm := calm_appendAborts w.log (fun id => id ∈ w.mine ∨ w.nextTxnId ≤ id) ids
      exact ⟨base.calm_mine calm, ok.calm calm⟩
    · cases taken
  | flush out =>
    simp only [others] at taken
    split at taken
    · rename_i ordinary
      cases taken
      exact ⟨base.calm_mine (calm_flush ordinary), ok.calm (calm_flush ordinary)⟩
    · cases taken

theorem sound_crash (base : Base w) : Sound w.crash := by
  have fresh : ∀ id, w.nextTxnId ≤ id → Untouched w.log.recover id :=
    fun id new => (base.fresh id new).recover
  refine ⟨⟨base.allocated, fresh, nofun, base.known, ?_⟩, trivial⟩
  intro answer told
  have holds := base.answers answer told
  cases unconfirmed : answer.confirms with
  | true =>
    rw [unconfirmed] at holds
    exact holds
  | false =>
    rw [unconfirmed] at holds
    exact fun id named => ⟨(holds id named).dead.recover, nofun⟩

end Steps

/-! ### The condition, and the main result -/

namespace World

/-- The connection task takes the outcome of a durable commit of the simple protocol only while
the token is not set. -/
def Unhurried (w : World) (action : Action) : Prop :=
  match action with
  | .join => w.Exposed → w.cancel = none
  | _ => True

/-- The flush of a commit that another session has made durable does not fail. -/
def FlushReturns (w : World) (action : Action) : Prop :=
  match action, w.phase with
  | .work (.flush outcome), .running run =>
    match (w.log.flush outcome).2 with
    | .error err => ambiguous err = false → ∀ id ∈ run.unit, id ∉ w.log.durable
    | .ok () => True
  | _, _ => True

/-- A transaction whose COMMIT was answered with an error is not made healthy again. -/
def StaysFailed (w : World) (action : Action) : Prop :=
  match action with
  | .transact _ (some t) => t.failed = false → ∀ id ∈ t.family, Unanswered w.answers id
  | _ => True

/-- The condition of the main result. -/
def Undisturbed (w : World) (action : Action) : Prop :=
  w.Unhurried action ∧ w.FlushReturns action ∧ w.StaysFailed action

instance (answers : List Answer) (id : TxnId) : Decidable (Unanswered answers id) :=
  inferInstanceAs (Decidable (∀ answer ∈ answers, answer.confirms = false → id ∉ answer.unit))

instance (w : World) (action : Action) : Decidable (w.Unhurried action) := by
  unfold Unhurried
  split <;> infer_instance

instance (w : World) (action : Action) : Decidable (w.FlushReturns action) := by
  unfold FlushReturns
  split
  · split <;> infer_instance
  · infer_instance

instance (w : World) (action : Action) : Decidable (w.StaysFailed action) := by
  unfold StaysFailed
  split <;> infer_instance

instance (w : World) (action : Action) : Decidable (w.Undisturbed action) :=
  inferInstanceAs (Decidable (_ ∧ _ ∧ _))

end World

theorem sound_step (w : World) (action : Action) (w' : World) (sound : Sound w)
    (ok : w.Undisturbed action) (taken : w.step action = some w') : Sound w' := by
  obtain ⟨base, phaseOk⟩ := sound
  obtain ⟨unhurried, returns, stays⟩ := ok
  unfold step at taken
  split at taken
  · exact some.inj taken ▸ sound_crash base
  · cases taken
  · exact sound_others base phaseOk taken
  · cases taken
    refine ⟨{ base with }, PhaseOk.later phaseOk fun set => ?_⟩
    obtain ⟨reason, here⟩ := isSome_iff_exists.mp set
    rw [here]
    rfl
  · exact some.inj taken ▸ ⟨{ base.noSlot with }, trivial⟩
  · exact some.inj taken ▸ ⟨base.stopAccepting, phaseOk.stopAccepting⟩
  · split at taken
    · rename_i valid
      exact some.inj taken ▸ sound_arrive base valid.2
    · cases taken
  · rename_i fresh slot phase
    refine sound_transact base phase (fun t here healthy id mem => ?_) taken
    obtain rfl : slot = some t := here
    exact stays healthy id mem
  · rename_i phase
    split at taken
    · refine some.inj taken ▸ ⟨{ base.markFailed with }, ?_⟩
      change PhaseOk _ w.phase
      rw [phase]
      trivial
    · cases taken
  · rename_i phase
    refine some.inj taken ▸ ⟨{ base with }, ?_⟩
    rw [phase]
    trivial
  · exact some.inj taken ▸ sound_close base
  · rename_i choice run phase
    rw [phase] at phaseOk
    refine sound_work base phaseOk (fun out flushes err bad => ?_) taken
    subst flushes
    unfold FlushReturns at returns
    simp only [phase, bad] at returns
    exact returns
  · rename_i run phase
    rw [phase] at phaseOk
    split at taken
    · rename_i check
      cases taken
      refine sound_setRun base ⟨phaseOk.known, fun _ => ?_, phaseOk.worker.notice _⟩
      cases set : w.cancel with
      | none =>
        rw [set] at check
        cases check
      | some reason => rfl
    · cases taken
  · rename_i run phase
    rw [phase] at phaseOk
    split at taken
    · exact some.inj taken ▸ sound_join base phaseOk phase unhurried ‹_›
    · cases taken
  · rename_i phase
    rw [phase] at phaseOk
    exact some.inj taken ▸ sound_respond base phaseOk.1 phaseOk.2
  · cases taken

/-- **Commits and their answers.** In every run whose steps are undisturbed, at every moment: a
statement that had something to commit and was answered with success is durable, and a
transaction for which an ErrorResponse was sent is not durable and not visible to anyone,
neither in this process nor after a crash. -/
theorem commit_outcome_reported {actions : List Action} {w : World}
    (run : Run World.step World.Undisturbed .init actions w) :
    (∀ answer ∈ w.answers, ∀ tag, answer.response = .commandComplete tag → answer.due = true →
      ∀ id ∈ answer.unit, id ∈ w.log.durable) ∧
    (∀ answer ∈ w.answers, ∀ err, answer.response = .errorResponse err →
      ∀ id ∈ answer.unit, id ∉ w.log.durable ∧ w.log.status id ≠ .committed) := by
  have sound := run.invariant sound_step Sound.init
  constructor
  · intro answer told tag success due
    have holds := sound.1.answers answer told
    rw [Answer.confirms, success] at holds
    rw [due] at holds
    exact holds
  · intro answer told err failure id mem
    have holds := sound.1.answers answer told
    rw [Answer.confirms, failure] at holds
    exact ⟨(holds id mem).dead.durable, (holds id mem).dead.status⟩

/-- A write in the simple protocol, then a COMMIT in the extended one whose flush fails, with a
cancel request on the way, and a crash. -/
def mixedSession : List Action :=
  [.arrive .simple .write, .work (.proceed "INSERT 0 1"), .work (.append .written),
    .work (.flush .synced), .work (.proceed ""), .join, .respond true,
    .transact 1 (some ⟨4, [], true, false⟩), .arrive .extended .commit, .work (.proceed ""),
    .work (.proceed ""), .work (.append .written), .request .userRequest,
    .work (.flush (.failed (.io "fsync") none)), .work (.proceed ""), .join, .respond true, .crash]

theorem commit_outcome_reported_mixed : ∃ w, Run World.step World.Undisturbed .init mixedSession w ∧
      w.answers = [⟨[4], true, .errorResponse (.io "fsync")⟩,
        ⟨[3], true, .commandComplete "INSERT 0 1"⟩] ∧ 3 ∈ w.log.durable ∧ 4 ∉ w.log.durable := by
  obtain ⟨w, run, answers⟩ : ∃ w, Run World.step World.Undisturbed .init mixedSession w ∧
      w.answers = [⟨[4], true, .errorResponse (.io "fsync")⟩,
        ⟨[3], true, .commandComplete "INSERT 0 1"⟩] := Run.evaluated (by decide +kernel)
  obtain ⟨confirmed, denied⟩ := commit_outcome_reported run
  rw [answers] at confirmed denied
  refine ⟨w, run, answers, ?_, ?_⟩
  · exact confirmed ⟨[3], true, .commandComplete "INSERT 0 1"⟩ (by simp) _ rfl rfl 3 (by simp)
  · exact (denied ⟨[4], true, .errorResponse (.io "fsync")⟩ (by simp) _ rfl 4 (by simp)).1

/-- The client of the world was told of an error for `id`, and `id` is durable. -/
def World.Denied (w : World) (id : TxnId) : Prop :=
  ∃ answer ∈ w.answers, (∃ err, answer.response = .errorResponse err) ∧ id ∈ answer.unit ∧
    id ∈ w.log.durable

instance (w : World) (id : TxnId) : Decidable (w.Denied id) :=
  have (r : Response) : Decidable (∃ err, r = .errorResponse err) :=
    match r with
    | .errorResponse err => isTrue ⟨err, rfl⟩
    | .commandComplete _ => isFalse nofun
  inferInstanceAs (Decidable (∃ _ ∈ _, _ ∧ _))

/-- **A durable commit is reported as an error**, for each of the three reasons: a cancel request
after the flush of a simple INSERT; a flush that is refused after another session has flushed the
record; a COMMIT that is refused for a statement timeout, and a second one after ROLLBACK TO. -/
theorem durable_commit_denied : (∃ w, Run World.step (fun _ _ => True) .init
      [.arrive .simple .write, .work (.proceed "INSERT 0 1"), .work (.append .written),
        .work (.flush .synced), .request .userRequest, .work (.proceed ""), .join,
        .respond true] w ∧ w.Denied 3) ∧ (∃ w, Run World.step (fun _ _ => True) .init
      [.arrive .extended .write, .work (.proceed "INSERT 0 1"), .work (.append .written),
        .others (.flush .synced), .others (.flush (.failed (.io "fsync") none)),
        .work (.flush .synced), .work (.proceed ""), .join, .respond true] w ∧ w.Denied 3) ∧
    ∃ w, Run World.step (fun _ _ => True) .init
      [.transact 2 (some ⟨3, [4], true, false⟩), .arrive .simple .commit,
        .request .statementTimeout, .work (.proceed ""), .join, .respond true,
        .transact 1 (some ⟨3, [5], true, false⟩), .arrive .simple .commit, .work (.proceed ""),
        .work (.proceed ""), .work (.append .written), .work (.flush .synced)] w ∧ w.Denied 3 := by
  refine ⟨?_, ?_, ?_⟩ <;> exact Run.evaluated (by decide +kernel)

end Saguaro.Session
