/-
What a session keeps while it commits.

`Doomed` is what an error may be reported for: the transaction is not committed, no
flush can commit it any more, and if it is still the session's open transaction, it is
failed, or the server takes no more statements. `Base` relates the log, the open
transaction and the answers so far, `RunOk` the statement that is running. A step on the
log that leaves an id alone (`Calm`) keeps all of it, so that only the worker's own append
has to be looked at more closely.
-/

import Saguaro.Session.World

namespace Saguaro.Session

open Transition List CommitLog

/-! ### Records on their way to the disk -/

/-- The commit record of `id` is pending, unless the manager has given up on it. -/
structure Waiting (log : CommitLog) (id : TxnId) : Prop where
  pending : log.poisoned = none → id ∈ log.pending
  durable : id ∉ log.durable
  status : log.status id ≠ .committed

/-- One record commits `unit`, so that it is durable as a whole or not at all. -/
def Queued (log : CommitLog) (unit : List TxnId) : Prop :=
  (∀ id ∈ unit, id ∈ log.durable) ∨ ∀ id ∈ unit, Waiting log id

/-- What a step on the log does to the ids in `who`, none of which it commits. -/
structure Calm (log log' : CommitLog) (who : TxnId → Prop) : Prop where
  spared : ∀ id, who id → Spared log log' id
  grows : log.durable ⊆ log'.durable
  queued : ∀ unit, (∀ id ∈ unit, who id) → Queued log unit → Queued log' unit

section Calm

variable {log : CommitLog} {who : TxnId → Prop}

theorem Calm.refl : Calm log log who :=
  ⟨fun _ _ => ⟨fun h => h, fun h => h, .inl, .inl⟩, fun _ h => h, fun _ _ h => h⟩

theorem calm_appendCommit (log : CommitLog) {ids : List TxnId} (out : AppendOutcome)
    (apart : ∀ id ∈ ids, ¬who id) : Calm log (log.appendCommit ids out).1 who := by
  have same {id : TxnId} (comm : (log.setStatus (ids.take 1) .inProgress).status id = .committed) :=
    of_status_setStatus _ .inProgress nofun comm
  obtain ⟨_, rfl, cases⟩ := appendCommit_cases log ids out
  refine ⟨fun id known => ?_, ?_, ?_⟩
  · exact appendCommit_spared out fun mem => apart id mem known
  · rcases cases with ⟨err, eq⟩ | ⟨err, -, eq⟩ | ⟨-, eq⟩ <;>
      rw [eq] <;> exact fun _ h => h
  intro unit known queued
  rcases cases with ⟨err, eq⟩ | ⟨err, fine, eq⟩ | ⟨fine, eq⟩ <;> rw [eq] <;>
    refine queued.imp_right fun waits id mem => ?_ <;> obtain ⟨due, dur, stat⟩ := waits id mem
  · exact ⟨due, dur, fun comm => stat (same comm)⟩
  · exact ⟨nofun, dur, fun comm => stat (same comm)⟩
  · exact ⟨fun _ => mem_append_left _ (due fine), dur, fun comm => stat (same comm)⟩

theorem calm_appendAborts (log : CommitLog) (who : TxnId → Prop) (ids : List TxnId) :
    Calm log (log.appendAborts ids).1 who where
  spared _ _ := appendAborts_spared
  grows _ h := h
  queued _ _ queued := queued.imp_right fun waiting id mem =>
    ⟨(waiting id mem).pending, (waiting id mem).durable, fun committed => (waiting id mem).status
      (of_status_setStatus ids .aborted nofun committed)⟩

/-- After a flush a record is durable, or the manager is poisoned. -/
theorem calm_flush {out : FlushOutcome} (ordinary : out.Ordinary) :
    Calm log (log.flush out).1 who := by
  refine ⟨fun _ _ => flush_spared out ordinary, ?_, ?_⟩
  · rcases flush_cases log out ordinary with
      ⟨err, -, eq⟩ | ⟨-, eq⟩ | ⟨poison, err, due, -, -, -, eq⟩ | ⟨err, dur, -, -, grown, eq⟩
    · rw [eq]
      exact fun _ h => h
    · rw [eq]
      exact fun _ h => mem_append_left _ h
    · rw [eq]
      exact fun _ h => h
    rw [eq]
    rcases grown with rfl | rfl
    · exact fun _ h => h
    · exact fun _ h => mem_append_left _ h
  intro unit _ queued
  rcases flush_cases log out ordinary with
    ⟨err, -, eq⟩ | ⟨fine, eq⟩ | ⟨poison, err, due, -, -, -, eq⟩ |
    ⟨err, dur, fine, -, grown, eq⟩
  · rwa [eq]
  · rw [eq]
    refine .inl fun id mem => mem_append.mpr ?_
    exact queued.imp (· id mem) fun waits => (waits id mem).pending fine
  · rw [eq]
    exact queued.imp_right fun waits id mem =>
      ⟨nofun, (waits id mem).durable, (waits id mem).status⟩
  rw [eq]
  rcases grown with rfl | rfl
  · exact queued.imp_right fun waits id mem =>
      ⟨nofun, (waits id mem).durable, (waits id mem).status⟩
  · refine .inl fun id mem => mem_append.mpr ?_
    exact queued.imp (· id mem) fun waits => (waits id mem).pending fine

end Calm

/-! ### The invariant -/

/-- An error may be reported for the transaction of `id`. -/
structure Doomed (log : CommitLog) (slot : Option Transaction) (accepting : Bool) (id : TxnId) :
    Prop where
  dead : Dead log id
  failed : accepting = true → ∀ t ∈ slot, id ∈ t.family → t.failed = true

/-- The answer confirms a commit. -/
def Answer.confirms (answer : Answer) : Bool :=
  match answer.response with
  | .commandComplete _ => answer.due
  | .errorResponse _ => false

/-- A confirmed commit is durable; any other answer is for a transaction that never is. -/
def Holds (log : CommitLog) (slot : Option Transaction) (accepting : Bool) (unit : List TxnId) :
    Bool → Prop
  | true => ∀ id ∈ unit, id ∈ log.durable
  | false => ∀ id ∈ unit, Doomed log slot accepting id

/-- Nobody was told that the transaction of `id` is not committed. -/
def Unanswered (answers : List Answer) (id : TxnId) : Prop :=
  ∀ answer ∈ answers, answer.confirms = false → id ∉ answer.unit

structure Base (w : World) : Prop where
  allocated : ∀ id ∈ w.mine, id < w.nextTxnId
  fresh : ∀ id, w.nextTxnId ≤ id → Untouched w.log id
  slot : ∀ t ∈ w.slot, ∀ id ∈ t.family, id ∈ w.mine ∧ Untouched w.log id
  known : ∀ answer ∈ w.answers, ∀ id ∈ answer.unit, id ∈ w.mine
  answers : ∀ answer ∈ w.answers, Holds w.log w.slot w.accepting answer.unit answer.confirms

/-- The transaction is out of the slot, and its commit is not decided yet. -/
structure Undecided (slot : Option Transaction) (answers : List Answer) (run : Running) : Prop where
  due : run.due = true
  slot : slot = none
  had : run.statement = .commit → run.hadTxn = true
  unanswered : ∀ id ∈ run.unit, Unanswered answers id

def WorkerOk (w : World) (run : Running) : Prop :=
  match run.worker with
  | .executing => run.unit = [] ∧ run.due = false ∧ run.statement ≠ .commit ∧ w.slot = none
  | .controlling => run.unit = w.slotIds ∧ run.due = false ∧ run.statement = .commit ∧
      run.hadTxn = w.slot.isSome ∧
      ∀ t ∈ w.slot, t.failed = false → ∀ id ∈ t.family, Unanswered w.answers id
  | .checking _ | .committing _ =>
    Undecided w.slot w.answers run ∧ ∀ id ∈ run.unit, Untouched w.log id
  | .flushing _ => Undecided w.slot w.answers run ∧ Queued w.log run.unit
  | .finishing _ => Undecided w.slot w.answers run ∧ ∀ id ∈ run.unit, id ∈ w.log.durable
  | .rollingBack _ => Holds w.log w.slot w.accepting run.unit false
  | .returned (.error _) => Holds w.log w.slot w.accepting run.unit false
  | .returned (.ok outcome) => Holds w.log w.slot w.accepting run.unit run.due ∧
      (run.due = true → run.statement = .commit → run.hadTxn = true) ∧
      ∃ tag, outcome = classify run.protocol run.hadTxn tag run.statement

structure RunOk (w : World) (run : Running) : Prop where
  known : ∀ id ∈ run.unit, id ∈ w.mine
  noticed : run.streamCancel.isSome → w.cancel.isSome
  worker : WorkerOk w run

def PhaseOk (w : World) : Phase → Prop
  | .running run => RunOk w run
  | .responding _ unit due outcome => (∀ id ∈ unit, id ∈ w.mine) ∧
      Holds w.log w.slot w.accepting unit (outcome.isOk && due)
  | _ => True

/-- The commit of a statement is durable, and the connection task could still turn its
outcome into an error. -/
def World.Exposed (w : World) : Prop :=
  match w.phase with
  | .running run => run.protocol = .simple ∧ run.statement ≠ .maintenance ∧
      ∃ id ∈ run.unit, id ∈ w.log.durable
  | _ => False

instance (w : World) : Decidable w.Exposed := by
  unfold World.Exposed
  generalize w.phase = phase
  exact match phase with
    | .running _ => inferInstanceAs (Decidable (_ ∧ _ ∧ _))
    | .idle | .responding .. | .closed | .exited => inferInstanceAs (Decidable False)

/-- What holds of the session at every moment. -/
def Sound (w : World) : Prop := Base w ∧ PhaseOk w w.phase

theorem Sound.init : Sound .init :=
  ⟨⟨nofun, fun _ _ => ⟨nofun, nofun, nofun⟩, nofun, nofun, nofun⟩, trivial⟩

/-! ### Steps on the log and on the slot -/

section Frame

variable {w : World} {log log' : CommitLog} {slot slot' : Option Transaction} {unit : List TxnId}
  {accepting confirmed : Bool} {who : TxnId → Prop}

section

variable (holds : Holds log slot accepting unit confirmed)

include holds

theorem Holds.calm (calm : Calm log log' who) (cov : confirmed = false → ∀ id ∈ unit, who id) :
    Holds log' slot accepting unit confirmed := by
  cases confirmed with
  | true => exact fun id mem => calm.grows (holds id mem)
  | false =>
    intro id mem
    obtain ⟨dead, bad⟩ := holds id mem
    exact ⟨dead.spared (calm.spared id (cov rfl id mem)), bad⟩

/-- The slot may change to one that holds no healthy transaction. -/
theorem Holds.setSlot
    (bad : ∀ t ∈ slot', t.failed = true) : Holds log slot' accepting unit confirmed := by
  cases confirmed with
  | true => exact holds
  | false => exact fun id mem => ⟨(holds id mem).dead, fun _ t here _ => bad t here⟩

theorem Holds.stopAccepting : Holds log slot false unit confirmed := by
  cases confirmed with
  | true => exact holds
  | false => exact fun id mem => ⟨(holds id mem).dead, nofun⟩

end

theorem Holds.of_untouched (fresh : ∀ id ∈ unit, Untouched log id)
    (bad : ∀ t ∈ slot, t.failed = true) : Holds log slot accepting unit false :=
  fun id mem => ⟨(fresh id mem).dead, fun _ t here _ => bad t here⟩

theorem failed_of_none : ∀ t ∈ (none : Option Transaction), t.failed = true := nofun

theorem failed_of_markFailed : ∀ t ∈ slot.map Transaction.markFailed, t.failed = true := by
  intro t mem
  obtain ⟨t, -, rfl⟩ := Option.map_eq_some_iff.mp mem
  rfl

section

variable (base : Base w)

include base

theorem Base.calm (calm : Calm w.log log' who)
    (fresh : ∀ id, w.nextTxnId ≤ id → who id) (slot : ∀ t ∈ w.slot, ∀ id ∈ t.family, who id)
    (answers : ∀ id, ¬Unanswered w.answers id → who id) : Base { w with log := log' } where
  allocated := base.allocated
  fresh id new := (base.fresh id new).spared (calm.spared id (fresh id new))
  slot t here id mem :=
    (base.slot t here id mem).imp_right (·.spared (calm.spared id (slot t here id mem)))
  known := base.known
  answers answer mem := (base.answers answer mem).calm calm fun unconfirmed id named =>
    answers id fun un => un answer mem unconfirmed named

theorem mem_mine_of_answered {id : TxnId} (answered : ¬Unanswered w.answers id) : id ∈ w.mine := by
  simp only [Unanswered, not_forall, not_not] at answered
  obtain ⟨answer, mem, -, named⟩ := answered
  exact base.known answer mem id named

/-- A step on the log that leaves this client's ids and the new ones alone. -/
theorem Base.calm_mine (calm : Calm w.log log' fun id => id ∈ w.mine ∨ w.nextTxnId ≤ id) :
    Base { w with log := log' } :=
  base.calm calm (fun _ new => .inr new) (fun t here id mem => .inl (base.slot t here id mem).1)
    fun _ answered => .inl (mem_mine_of_answered base answered)

theorem Base.setSlot (failed : ∀ t ∈ slot', t.failed = true)
    (kept : ∀ t' ∈ slot', ∃ t ∈ w.slot, t'.family = t.family) : Base { w with slot := slot' } where
  allocated := base.allocated
  fresh := base.fresh
  slot t' here id mem := by
    obtain ⟨t, inside, same⟩ := kept t' here
    exact base.slot t inside id (same ▸ mem)
  known := base.known
  answers answer mem := (base.answers answer mem).setSlot failed

theorem Base.noSlot : Base { w with slot := none } := base.setSlot nofun nofun

theorem Base.markFailed : Base w.markFailed := by
  refine base.setSlot failed_of_markFailed fun t' here => ?_
  obtain ⟨t, inside, rfl⟩ := Option.map_eq_some_iff.mp here
  exact ⟨t, inside, rfl⟩

theorem Base.answer (answer : Answer) (known : ∀ id ∈ answer.unit, id ∈ w.mine)
    (holds : Holds w.log w.slot w.accepting answer.unit answer.confirms) :
    Base (w.answer answer) where
  allocated := base.allocated
  fresh := base.fresh
  slot := base.slot
  known := forall_mem_cons.mpr ⟨known, base.known⟩
  answers := forall_mem_cons.mpr ⟨holds, base.answers⟩

theorem Base.allocate (count : Nat) : Base (w.allocate count) where
  allocated := by
    intro id mem
    rcases mem_append.mp mem with new | old
    · exact (mem_range'_1.mp new).2
    · exact lt_of_lt_of_le (base.allocated id old) (Nat.le_add_right _ _)
  fresh id le := base.fresh id (le_trans (Nat.le_add_right _ _) le)
  slot t here id mem := (base.slot t here id mem).imp_left (mem_append_right _)
  known answer mem id named := mem_append_right _ (base.known answer mem id named)
  answers := base.answers

end

theorem abortTransaction_eq (w : World) (t : Transaction) (who : TxnId → Prop) :
    ∃ log' fatal, w.abortTransaction t = ({ w with log := log' }, fatal) ∧ Calm w.log log' who := by
  unfold World.abortTransaction
  split
  · exact ⟨_, _, rfl, calm_appendAborts w.log who t.family⟩
  · exact ⟨w.log, _, rfl, Calm.refl⟩

/-- The session ends: its transaction is aborted and gone. -/
theorem close_eq (w : World) (who : TxnId → Prop) :
    ∃ log' phase, w.close = { w with log := log', slot := none, phase } ∧ Calm w.log log' who ∧
      (phase = .closed ∨ phase = .exited) := by
  unfold World.close
  split
  · rename_i none
    refine ⟨w.log, .closed, ?_, Calm.refl, .inl rfl⟩
    rw [← none]
  rename_i t here
  obtain ⟨log', fatal, eq, calm⟩ := abortTransaction_eq w t who
  rw [eq]
  cases fatal with
  | false => exact ⟨log', .closed, rfl, calm, .inl rfl⟩
  | true => exact ⟨log', .exited, rfl, calm, .inr rfl⟩

/-- What others do to the log changes nothing for the statement that is running. -/
theorem WorkerOk.calm {run : Running} (ok : WorkerOk w run) (known : ∀ id ∈ run.unit, id ∈ w.mine)
    (calm : Calm w.log log' fun id => id ∈ w.mine ∨ w.nextTxnId ≤ id) :
    WorkerOk { w with log := log' } run := by
  have cov : ∀ id ∈ run.unit, id ∈ w.mine ∨ w.nextTxnId ≤ id := fun id mem => .inl (known id mem)
  unfold WorkerOk at ok ⊢
  split at ok
  · exact ok
  · exact ok
  · exact ⟨ok.1, fun id mem => (ok.2 id mem).spared (calm.spared id (cov id mem))⟩
  · exact ⟨ok.1, fun id mem => (ok.2 id mem).spared (calm.spared id (cov id mem))⟩
  · exact ⟨ok.1, calm.queued _ cov ok.2⟩
  · exact ⟨ok.1, fun id mem => calm.grows (ok.2 id mem)⟩
  · exact Holds.calm ok calm fun _ => cov
  · exact Holds.calm ok calm fun _ => cov
  · exact ⟨ok.1.calm calm fun _ => cov, ok.2⟩

variable {phase : Phase}

theorem PhaseOk.calm (ok : PhaseOk w phase)
    (calm : Calm w.log log' fun id => id ∈ w.mine ∨ w.nextTxnId ≤ id) :
    PhaseOk { w with log := log' } phase := by
  cases phase with
  | running run => exact ⟨ok.known, ok.noticed, ok.worker.calm ok.known calm⟩
  | responding => exact ⟨ok.1, ok.2.calm calm fun _ id mem => .inl (ok.1 id mem)⟩
  | idle => trivial
  | closed => trivial
  | exited => trivial

/-- The token may be set, and ids be given to others. -/
theorem PhaseOk.later {cancel : Option CancelReason} {next : TxnId}
    (ok : PhaseOk w phase) (set : w.cancel.isSome → cancel.isSome) :
    PhaseOk { w with cancel, nextTxnId := next } phase := by
  cases phase with
  | running run => exact ⟨ok.known, fun seen => set (ok.noticed seen), ok.worker⟩
  | responding => exact ok
  | idle => trivial
  | closed => trivial
  | exited => trivial

theorem Base.stopAccepting (base : Base w) : Base { w with accepting := false } :=
  { base with answers := fun answer told => (base.answers answer told).stopAccepting }

theorem PhaseOk.stopAccepting (ok : PhaseOk w phase) :
    PhaseOk { w with accepting := false } phase := by
  cases phase with
  | running run =>
    refine ⟨ok.known, ok.noticed, ?_⟩
    have worker := ok.worker
    unfold WorkerOk at worker ⊢
    split at worker
    · exact worker
    · exact worker
    · exact worker
    · exact worker
    · exact worker
    · exact worker
    · exact Holds.stopAccepting worker
    · exact Holds.stopAccepting worker
    · exact ⟨worker.1.stopAccepting, worker.2⟩
  | responding => exact ⟨ok.1, ok.2.stopAccepting⟩
  | idle => trivial
  | closed => trivial
  | exited => trivial

end Frame

end Saguaro.Session
