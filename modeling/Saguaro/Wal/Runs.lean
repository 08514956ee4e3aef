/-
Runs of the WAL manager: appends, flushes, checkpoints, recycling, crashes.

A `World` is the directory, the state of the process if one is running, how far its
checkpoint runner got, and, only for stating what should hold, the log of the
records that were appended and not lost. Every action but a kill takes a list of
faults, so an append, a flush, the replacement of the snapshot file or an opening can
fail or stop anywhere. A reopening starts from any directory that a crash leaves.
-/

import Saguaro.Wal.Manager

namespace Saguaro.Wal

open Crash FileWal Transition Option

/-- How far the checkpoint runner got. It is the only caller of these sections, one
checkpoint at a time. -/
inductive Phase where
  | idle
  | captured (snapshot : ClogSnapshot)
  | written (snapshot : ClogSnapshot)
  | ready (floor : Nat)
  deriving DecidableEq

structure World (χ : Type) where
  disk : Disk
  live : Option WalState
  phase : Phase
  log : List (Logged χ)
  /-- The position that the last successful flush reported. -/
  acked : Nat

inductive Action (χ : Type) where
  | append (record : WalRecord χ) (faults : List Fault)
  | flush (faults : List Fault)
  | capture (proposed : Nat) (active : List TxnId) (boundary : TxnId)
  | writeClog (faults : List Fault)
  | adopt
  | storeControl
  | recycle (faults : List Fault)
  | setVacuumFloor (boundary : TxnId)
  | recover (boundary : TxnId) (faults : List Fault)
  | kill
  | reopen (disk : Disk) (faults : List Fault)

variable {χ α : Type}

namespace World

/-- An empty directory, and no process. -/
def init : World χ := ⟨.empty, none, .idle, [], 0⟩

def up (w : World χ) (wal : FileWal) : World χ := { w with disk := wal.disk, live := some wal.state }

def down (w : World χ) (disk : Disk) : World χ := { w with disk, live := none, phase := .idle }

def inPhase (w : World χ) (phase : Phase) : World χ := { w with phase }

/-- Run a section of the manager; a stop ends the process. -/
def run (w : World χ) (st : WalState) (c : Prog DbError FileWal α) (faults : List Fault)
    (ok : α → World χ → World χ) (error : World χ → World χ) : World χ :=
  match c ⟨⟨w.disk, st⟩, faults⟩ with
  | (.ok a, m) => ok a (w.up m.state)
  | (.error _, m) => error (w.up m.state)
  | (.stopped, m) => w.down m.state.disk

variable (params : Params χ)

/-- What recovery does with the statuses, once it knows the next id. -/
def recoverStatuses (boundary : TxnId) : Prog DbError FileWal Unit := do
  establishRecoveryCommittedFloor params boundary
  resolveAllInFlightAsAborted

/-- The record that an append to `position` wrote joins the log. -/
def logged (record : WalRecord χ) (position : WalPosition) (w : World χ) : World χ :=
  match encodeRecordAt params.serde record position.replayFrom with
  | .ok (stored, frame) => { w with log := w.log ++ [⟨stored, frame⟩] }
  | .error _ => w

/-- What an opening makes of the world: the log is what it found. -/
def opened (w : World χ) (result : Outcome DbError WalState × Machine Disk) : World χ :=
  match result with
  | (.ok st, m) => ⟨m.state, some st, .idle, retained w.log st.flushedLsn, w.acked⟩
  | (_, m) => { w with disk := m.state }

/-- One action; none where it is not enabled. A recycling that reports an error is
followed only to the restart: a retry could find a segment file that was neither
completed nor removed. -/
def step (w : World χ) (action : Action χ) : Option (World χ) :=
  match w.live, action with
  | none, .reopen disk faults => some (w.opened (openWal params ⟨disk, faults⟩))
  | none, _ => none
  | some st, .append record faults =>
    some (w.run st (appendPositioned params record) faults (logged params record) id)
  | some st, .flush faults =>
    some (w.run st (FileWal.flush params) faults (fun lsn w => { w with acked := lsn }) id)
  | some st, .capture proposed active boundary =>
    match w.phase with
    | .idle | .ready _ => some (w.run st (captureClog proposed active boundary) []
        (fun snapshot w => w.inPhase (.captured snapshot)) (·.inPhase .idle))
    | _ => none
  | some st, .writeClog faults =>
    match w.phase with
    | .captured snapshot => some (w.run st (onDisk (writeClogFile params snapshot)) faults
        (fun _ w => w.inPhase (.written snapshot)) (·.inPhase .idle))
    | _ => none
  | some st, .adopt =>
    match w.phase with
    | .written snapshot => some (w.run st (adoptSnapshot snapshot) []
        (fun _ w => w.inPhase (.ready snapshot.authorizedReplayFloor)) (·.inPhase .idle))
    | _ => none
  | some st, .storeControl =>
    match w.phase with
    | .ready _ => some (w.up ⟨{ w.disk with manifest := true }, st⟩)
    | _ => none
  | some st, .recycle faults =>
    match w.phase with
    | .ready floor => some (w.run st (recycleThrough params floor) faults
        (fun _ w => w.inPhase .idle) fun w => w.down w.disk)
    | _ => none
  | some st, .setVacuumFloor boundary =>
    some (w.run st (FileWal.setVacuumFloor boundary) [] (fun _ w => w) id)
  | some st, .recover boundary faults =>
    some (w.run st (recoverStatuses params boundary) faults (fun _ w => w) id)
  | some _, .kill => some (w.down w.disk)
  | some _, .reopen .. => none

/-- What the callers and the file system promise: a record can be read back from its JSON, a
checkpoint proposes the start of a record as its floor, and a reopening finds what a crash
leaves. -/
def ok (w : World χ) : Action χ → Prop
  | .append record _ => params.serde.Exact record.kind
  | .capture proposed _ _ => Boundary w.log proposed
  | .reopen disk _ => Survives params.geometry w.disk disk
  | _ => True

/-! ### The invariant -/

/-- What the checkpoint runner can rely on between its sections. -/
def PhaseOk (floor flushed : Nat) (snapshot : Option ClogSnapshot) (log : List (Logged χ)) :
    Phase → Prop
  | .idle => True
  | .captured snap => snap.Canonical ∧ Covers ⟨floor, flushed⟩ log (some snap)
  | .written snap => snapshot = some snap
  | .ready lsn => ∃ snap, snapshot = some snap ∧ snap.authorizedReplayFloor = lsn

/-- The world while a process is up: its manager is live, or it is poisoned and the
directory can still be opened with all that was flushed. -/
structure Serving (w : World χ) (st : WalState) (floor flushed : Nat)
    (snapshot : Option ClogSnapshot) : Prop where
  running : Running params w.disk floor flushed snapshot w.log
  acked : w.acked ≤ flushed
  phase : PhaseOk floor flushed snapshot w.log w.phase
  live : st.poisoned = none →
    Live params ⟨w.disk, st⟩ snapshot w.log ∧ st.replayFloor = floor ∧ st.flushedLsn = flushed

/-- **The invariant of every run.** -/
def Inv (w : World χ) : Prop :=
  match w.live with
  | none => ∃ snapshot, Opens params w.disk snapshot w.log w.acked
  | some st => ∃ floor flushed snapshot, Serving params w st floor flushed snapshot

variable {params} {w w' : World χ} {st : WalState} {floor flushed : Nat}
  {snapshot : Option ClogSnapshot} {log : List (Logged χ)} {faults : List Fault}

theorem PhaseOk.mono {flushed' : Nat} {phase : Phase}
    (ok : PhaseOk floor flushed snapshot log phase) (le : flushed ≤ flushed')
    (more : List (Logged χ)) : PhaseOk floor flushed' snapshot (log ++ more) phase := by
  cases phase with
  | idle => trivial
  | captured snap => exact ⟨ok.1, ok.2.mono ⟨floor, flushed'⟩ rfl le more⟩
  | written snap => exact ok
  | ready lsn => exact ok

theorem Serving.inv (up : w.live = some st) (serving : Serving params w st floor flushed snapshot) :
    Inv params w := by
  unfold Inv
  rw [up]
  exact ⟨floor, flushed, snapshot, serving⟩

theorem Opens.inv {acked : Nat} (opens : Opens params w.disk snapshot w.log acked)
    (le : w.acked ≤ acked) (down : w.live = none) : Inv params w := by
  unfold Inv
  rw [down]
  refine ⟨snapshot, opens.imp ?_ fun ⟨found, kept, le'⟩ => ⟨found, kept, le.trans le'⟩⟩
  rintro ⟨fresh, gone, framed, rfl⟩
  exact ⟨fresh, gone, framed, Nat.le_zero.mp le⟩

/-- What holds after a section is what its rule says. -/
theorem run_of_wp {P : World χ → Prop} {c : Prog DbError FileWal α} {ok : α → World χ → World χ}
    {error : World χ → World χ}
    (spec : WP True (fun wal => P (w.down wal.disk)) c (fun a wal => P (ok a (w.up wal)))
      (fun wal => P (error (w.up wal))) ⟨w.disk, st⟩) : P (w.run st c faults ok error) := by
  unfold World.run
  obtain ⟨a, m, ran, post⟩ | ⟨e, m, ran, post⟩ | ⟨m, ran, post⟩ := spec.run faults <;>
    rw [ran] <;> exact post

/-! ### Every action keeps the invariant -/

section Steps

variable (serving : Serving params w st floor flushed snapshot)

include serving

/-- A poisoned manager stays one, whatever its fields become. -/
theorem Serving.poisoned {st' : WalState} (bad : st'.poisoned ≠ none) :
    Inv params (w.up ⟨w.disk, st'⟩) := by
  have after : Serving params (w.up ⟨w.disk, st'⟩) st' floor flushed snapshot :=
    ⟨serving.running, serving.acked, serving.phase, fun avail => absurd avail bad⟩
  exact Serving.inv rfl after

/-- A process that ends leaves a directory that can be opened. -/
theorem Serving.stopped {t : Disk} (runs : Running params t floor flushed snapshot w.log) :
    Inv params (w.down t) := Opens.inv (runs.opens le_rfl) serving.acked rfl

theorem inv_append {record : WalRecord χ} (exact_ : params.serde.Exact record.kind) :
    Inv params (w.run st (appendPositioned params record) faults (logged params record) id) := by
  apply run_of_wp
  by_cases avail : st.poisoned = none
  · obtain ⟨live, rfl, rfl⟩ := serving.live avail
    apply wp_appendPositioned exact_ live
    · intro d' a kept frame first enc st' live'
      unfold logged
      rw [enc]
      exact Serving.inv rfl ⟨live'.running (.refl live'.sized), serving.acked,
        serving.phase.mono le_rfl _, fun _ => ⟨live', rfl, rfl⟩⟩
    · intro wal clog _ bad
      refine Serving.inv rfl ⟨bad.1, serving.acked, serving.phase, fun avail => ?_⟩
      obtain ⟨live', floor, flushed, -⟩ := bad.2.2 avail
      exact ⟨live', floor, flushed⟩
    · exact fun _ wal runs => serving.stopped runs
  · exact wp_appendPositioned_poisoned record avail fun clog _ => serving.poisoned avail

theorem inv_flush :
    Inv params (w.run st (FileWal.flush params) faults (fun lsn w => { w with acked := lsn }) id) := by
  apply run_of_wp
  by_cases avail : st.poisoned = none
  · obtain ⟨live, rfl, rfl⟩ := serving.live avail
    apply wp_flush live
    · intro t live'
      have phase := serving.phase.mono live.flushed_le []
      rw [List.append_nil] at phase
      exact Serving.inv rfl ⟨live'.running (.refl live'.sized), le_rfl, phase,
        fun _ => ⟨live', rfl, rfl⟩⟩
    · intro t st' runs bad _
      exact Serving.inv rfl ⟨runs, serving.acked, serving.phase, fun avail => absurd avail bad⟩
    · exact fun _ t st' runs => serving.stopped runs
  · exact wp_flush_poisoned avail (serving.poisoned avail)

theorem inv_capture {proposed : Nat} (act : List TxnId) (bound : TxnId)
    (at_ : Boundary w.log proposed) : Inv params (w.run st (captureClog proposed act bound) faults
      (fun snapshot w => w.inPhase (.captured snapshot)) (·.inPhase .idle)) := by
  apply run_of_wp
  by_cases avail : st.poisoned = none
  · obtain ⟨live, rfl, rfl⟩ := serving.live avail
    apply wp_captureClog live
    · intro l h
      have canon := st.clog.liveSnapshot_canonical st.vacuumFloor act bound h
      exact Serving.inv rfl ⟨serving.running, serving.acked,
        ⟨canon, l, h, le_rfl, at_, live.durableEnd⟩, serving.live⟩
    · exact Serving.inv rfl ⟨serving.running, serving.acked, trivial, serving.live⟩
  · apply WP.bind
    apply wp_lockState_poisoned avail
    exact Serving.inv rfl ⟨serving.running, serving.acked, trivial, serving.live⟩

theorem inv_writeClog {snap : ClogSnapshot} (phase : w.phase = .captured snap) :
    Inv params (w.run st (onDisk (writeClogFile params snap)) faults
      (fun _ w => w.inPhase (.written snap)) (·.inPhase .idle)) := by
  apply run_of_wp
  have cap := serving.phase
  rw [phase] at cap
  obtain ⟨canon, covers⟩ := cap
  obtain ⟨durableEnd, le, kept, anchored⟩ := serving.running
  have covers' : Covers ⟨floor, durableEnd⟩ w.log (some snap) := by
    simpa using covers.mono ⟨floor, durableEnd⟩ rfl le []
  apply wp_walOnDisk
  apply wp_writeClogFile canon
  · exact ⟨Serving.inv rfl ⟨serving.running, serving.acked, trivial, serving.live⟩,
      serving.stopped serving.running⟩
  intro bytes repl
  have runs : Running params { w.disk with clog := some bytes } floor flushed (some snap) w.log :=
    ⟨durableEnd, le, kept.replace anchored repl covers', anchored⟩
  have live (avail : st.poisoned = none) :
      Live params ⟨{ w.disk with clog := some bytes }, st⟩ (some snap) w.log ∧
        st.replayFloor = floor ∧ st.flushedLsn = flushed := by
    obtain ⟨live, rfl, rfl⟩ := serving.live avail
    exact ⟨live.replace repl covers, rfl, rfl⟩
  refine ⟨?_, ?_, ?_⟩
  · exact Serving.inv rfl ⟨runs, serving.acked, rfl, live⟩
  · exact Serving.inv rfl ⟨runs, serving.acked, trivial, live⟩
  · exact Opens.inv (runs.opens le_rfl) serving.acked rfl

/-- A section that only changes what the manager knows of transactions. -/
theorem Serving.statuses {st' : WalState}
    (same : st.poisoned = none → Live params ⟨w.disk, st⟩ snapshot w.log →
      Live params ⟨w.disk, st'⟩ snapshot w.log ∧ st'.replayFloor = st.replayFloor ∧
        st'.flushedLsn = st.flushedLsn)
    (avail : st.poisoned = none) : Inv params (w.up ⟨w.disk, st'⟩) := by
  obtain ⟨live, rfl, rfl⟩ := serving.live avail
  have after : Serving params (w.up ⟨w.disk, st'⟩) st' st.replayFloor st.flushedLsn snapshot :=
    ⟨serving.running, serving.acked, serving.phase, fun _ => same avail live⟩
  exact Serving.inv rfl after

theorem inv_adopt {snap : ClogSnapshot} (phase : w.phase = .written snap) :
    Inv params (w.run st (adoptSnapshot snap) faults
      (fun _ w => w.inPhase (.ready snap.authorizedReplayFloor)) (·.inPhase .idle)) := by
  apply run_of_wp
  apply WP.bind
  by_cases avail : st.poisoned = none
  · obtain ⟨live, rfl, rfl⟩ := serving.live avail
    refine wp_lockState avail ?_
    apply wp_update
    have wrote := serving.phase
    rw [phase] at wrote
    exact Serving.inv rfl ⟨serving.running, serving.acked, ⟨snap, wrote, rfl⟩,
      fun _ => ⟨{ live with }, rfl, rfl⟩⟩
  · apply wp_lockState_poisoned avail
    exact Serving.inv rfl ⟨serving.running, serving.acked, trivial, serving.live⟩

theorem inv_storeControl : Inv params (w.up ⟨{ w.disk with manifest := true }, st⟩) := by
  obtain ⟨durableEnd, le, stored, anchored⟩ := serving.running
  have stores {found : WalMeta} (stored : Stored params w.disk found snapshot w.log)
      (anchored : Anchored params.geometry w.disk found.replayFloor) :
      Stored params { w.disk with manifest := true } found snapshot w.log :=
    { stored with recorded := { stored.recorded with anchored := .inl anchored } }
  refine Serving.inv rfl ⟨⟨durableEnd, le, stores stored anchored, anchored⟩, serving.acked,
    serving.phase, fun available => ?_⟩
  obtain ⟨live, floor_eq, flushed_eq⟩ := serving.live available
  refine ⟨{ stores live.toStored live.anchored, live.toStreamed with
    shape := ⟨live.shape.active, live.shape.last⟩
    available }, floor_eq, flushed_eq⟩

theorem inv_recycle {lsn : Nat} (phase : w.phase = .ready lsn) :
    Inv params (w.run st (recycleThrough params lsn) faults (fun _ w => w.inPhase .idle)
      fun w => w.down w.disk) := by
  apply run_of_wp
  have ready := serving.phase
  rw [phase] at ready
  obtain ⟨snap, rfl, at_⟩ := ready
  by_cases avail : st.poisoned = none
  · obtain ⟨live, rfl, rfl⟩ := serving.live avail
    apply wp_recycleThrough live at_
    · intro t a live'
      exact Serving.inv rfl ⟨live'.running (.refl live'.sized), serving.acked, trivial,
        fun _ => ⟨live', rfl, rfl⟩⟩
    · exact fun t st' opens => Opens.inv opens serving.acked rfl
    · exact fun _ t st' opens => Opens.inv opens serving.acked rfl
  · apply WP.bind
    apply wp_lockState_poisoned avail
    exact serving.stopped serving.running

theorem inv_setVacuumFloor (bound : TxnId) :
    Inv params (w.run st (FileWal.setVacuumFloor bound) faults (fun _ w => w) id) := by
  apply run_of_wp
  apply WP.bind
  by_cases avail : st.poisoned = none
  · refine wp_lockState avail ?_
    apply wp_update
    exact serving.statuses (fun _ live => ⟨{ live with }, rfl, rfl⟩) avail
  · exact wp_lockState_poisoned avail (serving.poisoned avail)

theorem inv_recover (bound : TxnId) :
    Inv params (w.run st (recoverStatuses params bound) faults (fun _ w => w) id) := by
  apply run_of_wp
  apply WP.bind
  by_cases avail : st.poisoned = none
  · obtain ⟨live, rfl, rfl⟩ := serving.live avail
    have resolve (clog : Clog) : WP True (fun wal => Inv params (w.down wal.disk))
        resolveAllInFlightAsAborted (fun _ wal => Inv params (w.up wal))
        (fun wal => Inv params (w.up wal)) ⟨w.disk, { st with clog }⟩ := by
      apply WP.bind
      refine wp_lockState avail ?_
      apply wp_update
      exact serving.statuses (fun _ live => ⟨{ live with }, rfl, rfl⟩) avail
    apply wp_establishRecoveryCommittedFloor live
    · exact fun _ => resolve st.clog
    · exact fun _ _ _ _ _ => resolve _
    · exact fun _ => ⟨serving.statuses (fun _ live => ⟨live, rfl, rfl⟩) avail,
        serving.stopped serving.running⟩
  · apply WP.bind
    exact wp_lockState_poisoned avail (serving.poisoned avail)

end Steps

theorem inv_reopen {d : Disk} (opens : Opens params w.disk snapshot w.log w.acked)
    (down : w.live = none) (crash : Survives params.geometry w.disk d) :
    Inv params (w.opened (openWal params ⟨d, faults⟩)) := by
  have spec : WP True (fun t => Opens params t snapshot w.log w.acked) (openWal params)
      (fun st t => Inv params ⟨t, some st, .idle, retained w.log st.flushedLsn, w.acked⟩)
      (fun t => Opens params t snapshot w.log w.acked) d := by
    apply wp_openWal (opens.survives crash)
    · intro t st live le _
      exact Serving.inv rfl ⟨live.running (.refl live.sized), le, trivial,
        fun _ => ⟨live, rfl, rfl⟩⟩
    · exact fun _ t opens => ⟨opens, opens⟩
  have bad (t : Disk) (opens : Opens params t snapshot w.log w.acked) :
      Inv params { w with disk := t } := Opens.inv opens le_rfl down
  obtain ⟨a, m, ran, post⟩ | ⟨e, m, ran, post⟩ | ⟨m, ran, post⟩ := spec.run faults <;> rw [ran]
  · exact post
  · exact bad _ post
  · exact bad _ post

/-- **The step lemma.** -/
theorem inv_step {action : Action χ} (inv : Inv params w) (adm : ok params w action)
    (moved : step params w action = some w') : Inv params w' := by
  unfold step at moved
  unfold Inv at inv
  cases up : w.live with
  | none =>
    rw [up] at moved inv
    obtain ⟨snapshot, opens⟩ := inv
    cases action <;> simp only [reduceCtorEq, some.injEq] at moved
    subst moved
    exact inv_reopen opens up adm
  | some st =>
    rw [up] at moved inv
    obtain ⟨floor, flushed, snapshot, serving⟩ := inv
    cases action with
    | append record faults => exact some.inj moved ▸ inv_append serving adm
    | flush faults => exact some.inj moved ▸ inv_flush serving
    | capture proposed act bound =>
      dsimp only at moved
      split at moved <;> cases moved <;> exact inv_capture serving act bound adm
    | writeClog faults =>
      dsimp only at moved
      split at moved <;> cases moved
      exact inv_writeClog serving ‹_›
    | adopt =>
      dsimp only at moved
      split at moved <;> cases moved
      exact inv_adopt serving ‹_›
    | storeControl =>
      dsimp only at moved
      split at moved <;> cases moved
      exact inv_storeControl serving
    | recycle faults =>
      dsimp only at moved
      split at moved <;> cases moved
      exact inv_recycle serving ‹_›
    | setVacuumFloor bound => exact some.inj moved ▸ inv_setVacuumFloor serving bound
    | recover bound faults => exact some.inj moved ▸ inv_recover serving bound
    | kill => exact some.inj moved ▸ serving.stopped serving.running
    | reopen disk faults => cases moved

theorem inv_init : Inv params (init : World χ) := by
  have fresh : Untouched Disk.empty := ⟨rfl, rfl, rfl, fun _ => AList.lookup_empty _, rfl⟩
  exact ⟨none, .inl ⟨fresh, rfl, trivial, rfl⟩⟩

/-- **The run lemma.** -/
theorem inv_run {actions : List (Action χ)}
    (run : Run (step params) (ok params) init actions w) : Inv params w :=
  run.invariant (fun _ _ _ inv adm moved => inv_step inv adm moved) inv_init

/-- Whether or not a process is up, the directory can be opened again. -/
theorem Inv.opens (inv : Inv params w) :
    ∃ snapshot, Opens params w.disk snapshot w.log w.acked := by
  unfold Inv at inv
  split at inv
  · exact inv
  · obtain ⟨floor, flushed, snapshot, serving⟩ := inv
    exact ⟨snapshot, serving.running.opens serving.acked⟩

end World

/-! ### The crash that loses everything unsynced -/

/-- Every segment is cut to its synced bytes. -/
def Disk.crop (disk : Disk) : Disk := { disk with
    segments := disk.segments.filterMapValues fun segment =>
      some { segment with payload := segment.payload.take segment.synced }
    unlinked := [] }

theorem Opens.sized {χ : Type} {params : Params χ} {d : Disk} {snapshot : Option ClogSnapshot}
    {log : List (Logged χ)} {acked : Nat} (opens : Opens params d snapshot log acked) :
    WellSized params.geometry d := by
  obtain ⟨fresh, -⟩ | ⟨found, kept, -⟩ := opens
  · exact fresh.sized
  · exact kept.recorded.sized

theorem survives_crop {g : Geometry} {d : Disk} (sized : WellSized g d) : Survives g d d.crop := by
  have lookup (n : Nat) : d.crop.segments.lookup n = (d.segments.lookup n).map fun seg =>
      { seg with payload := seg.payload.take seg.synced } := by
    rw [Disk.crop, AList.lookup_filterMapValues]
    cases d.segments.lookup n <;> rfl
  refine ⟨rfl, rfl, rfl, rfl, ?_, ?_, ?_, rfl⟩
  · intro n s found
    obtain ⟨t, here, rfl⟩ := map_eq_some_iff.mp ((lookup n).symm.trans found)
    have fits := sized n t here
    simp only [List.length_take]
    omega
  · intro n s found
    obtain ⟨here, head⟩ := Disk.segment_eq_some.mp found
    have cut : d.crop.segments.lookup n = some { s with payload := s.payload.take s.synced } := by
      rw [lookup, here]
      rfl
    refine ⟨_, Disk.segment_eq_some.mpr ⟨cut, head⟩, fun i lt => ⟨?_, id⟩⟩
    intro b byte
    rw [List.getElem?_take_of_lt lt]
    exact byte
  · intro n gone _
    rw [lookup, gone]
    rfl

/-! ### One stream -/

/-- **The segmented WAL is one byte stream.** On the files, byte strings behave as on
a tape. In every run of the manager, reading from the floor to the end gives the
bytes of the log from there on; and whatever a crash leaves of the directory, it can
be opened again, the end that is found is not before the last flush, and what is
read is a part of the log from its beginning: whole records that were appended. -/
theorem segmented_wal_is_one_stream {χ : Type} (params : Params χ) :
    (∀ ops tape, Run Tape.step (fun _ _ => True) ⟨[], 0, 0⟩ ops tape →
      ∃ wal, Run (Segments.step params.geometry) (fun _ _ => True) (Segments.fresh params.geometry)
          ops wal ∧ wal.state.replayFloor = tape.floor ∧ wal.state.writtenLsn = tape.bytes.length ∧
        ∃ reader, SegmentReader.readExactVec params.geometry wal.disk
          (wal.state.writtenLsn - wal.state.replayFloor)
          (.new wal.state.replayFloor wal.state.writtenLsn) =
            .ok (some (tape.bytes.drop tape.floor), reader)) ∧
    (∀ actions w, Run (World.step params) (World.ok params) World.init actions w →
      (∀ st, w.live = some st → st.poisoned = none → st.writtenLsn = (stream w.log).length ∧
        ∃ reader, SegmentReader.readExactVec params.geometry w.disk
          (st.writtenLsn - st.replayFloor) (.new st.replayFloor st.writtenLsn) =
            .ok (some ((stream w.log).drop st.replayFloor), reader)) ∧
      (∀ d, Survives params.geometry w.disk d →
        ∃ st m, openWal params ⟨d, []⟩ = (.ok st, m) ∧ w.acked ≤ st.writtenLsn ∧
          ∃ recycled kept lost, w.log = recycled ++ kept ++ lost ∧
            st.replayFloor = (stream recycled).length ∧
            st.writtenLsn = (stream (recycled ++ kept)).length ∧
            (∃ reader, SegmentReader.readExactVec params.geometry m.state
              (st.writtenLsn - st.replayFloor) (.new st.replayFloor st.writtenLsn) =
                .ok (some (stream kept), reader)) ∧
            replayEntriesFrom params m.state st 0 = .ok (entriesFrom st.replayFloor kept))) := by
  refine ⟨fun ops tape run => ?_, fun actions w run => ⟨fun st up available => ?_, fun d crash => ?_⟩⟩
  · obtain ⟨wal, followed, represents⟩ := Segments.refines params.geometry run
    obtain ⟨reader, read⟩ := represents.toStreamed.read
    rw [represents.floor] at read
    exact ⟨wal, followed, represents.floor, represents.written, reader, represents.floor ▸ read⟩
  · have inv := World.inv_run run
    unfold World.Inv at inv
    rw [up] at inv
    obtain ⟨floor, flushed, snapshot, serving⟩ := inv
    have live := (serving.live available).1
    exact ⟨live.written, live.toStreamed.read⟩
  · obtain ⟨snapshot, opens⟩ := (World.inv_run run).opens
    have spec : WP False (fun _ => False) (openWal params) (fun st t =>
        Live params ⟨t, st⟩ snapshot (retained w.log st.flushedLsn) ∧ w.acked ≤ st.flushedLsn ∧
          st.flushedLsn = st.writtenLsn) (fun _ => False) d :=
      wp_openWal (opens.survives crash) (fun t st live le opened => ⟨live, le, opened.flushed⟩)
        fun may => may.elim
    obtain ⟨st, m, opened, live, le, flushed⟩ := WP.run_undisturbed spec
    refine ⟨st, m, opened, flushed ▸ le, ?_⟩
    have written : st.writtenLsn = (stream (retained w.log st.flushedLsn)).length := live.written
    obtain ⟨recycled, kept, split, floor⟩ := live.floor
    obtain ⟨reader, read⟩ := live.toStreamed.read
    have log : w.log = retained w.log st.flushedLsn ++
        w.log.dropWhile fun entry => entry.record.lsn ≤ st.flushedLsn :=
      List.takeWhile_append_dropWhile.symm
    refine ⟨recycled, kept, _, split ▸ log, floor.symm, split ▸ written, ⟨reader, ?_⟩,
      live.replay split floor⟩
    rw [read, split, stream_append, List.drop_left' floor]

/-- Parameters that can be evaluated: segments of 32 bytes, and JSON libraries that
know a few kinds of records and the one given snapshot. -/
def Params.small (snapshot : ClogSnapshot) : Params Empty where
  geometry := ⟨32, by decide⟩
  serde := .ofKinds [.commit, .abort, .checkpoint 33 33 33, .commitWithSubxids [4]]
    (by decide +kernel)
  clogSerde := .only snapshot

/-- Actions that `World.ok` always admits. -/
def Action.unconditional {χ : Type} : Action χ → Bool
  | .capture .. | .reopen .. => false
  | .append ⟨_, _, .catalogChange _⟩ _ => false
  | _ => true

/-- A run of such actions that starts by opening an empty directory. -/
theorem World.run_of_exec {χ : Type} {params : Params χ} {actions : List (Action χ)} {w : World χ}
    (done : exec (World.step params) (fun _ action => action.unconditional)
      (World.init.opened (openWal params ⟨Disk.empty.crop, []⟩)) actions = some w) :
    Run (World.step params) (World.ok params) World.init
      (.reopen Disk.empty.crop [] :: actions) w := by
  have sized : WellSized params.geometry Disk.empty := fun n s found => by
    rw [show Disk.empty.segments.lookup n = none from AList.lookup_empty n] at found
    cases found
  refine .cons (survives_crop sized) rfl ((Run.of_exec done).mono fun w action adm => ?_)
  cases action with
  | append record faults =>
    refine Serde.exact_of_ne fun changeSet is => ?_
    rw [Action.unconditional.eq_def] at adm
    obtain ⟨lsn, txnId, kind⟩ := record
    subst is
    cases adm
  | capture => cases adm
  | reopen => cases adm
  | _ => trivial

/-- Forty bytes over two segments, recycled and cut; two commits over three segments,
of which only the first is flushed before everything unsynced is lost. -/
theorem segmented_wal_is_one_stream_small :
    let params := Params.small ⟨0, 0, 3, 3, [], [], []⟩
    (∃ wal, Run (Segments.step params.geometry) (fun _ _ => True) (Segments.fresh params.geometry)
        [.append (List.replicate 40 7), .sync, .recycle 32, .truncate 35] wal ∧
      wal.state.replayFloor = 32 ∧ wal.state.writtenLsn = 35) ∧
    ∃ w, Run (World.step params) (World.ok params) World.init
        [.reopen Disk.empty.crop [], .append ⟨0, 5, .commit⟩ [], .flush [],
          .append ⟨0, 6, .commit⟩ []] w ∧ w.acked = 33 ∧ (stream w.log).length = 66 ∧
      ∃ st m, openWal params ⟨w.disk.crop, []⟩ = (.ok st, m) ∧ 33 ≤ st.writtenLsn := by
  intro params
  constructor
  · have done : exec Tape.step (fun _ _ => true) ⟨[], 0, 0⟩
        [.append (List.replicate 40 7), .sync, .recycle 32, .truncate 35] =
          some ⟨List.replicate 35 7, 32, 35⟩ := by decide
    obtain ⟨wal, run, floor, written, -⟩ := (segmented_wal_is_one_stream params).1 _ _
      ((Run.of_exec done).mono fun _ _ _ => trivial)
    exact ⟨wal, run, floor, written⟩
  · have done : (exec (World.step params) (fun _ action => action.unconditional)
        (World.init.opened (openWal params ⟨Disk.empty.crop, []⟩))
        [.append ⟨0, 5, .commit⟩ [], .flush [], .append ⟨0, 6, .commit⟩ []]).map
          (fun w => (w.acked, (stream w.log).length)) = some (33, 66) := by decide +kernel
    obtain ⟨w, ran, values⟩ := map_eq_some_iff.mp done
    obtain ⟨acked, length⟩ := Prod.mk.inj values
    have run := World.run_of_exec ran
    obtain ⟨snapshot, opens⟩ := (World.inv_run run).opens
    obtain ⟨st, m, opened, le, -⟩ :=
      ((segmented_wal_is_one_stream params).2 _ w run).2 _ (survives_crop opens.sized)
    exact ⟨w, run, acked, length, st, m, opened, acked ▸ le⟩

end Saguaro.Wal
