/-
What the WAL manager keeps in every state.

`Stored d found snapshot log` says what a directory holds for the log: the metadata
`found`, the bytes it records, and a CLOG snapshot that the recorded range covers.
`Live` adds what a running manager knows beside it, `Opens` forgets everything but
what a restart needs. Each critical section has one rule here: what it does when it
returns, and what an error or a stop in it leaves behind.
-/

import Saguaro.Wal.Log
import Saguaro.Wal.Tape

namespace Saguaro.Wal

open Crash FileWal

variable {χ : Type} (params : Params χ)

/-- The snapshot file fits the metadata: it covers the floor, and its positions are
record boundaries of the recorded range. -/
def Covers (found : WalMeta) (log : List (Logged χ)) : Option ClogSnapshot → Prop
  | none => found.replayFloor = 0
  | some snapshot => found.replayFloor ≤ snapshot.authorizedReplayFloor ∧
      snapshot.authorizedReplayFloor ≤ snapshot.clogLsn ∧ snapshot.clogLsn ≤ found.durableEnd ∧
      Boundary log snapshot.authorizedReplayFloor ∧ Boundary log snapshot.clogLsn

/-- What the directory `d` holds of the log. -/
structure Stored (d : Disk) (found : WalMeta) (snapshot : Option ClogSnapshot)
    (log : List (Logged χ)) : Prop where
  framed : Framed params.serde 0 log
  recorded : Recorded params.geometry d found (stream log)
  floor : Boundary log found.replayFloor
  durableEnd : Boundary log found.durableEnd
  stored : storedClog params d = .ok snapshot
  covers : Covers found log snapshot

/-- The directory `d` can be opened again, with everything up to `acked`. -/
def Opens (d : Disk) (snapshot : Option ClogSnapshot) (log : List (Logged χ)) (acked : Nat) : Prop :=
  Untouched d ∧ snapshot = none ∧ Framed params.serde 0 log ∧ acked = 0 ∨
    ∃ found, Stored params d found snapshot log ∧ acked ≤ found.durableEnd

/-- The directory of a manager that has the replay floor `floor` and has flushed up to
`flushed`. -/
def Running (d : Disk) (floor flushed : Nat) (snapshot : Option ClogSnapshot)
    (log : List (Logged χ)) : Prop :=
  ∃ durableEnd, flushed ≤ durableEnd ∧ Stored params d ⟨floor, durableEnd⟩ snapshot log ∧
    Anchored params.geometry d floor

/-- A manager that is running on the directory. -/
structure Live (wal : FileWal) (snapshot : Option ClogSnapshot) (log : List (Logged χ)) : Prop
    extends Stored params wal.disk ⟨wal.state.replayFloor, wal.state.flushedLsn⟩ snapshot log,
      Streamed params.geometry wal (stream log) where
  available : wal.state.poisoned = none

variable {params} {d d' : Disk} {st : WalState} {found : WalMeta} {snapshot : Option ClogSnapshot}
  {log : List (Logged χ)} {acked : Nat}

theorem Covers.mono (covers : Covers found log snapshot) (found' : WalMeta)
    (floor : found'.replayFloor = found.replayFloor) (le : found.durableEnd ≤ found'.durableEnd)
    (more : List (Logged χ)) : Covers found' (log ++ more) snapshot := by
  cases snapshot with
  | none => exact floor.trans covers
  | some snapshot =>
    obtain ⟨above, auth, inside, bound, pos⟩ := covers
    exact ⟨floor ▸ above, auth, inside.trans le, bound.append _, pos.append _⟩

namespace Stored

theorem kept (stored : Stored params d found snapshot log)
    (kept : Kept params.geometry found.replayFloor found.durableEnd d d') :
    Stored params d' found snapshot log where
  framed := stored.framed
  recorded := stored.recorded.kept kept
  floor := stored.floor
  durableEnd := stored.durableEnd
  stored := by
    rw [← stored.stored, storedClog, kept.clog, storedClog]
  covers := stored.covers

/-- A directory holds no less of a log than of the part up to its durable end. -/
theorem of_append {before after : List (Logged χ)}
    (stored : Stored params d found snapshot (before ++ after))
    (ends : (stream before).length = found.durableEnd) : Stored params d found snapshot before where
  framed := (framed_append.mp stored.framed).1
  recorded := Recorded.of_append (stream_append ▸ stored.recorded) ends.ge
  floor := stored.floor.of_append stored.framed (ends ▸ stored.recorded.ordered)
  durableEnd := ends ▸ boundary_end before
  stored := stored.stored
  covers := by
    cases snapshot with
    | none => exact stored.covers
    | some snapshot =>
      obtain ⟨floor, authorized, le, boundary, position⟩ := stored.covers
      have le' := ends.symm ▸ le
      exact ⟨floor, authorized, le, boundary.of_append stored.framed (authorized.trans le'),
        position.of_append stored.framed le'⟩

theorem opens (held : Stored params d found snapshot log) (le : acked ≤ found.durableEnd) :
    Opens params d snapshot log acked := .inr ⟨found, held, le⟩

end Stored

theorem Opens.survives (opens : Opens params d snapshot log acked)
    (crash : Survives params.geometry d d') : Opens params d' snapshot log acked := by
  rcases opens with ⟨fresh, none, framed, zero⟩ | ⟨found, held, le⟩
  · exact .inl ⟨fresh.survives crash, none, framed, zero⟩
  · refine .inr ⟨found, { held with recorded := held.recorded.survives crash, stored := ?_ }, le⟩
    rw [← held.stored, storedClog, crash.clog, storedClog]

theorem Running.opens {floor flushed : Nat} (runs : Running params d floor flushed snapshot log)
    (le : acked ≤ flushed) : Opens params d snapshot log acked := by
  obtain ⟨durableEnd, flushed_le, held, -⟩ := runs
  exact held.opens (le.trans flushed_le)

/-- Whatever keeps the flushed part of the stream keeps the manager's directory. -/
theorem Live.running (live : Live params ⟨d, st⟩ snapshot log)
    (kept : Kept params.geometry st.replayFloor st.flushedLsn d d') :
    Running params d' st.replayFloor st.flushedLsn snapshot log :=
  ⟨st.flushedLsn, le_rfl, live.toStored.kept kept, kept.anchored live.anchored⟩

/-- A manager goes on where its stream is kept and the active segment ends it. -/
theorem Live.move {a : Nat} (live : Live params ⟨d, st⟩ snapshot log)
    (kept : Kept params.geometry st.replayFloor st.writtenLsn d d')
    (shape : Shape params.geometry d' a st.writtenLsn) :
    Live params ⟨d', { st with activeNumber := a }⟩ snapshot log :=
  { live.toStored.kept (kept.mono live.flushed_le), live.toStreamed.move kept shape with
    available := live.available }

theorem Live.below (live : Live params ⟨d, st⟩ snapshot log)
    (kept : Kept params.geometry st.replayFloor st.writtenLsn d d')
    (same : ∀ m, st.replayFloor / params.geometry.payloadBytes ≤ m →
      d'.segments.lookup m = d.segments.lookup m) : Live params ⟨d', st⟩ snapshot log :=
  { live.toStored.kept (kept.mono live.flushed_le), live.toStreamed.below kept same with
    available := live.available }

/-! ### Opening -/

/-- Where the CLOG of a manager starts from. -/
def seedOf : Option ClogSnapshot → ClogSeed
  | none => ⟨.new, FIRST_NORMAL_XID, false, 0⟩
  | some snapshot => ⟨.fromSnapshot snapshot, snapshot.vacuumFloor, true, snapshot.clogLsn⟩

theorem Covers.seed (covers : Covers found log snapshot) :
    seedClog found snapshot = .ok (seedOf snapshot) ∧
      found.replayFloor ≤ (seedOf snapshot).clogLsn ∧
      ((seedOf snapshot).clogLsn ≤ found.durableEnd) ∧ Boundary log (seedOf snapshot).clogLsn := by
  cases snapshot with
  | none => exact ⟨if_pos covers, covers.le, Nat.zero_le _, boundary_zero log⟩
  | some snapshot =>
    obtain ⟨floor, auth, le, -, bound⟩ := covers
    refine ⟨?_, floor.trans auth, le, bound⟩
    rw [seedClog, if_neg (by omega), if_neg (by omega)]
    rfl

/-- The CLOG part of a manager that was just opened on `log`. -/
structure Opened (st : WalState) (snapshot : Option ClogSnapshot) (log : List (Logged χ)) :
    Prop where
  clog : ∃ before between, log = before ++ between ∧
    (stream before).length = (seedOf snapshot).clogLsn ∧
    st.clog = between.foldl (fun clog entry => foldStatus clog entry.record) (seedOf snapshot).clog
  flushed : st.flushedLsn = st.writtenLsn
  pendingCommits : st.pendingCommits = []
  vacuumFloor : st.vacuumFloor = (seedOf snapshot).vacuumFloor
  clogLoadedFromSnapshot : st.clogLoadedFromSnapshot = (seedOf snapshot).loadedFromSnapshot

theorem Opens.began (opens : Opens params d snapshot log acked)
    (began : Began params.geometry d d' (stream log)) : Opens params d' snapshot log acked := by
  rcases opens with ⟨fresh, rfl, framed, rfl⟩ | ⟨found, stored, le⟩
  · obtain fresh' | ⟨found, recorded⟩ := began.recoverable
    · exact .inl ⟨fresh', rfl, framed, rfl⟩
    have walMeta := recorded.walMeta
    obtain same | ⟨-, new⟩ := began.walMeta
    · rw [same, fresh.walMeta] at walMeta
      cases walMeta
    cases new.symm.trans walMeta
    refine .inr ⟨_, ⟨framed, recorded, boundary_zero log, boundary_zero log, ?_, rfl⟩, le_rfl⟩
    rw [storedClog, began.clog, fresh.clog]
  have walMeta : d'.walMeta = some found := by
    obtain same | ⟨none, -⟩ := began.walMeta
    · exact same.trans stored.recorded.walMeta
    · rw [stored.recorded.walMeta] at none
      cases none
  obtain fresh | ⟨found', recorded⟩ := began.recoverable
  · rw [fresh.walMeta] at walMeta
    cases walMeta
  cases recorded.walMeta.symm.trans walMeta
  refine .inr ⟨_, { stored with recorded, stored := ?_ }, le⟩
  rw [← stored.stored, storedClog, began.clog, storedClog]

/-- The active segment that `open` computes is the last one. -/
theorem Shape.activeNumber_eq {g : Geometry} {a endPos : Nat}
    (shape : Shape g d a endPos) (sized : WellSized g d) : (if endPos % g.payloadBytes = 0 ∧
        (d.segments.lookup (endPos / g.payloadBytes)).isSome then
      endPos / g.payloadBytes
    else activeSegmentNumber g endPos) = a := by
  obtain ⟨s, found, -⟩ := shape.active
  have divMod := Nat.div_add_mod' endPos g.payloadBytes
  obtain here | ⟨next, full⟩ := shape.position sized
  · rw [here, (Disk.segment_eq_some.mp found).1]
    split
    · rfl
    · rename_i other
      rw [activeSegmentNumber, if_neg (fun h => other ⟨h.2, rfl⟩), here]
  have zero : endPos % g.payloadBytes = 0 := by
    rw [full]
    exact Nat.mul_mod_left _ _
  have positive : endPos > 0 := by
    rw [full]
    exact mul_pos (Nat.succ_pos a) g.pos
  rw [next, shape.last (a + 1) (Nat.lt_succ_self a), if_neg (by simp), activeSegmentNumber,
    if_pos ⟨positive, zero⟩, next]
  rfl

section Open

variable {F : Prop} {C E : Disk → Prop}

/-- Segments below the floor and bytes behind the durable end are dropped; then the
stream ends at the durable end. -/
theorem wp_dropTail {Q : Unit → Disk → Prop} {physicalEnd : Nat} {s : Segment}
    (held : Stored params d found snapshot log)
    (seg : d.segment (truncateTarget params.geometry found.durableEnd found.replayFloor).1 = some s)
    (long : (truncateTarget params.geometry found.durableEnd found.replayFloor).2 ≤ s.payload.length)
    (beyond : ∀ m, (truncateTarget params.geometry found.durableEnd found.replayFloor).1 < m →
      d.segments.lookup m = none)
    (ends : physicalEnd = (truncateTarget params.geometry found.durableEnd found.replayFloor).1 *
      params.geometry.payloadBytes + s.payload.length)
    (done : ∀ d' a, Kept params.geometry found.replayFloor found.durableEnd d d' →
      Shape params.geometry d' a found.durableEnd → Q () d')
    (hurt : F → ∀ d', Kept params.geometry found.replayFloor found.durableEnd d d' →
      E d' ∧ C d') : WP F C (.when (physicalEnd > found.durableEnd) do
      let _ ← truncateStream params.geometry found.durableEnd physicalEnd found.replayFloor) Q E d := by
  have sized := held.recorded.sized
  have le := held.recorded.ordered
  have stands := (truncateTarget_spec params.geometry le).1
  apply WP.when
  · intro _
    apply WP.bind
    refine wp_truncateStream sized le seg long (fun m _ gt => beyond m gt) ?_ hurt
    exact fun d' a kept shape => WP.pure (done d' a kept shape)
  intro exactly
  have exactly : physicalEnd = found.durableEnd := by
    simp only [gt_iff_lt, decide_eq_false_iff_not, not_lt] at exactly
    omega
  exact done d _ (.refl sized) ⟨⟨s, seg, ends.symm.trans exactly⟩, beyond⟩

/-- **Opening** succeeds from every directory a crash can leave, undisturbed; it finds
the log up to the recorded durable end. -/
theorem wp_openWal {Q : WalState → Disk → Prop} (opens : Opens params d snapshot log acked)
    (done : ∀ d' st, Live params ⟨d', st⟩ snapshot (retained log st.flushedLsn) →
      acked ≤ st.flushedLsn → Opened st snapshot (retained log st.flushedLsn) → Q st d')
    (hurt : F → ∀ d', Opens params d' snapshot log acked → E d' ∧ C d') :
    WP F C (openWal params) Q E d := by
  have recoverable : Recoverable params.geometry d (stream log) := by
    obtain ⟨fresh, -⟩ | ⟨found, held, -⟩ := opens
    · exact .inl fresh
    · exact .inr ⟨found, held.recorded⟩
  apply WP.bind
  refine wp_initializeWal recoverable (fun d₁ found noted₁ anchored₁ began => ?_)
    fun may d₁ began => hurt may d₁ (opens.began began)
  obtain ⟨held₁, acked_le⟩ : Stored params d₁ found snapshot log ∧ acked ≤ found.durableEnd := by
    obtain ⟨fresh, -⟩ | ⟨found', held, le⟩ := opens.began began
    · cases fresh.walMeta.symm.trans noted₁.walMeta
    · cases held.recorded.walMeta.symm.trans noted₁.walMeta
      exact ⟨held, le⟩
  have leaves (t : Disk) (kept : Kept params.geometry found.replayFloor found.durableEnd d₁ t)
      (may : F) : E t ∧ C t := hurt may t ((held₁.kept kept).opens acked_le)
  have kept₁ : Kept params.geometry found.replayFloor found.durableEnd d₁ d₁ := .refl noted₁.sized
  apply WP.bind
  refine WP.read_ok (by rw [noted₁.walMeta]) ?_ (leaves d₁ kept₁)
  apply WP.bind
  refine wp_recycleOrphanedSegments noted₁.sized (fun d₂ kept₂ _ => ?_)
    fun may t kept => leaves t kept may
  have held₂ := held₁.kept kept₂
  apply WP.bind
  refine WP.ensure (fun _ => ?_) (by simp [noted₁.ordered])
  have complete := complete_of_holds noted₁.ordered noted₁.inside held₂.recorded.sized
    (held₂.recorded.durable.holds noted₁.inside) (kept₂.anchored anchored₁)
  apply WP.bind
  refine wp_discoverEnd complete noted₁.ordered (fun d₃ s kept₃ seg long beyond => ?_)
    fun may t kept => leaves t (kept₂.trans kept) may
  have kept₃ := kept₂.trans kept₃
  have stands := (truncateTarget_spec params.geometry noted₁.ordered).1
  apply WP.bind
  refine WP.ensure (fun _ => ?_) (by simp; omega)
  apply WP.bind
  refine wp_dropTail (held₁.kept kept₃) seg long beyond rfl (fun d₄ a kept₄ shape => ?_)
    fun may t kept => leaves t (kept₃.trans kept) may
  have kept₄ := kept₃.trans kept₄
  have stored₄ := held₁.kept kept₄
  have anchored₄ := kept₄.anchored anchored₁
  apply WP.bind
  refine WP.read_ok stored₄.stored ?_ (leaves d₄ kept₄)
  obtain ⟨seed, floor_le, le_end, bound⟩ := stored₄.covers.seed
  apply WP.bind
  refine WP.ofExcept_ok seed ?_
  -- the log up to the durable end, split at the position of the snapshot
  obtain ⟨kept, lost, split, ends⟩ := stored₄.durableEnd
  have cov := bound
  rw [split] at stored₄ cov
  obtain ⟨prior, mid, rfl, pos⟩ := cov.of_append stored₄.framed (ends ▸ le_end)
  have retained_eq : retained log found.durableEnd = prior ++ mid := by
    rw [split, ← ends]
    exact retained_of_boundary stored₄.framed
  have holds := stored₄.recorded.durable.holds stored₄.recorded.inside
  have scanned := scanStream_holds foldStatus (seedOf snapshot).clog holds stored₄.framed
    stored₄.recorded.inside rfl (pos ▸ floor_le) ends.le
  rw [pos, ends] at scanned
  apply WP.bind
  refine WP.read_ok scanned ?_ (leaves d₄ kept₄)
  apply WP.bind
  apply WP.gets
  rw [shape.activeNumber_eq stored₄.recorded.sized]
  obtain ⟨act, opened, -⟩ := shape.active
  apply WP.bind
  refine wp_openSegment opened ?_ (leaves d₄ kept₄)
  apply WP.pure
  have held := stored₄.of_append ends
  apply done
  · rw [retained_eq]
    exact
      { held with
        sized := held.recorded.sized
        ordered := held.recorded.ordered
        flushed_le := le_rfl
        written := ends.symm
        anchored := anchored₄
        holds := held.recorded.durable.holds held.recorded.inside
        durable := held.recorded.durable
        shape
        unflushed := (if_neg (lt_irrefl _)).symm
        available := rfl }
  · exact acked_le
  · rw [retained_eq]
    exact ⟨⟨prior, mid, rfl, pos, rfl⟩, rfl, rfl, rfl, rfl⟩

end Open

/-! ### Appending -/

section Append

variable {F : Prop} {C E : FileWal → Prop} {Q : Unit → FileWal → Prop}

/-- **Repairing a failed append**: cut the stream where the append began. -/
theorem wp_repairFailedAppend {a attemptedEnd : Nat} (live : Live params ⟨d, st⟩ snapshot log)
    (kept : KeptAll params.geometry d d')
    (beyond : ∀ m, attemptedEnd / params.geometry.payloadBytes < m → d'.segments.lookup m = none)
    (done : ∀ t a', Live params ⟨t, { st with activeNumber := a' }⟩ snapshot log →
      Q () ⟨t, { st with activeNumber := a' }⟩)
    (bad : F → ∀ t error, Kept params.geometry st.replayFloor st.flushedLsn d t →
      E ⟨t, { st with activeNumber := a, poisoned := some error }⟩)
    (stopped : F → ∀ t, Kept params.geometry st.replayFloor st.flushedLsn d t →
      C ⟨t, { st with activeNumber := a }⟩) :
    WP F C (repairFailedAppend params st.writtenLsn attemptedEnd) Q E
      ⟨d', { st with activeNumber := a }⟩ := by
  have le : st.replayFloor ≤ st.writtenLsn := live.ordered.trans live.flushed_le
  apply WP.bind
  apply WP.gets
  apply WP.bind
  apply WP.tryCatch
  refine wp_truncate live.toStreamed rfl (kept _ st.writtenLsn) le_rfl le le_rfl beyond ?_
    fun may t after => ⟨fun error => ?_, stopped may t (after.mono live.flushed_le)⟩
  · intro t a' after shape
    apply wp_update
    have same := live.unflushed_le shape after.sized
    rw [same]
    exact done t a' (live.move after shape)
  · apply WP.bind
    apply wp_poison
    exact WP.throw (bad may t error (after.mono live.flushed_le))

/-- What a manager knows of the transactions. -/
structure Statuses where
  clog : Clog
  pendingCommits : List TxnId
  vacuumFloor : TxnId
  clogLoadedFromSnapshot : Bool

def WalState.statuses (st : WalState) : Statuses :=
  ⟨st.clog, st.pendingCommits, st.vacuumFloor, st.clogLoadedFromSnapshot⟩

variable (params) in
/-- A manager after a section that failed: poisoned, or running on the same log with
these statuses. -/
def Failed (wal : FileWal) (st : WalState) (snapshot : Option ClogSnapshot) (log : List (Logged χ)) :
    Prop := Running params wal.disk st.replayFloor st.flushedLsn snapshot log ∧
    wal.state.clog = st.clog ∧ (wal.state.poisoned = none →
      Live params wal snapshot log ∧ wal.state.replayFloor = st.replayFloor ∧
        wal.state.flushedLsn = st.flushedLsn ∧ wal.state.statuses = st.statuses)

/-- The state after an append. -/
def WalState.appended (st : WalState) (stored : WalRecord χ) (a : Nat) (first : Option Nat) : WalState :=
  { st with
    activeNumber := a
    unflushedFirstSegment := first
    pendingCommits := st.pendingCommits ++ committedBy stored
    writtenLsn := stored.lsn }

theorem Live.appended {a : Nat} {held : WalRecord χ} {frame : Bytes}
    (live : Live params ⟨d, st⟩ snapshot log) (kept : KeptAll params.geometry d d')
    (frameOf : FrameOf params.serde held frame) (lsn : held.lsn = st.writtenLsn + frame.length)
    (shape : Shape params.geometry d' a held.lsn)
    (holds : Holds params.geometry d' st.replayFloor held.lsn (stream log ++ frame)) :
    Live params ⟨d', st.appended held a
      (some (st.unflushedFirstSegment.getD (st.writtenLsn / params.geometry.payloadBytes)))⟩
      snapshot (log ++ [⟨held, frame⟩]) := by
  have wrote : st.writtenLsn = (stream log).length := live.written
  have flushed_le : st.flushedLsn ≤ st.writtenLsn := live.flushed_le
  have long := frameOf.le_length
  have ne : 0 < HEADER_LEN := by decide
  have first : some (st.unflushedFirstSegment.getD (st.writtenLsn / params.geometry.payloadBytes)) =
      if st.flushedLsn < held.lsn then some (st.flushedLsn / params.geometry.payloadBytes)
      else none := by
    have unflushed : st.unflushedFirstSegment = if st.flushedLsn < st.writtenLsn then _ else _ :=
      live.unflushed
    rw [if_pos (by omega), unflushed]
    split
    · rfl
    · rw [Option.getD_none, show st.writtenLsn = st.flushedLsn by omega]
  have bytes : stream (log ++ [⟨held, frame⟩]) = stream log ++ frame := by simp
  have noted := live.recorded.kept (kept st.replayFloor st.flushedLsn)
  have streamed := live.toStreamed.append kept lsn shape holds
  rw [first]
  exact
    { framed := framed_append.mpr ⟨live.framed, frameOf, by rw [lsn, wrote, zero_add], trivial⟩
      recorded := { noted with
        inside := by rw [bytes]; exact streamed.flushed_le.trans streamed.written.le
        durable := by rw [bytes]; exact streamed.durable }
      floor := live.floor.append _
      durableEnd := live.durableEnd.append _
      stored := (live.toStored.kept (kept st.replayFloor st.flushedLsn)).stored
      covers := live.covers.mono _ rfl le_rfl _
      toStreamed := by rw [bytes]; exact { streamed with }
      available := live.available }

/-- **Appending a record.** -/
theorem wp_appendRecord {Q : WalPosition → FileWal → Prop} {record : WalRecord χ}
    (exact_ : params.serde.Exact record.kind) (live : Live params ⟨d, st⟩ snapshot log)
    (done : ∀ d' a held frame first,
      encodeRecordAt params.serde record st.writtenLsn = .ok (held, frame) →
      Live params ⟨d', st.appended held a first⟩ snapshot (log ++ [⟨held, frame⟩]) →
      Q ⟨st.writtenLsn, held.lsn⟩ ⟨d', st.appended held a first⟩)
    (bad : ∀ wal, Failed params wal st snapshot log → E wal)
    (stopped : F → ∀ wal, Running params wal.disk st.replayFloor st.flushedLsn snapshot log → C wal) :
    WP F C (appendRecord params record) Q E ⟨d, st⟩ := by
  have same : Failed params ⟨d, st⟩ st snapshot log :=
    ⟨live.running (.refl live.sized), rfl, fun _ => ⟨live, rfl, rfl, rfl⟩⟩
  apply WP.bind
  refine wp_lockState live.available ?_
  apply WP.bind
  cases enc : encodeRecordAt params.serde record st.writtenLsn with
  | error err => exact WP.throw (bad _ same)
  | ok res =>
    obtain ⟨held, frame⟩ := res
    obtain ⟨frameOf, pos⟩ := encodeRecordAt_ok exact_ enc
    have lsn : held.lsn = st.writtenLsn + frame.length := by rw [pos]
    apply WP.pure
    apply WP.bind
    apply WP.tryCatch
    refine wp_append frame live.toStreamed ?_ ?_
    · intro d' a kept shape holds
      rw [← lsn] at shape holds
      apply WP.bind
      apply wp_update
      apply WP.pure
      exact done d' a held frame _ enc (live.appended kept frameOf lsn shape holds)
    intro may d' a kept beyond
    refine ⟨fun err => ?_, stopped may _ (live.running (kept _ _))⟩
    rw [← lsn] at beyond
    apply WP.bind
    refine wp_repairFailedAppend live kept beyond ?_ ?_ ?_
    · intro t a' live'
      exact WP.throw (bad _
        ⟨live'.running (.refl live'.sized), rfl, fun _ => ⟨live', rfl, rfl, rfl⟩⟩)
    · intro may t error kept'
      exact bad _ ⟨live.running kept', rfl, fun absurd => nomatch absurd⟩
    · intro may t kept'
      exact stopped may _ (live.running kept')

theorem wp_appendPositioned {Q : WalPosition → FileWal → Prop} {record : WalRecord χ}
    (exact_ : params.serde.Exact record.kind) (live : Live params ⟨d, st⟩ snapshot log)
    (done : ∀ d' a held frame first,
      encodeRecordAt params.serde record st.writtenLsn = .ok (held, frame) →
      let st' := { st with clog := publishStatus record st.clog }.appended held a first
      Live params ⟨d', st'⟩ snapshot (log ++ [⟨held, frame⟩]) →
      Q ⟨st.writtenLsn, held.lsn⟩ ⟨d', st'⟩)
    (bad : ∀ wal clog, clog = st.clog ∨ clog = publishStatus record st.clog →
      Failed params wal { st with clog } snapshot log → E wal)
    (stopped : F → ∀ wal, Running params wal.disk st.replayFloor st.flushedLsn snapshot log → C wal) :
    WP F C (appendPositioned params record) Q E ⟨d, st⟩ := by
  apply WP.bind
  apply WP.gets
  apply WP.bind
  refine WP.ensure (fun _ => ?_) fun _ => bad _ _ (.inl rfl)
    ⟨live.running (.refl live.sized), rfl, fun _ => ⟨live, rfl, rfl, rfl⟩⟩
  apply WP.bind
  apply wp_update
  exact wp_appendRecord exact_ { live with } done (fun wal h => bad wal _ (.inr rfl) h) stopped

theorem wp_appendPositioned_poisoned {Q : WalPosition → FileWal → Prop} (record : WalRecord χ)
    (bad : st.poisoned ≠ none)
    (failed : ∀ clog, clog = st.clog ∨ clog = publishStatus record st.clog → E ⟨d, { st with clog }⟩) :
    WP F C (appendPositioned params record) Q E ⟨d, st⟩ := by
  apply WP.bind
  apply WP.gets
  apply WP.bind
  refine WP.ensure (fun _ => ?_) fun _ => failed _ (.inl rfl)
  apply WP.bind
  apply wp_update
  apply WP.bind
  exact wp_lockState_poisoned bad (failed _ (.inr rfl))

end Append

/-! ### Flushing -/

section Flush

variable {F : Prop} {C E : FileWal → Prop} {Q : Unit → FileWal → Prop}

section

variable (live : Live params ⟨d, st⟩ snapshot log)

include live

section

variable (kept : KeptAll params.geometry d d')

include kept

/-- **Giving up a flush**: the unflushed bytes are cut off, and the manager is poisoned
whether or not that succeeds. -/
theorem wp_giveUpFlush {reason report : DbError}
    (shape : Shape params.geometry d' st.activeNumber st.writtenLsn)
    (bad : ∀ t st', Kept params.geometry st.replayFloor st.flushedLsn d t →
      st'.poisoned ≠ none → st'.clog = st.clog → E ⟨t, st'⟩)
    (stopped : F → ∀ t st', Kept params.geometry st.replayFloor st.flushedLsn d t → C ⟨t, st'⟩) :
    WP F C (giveUpFlush params reason report) Q E ⟨d', st⟩ := by
  have active_le := shape.active_le (kept 0 0).sized
  apply WP.bind
  apply WP.tryCatch
  apply WP.bind
  apply WP.gets
  apply WP.bind
  refine wp_truncate live.toStreamed rfl (kept _ st.writtenLsn) le_rfl live.ordered live.flushed_le
    (fun m gt => shape.last m (active_le.trans_lt gt)) ?_ ?_
  · intro t a after _
    apply wp_update
    apply WP.bind
    apply wp_poison
    exact WP.throw (bad _ _ after (by simp) rfl)
  intro may t after
  refine ⟨fun correction => ?_, stopped may _ _ after⟩
  apply WP.bind
  apply wp_poison
  exact WP.throw (bad _ _ after (by simp) rfl)

/-- The state after a flush. -/
def WalState.flush (st : WalState) : WalState := { st with
    flushedLsn := st.writtenLsn
    clog := st.clog.setAll st.pendingCommits .committed
    pendingCommits := []
    unflushedFirstSegment := none }

/-- A directory on which the stream is durable, with metadata that says so. -/
theorem Live.storeEnd {u : List Nat}
    (durable : Durable params.geometry d' st.replayFloor st.writtenLsn (stream log)) :
    Stored params { d' with walMeta := some ⟨st.replayFloor, st.writtenLsn⟩, unlinked := u }
      ⟨st.replayFloor, st.writtenLsn⟩ snapshot log where
  framed := live.framed
  recorded :=
    { walDir := (kept 0 0).walDir.trans live.recorded.walDir
      walMeta := rfl
      sized := (kept 0 0).sized
      ordered := live.ordered.trans live.flushed_le
      inside := live.written.le
      durable
      anchored := .inl ((kept st.replayFloor 0).anchored live.anchored) }
  floor := live.floor
  durableEnd := by
    have written : st.writtenLsn = (stream log).length := live.written
    exact written ▸ boundary_end log
  stored := (live.toStored.kept (kept _ _)).stored
  covers := by simpa using live.covers.mono ⟨_, st.writtenLsn⟩ rfl live.flushed_le []

theorem Live.flush {found : Option WalMeta} {u : List Nat}
    (held : Stored params { d' with walMeta := found, unlinked := u }
      ⟨st.replayFloor, st.writtenLsn⟩ snapshot log)
    (shape : Shape params.geometry d' st.activeNumber st.writtenLsn) :
    Live params ⟨{ d' with walMeta := found, unlinked := u }, st.flush⟩ snapshot log :=
  { held, live.toStreamed.sync kept shape held.recorded.durable with
    shape := ⟨shape.active, shape.last⟩
    available := live.available }

theorem wp_writeDurableEnd (shape : Shape params.geometry d' st.activeNumber st.writtenLsn)
    (dur : Durable params.geometry d' st.replayFloor st.writtenLsn (stream log))
    (done : ∀ u, Q () ⟨{ d' with
      walMeta := some ⟨st.replayFloor, st.writtenLsn⟩, unlinked := u }, st⟩)
    (bad : ∀ t st', Running params t st.replayFloor st.flushedLsn snapshot log →
      st'.poisoned ≠ none → st'.clog = st.clog → E ⟨t, st'⟩)
    (stopped : F → ∀ t st', Running params t st.replayFloor st.flushedLsn snapshot log → C ⟨t, st'⟩) :
    WP F C (writeDurableEnd params) Q E ⟨d', st⟩ := by
  have after (u : List Nat) : Running params { d' with
      walMeta := some ⟨st.replayFloor, st.writtenLsn⟩, unlinked := u } st.replayFloor st.flushedLsn
      snapshot log := ⟨st.writtenLsn, live.flushed_le, live.storeEnd kept dur,
      (kept st.replayFloor 0).anchored live.anchored⟩
  apply WP.bind
  apply WP.gets
  apply WP.bind
  apply wp_walOnDisk
  apply wp_writeMetaWithOutcome
  · exact WP.pure (done [])
  · intro may error
    exact wp_giveUpFlush live kept shape (fun t st' h => bad t st' (live.running h))
      fun may t st' h => stopped may t st' (live.running h)
  · intro may error
    apply WP.bind
    apply wp_poison
    exact WP.throw (bad _ _ (after d'.unlinked) (by simp) rfl)
  · exact fun may => stopped may _ _ (live.running (kept _ _))
  · exact fun may => stopped may _ _ (after d'.unlinked)

end

/-- **Flushing.** A flush that returns has made the whole log durable; one that fails
has poisoned the manager. -/
theorem wp_flush {Q : Nat → FileWal → Prop}
    (done : ∀ t, Live params ⟨t, st.flush⟩ snapshot log → Q st.writtenLsn ⟨t, st.flush⟩)
    (bad : ∀ t st', Running params t st.replayFloor st.flushedLsn snapshot log →
      st'.poisoned ≠ none → st'.clog = st.clog → E ⟨t, st'⟩)
    (stopped : F → ∀ t st', Running params t st.replayFloor st.flushedLsn snapshot log → C ⟨t, st'⟩) :
    WP F C (FileWal.flush params) Q E ⟨d, st⟩ := by
  apply WP.bind
  refine wp_lockState live.available ?_
  apply WP.bind
  apply WP.tryCatch
  refine wp_syncUnflushed live.toStreamed (fun d' kept shape dur => ?_) fun may d' kept shape => ⟨?_, ?_⟩
  · apply WP.bind
    apply WP.when
    · intro _
      refine wp_writeDurableEnd live kept shape dur (fun u => ?_) bad stopped
      apply WP.bind
      apply wp_update
      apply WP.gets
      exact done _ (live.flush kept (live.storeEnd kept dur) shape)
    intro all
    simp only [gt_iff_lt, decide_eq_false_iff_not, not_lt] at all
    have flushed : st.flushedLsn = st.writtenLsn := le_antisymm live.flushed_le all
    apply WP.bind
    apply wp_update
    apply WP.gets
    have held := live.toStored.kept (kept st.replayFloor st.flushedLsn)
    rw [flushed] at held
    exact done _ (live.flush kept held shape)
  · intro err
    exact wp_giveUpFlush live kept shape (fun t st' h => bad t st' (live.running h))
      fun may t st' h => stopped may t st' (live.running h)
  · exact stopped may _ _ (live.running (kept _ _))

end

theorem wp_flush_poisoned {Q : Nat → FileWal → Prop} (bad : st.poisoned ≠ none)
    (failed : E ⟨d, st⟩) : WP F C (FileWal.flush params) Q E ⟨d, st⟩ := by
  apply WP.bind
  exact wp_lockState_poisoned bad failed

end Flush

/-! ### Checkpoints -/

section Checkpoint

variable {F : Prop} {snap : ClogSnapshot}

theorem wp_captureClog {C E : FileWal → Prop} {Q : ClogSnapshot → FileWal → Prop}
    {proposed : Nat} {act : List TxnId} {bound : TxnId}
    (live : Live params ⟨d, st⟩ snapshot log)
    (done : st.replayFloor ≤ proposed → proposed ≤ st.flushedLsn →
      Q (st.clog.liveSnapshot st.flushedLsn proposed st.vacuumFloor act bound) ⟨d, st⟩)
    (bad : E ⟨d, st⟩) : WP F C (captureClog proposed act bound) Q E ⟨d, st⟩ := by
  apply WP.bind
  refine wp_lockState live.available ?_
  apply WP.bind
  refine WP.ensure (fun range => ?_) fun _ => bad
  simp only [Bool.and_eq_true, decide_eq_true_eq] at range
  exact WP.pure (done range.1 range.2)

/-- **Writing the snapshot file** replaces it, or leaves it as it was. -/
theorem wp_writeClogFile {C E : Disk → Prop} {Q : Unit → Disk → Prop} (canon : snap.Canonical)
    (same : E d ∧ C d)
    (repl : ∀ bytes, storedClog params { d with clog := some bytes } = .ok (some snap) →
      Q () { d with clog := some bytes } ∧ E { d with clog := some bytes } ∧
        C { d with clog := some bytes }) : WP F C (writeClogFile params snap) Q E d := by
  apply WP.bind
  cases enc : encodeClog params.clogSerde snap with
  | error err => exact WP.throw same.1
  | ok bytes =>
    obtain ⟨short, decoded⟩ := decodeClog_encodeClog canon enc
    have held : storedClog params { d with clog := some bytes } = .ok (some snap) := by
      unfold storedClog
      dsimp only
      rw [if_neg (not_lt.mpr short), decoded]
      rfl
    obtain ⟨done, hurt⟩ := repl bytes held
    apply WP.pure
    apply WP.bind
    refine WP.atomic ?_ fun _ => same
    apply WP.bind
    refine WP.atomic ?_ fun _ => same
    exact WP.atomic done fun _ => hurt

/-- A new snapshot file that covers the recorded range takes the old one's place. -/
theorem Stored.replace {bytes : Bytes} (held : Stored params d found snapshot log)
    (anchored : Anchored params.geometry d found.replayFloor)
    (repl : storedClog params { d with clog := some bytes } = .ok (some snap))
    (covers : Covers found log (some snap)) :
    Stored params { d with clog := some bytes } found (some snap) log := { held with
    recorded := { held.recorded with anchored := .inl anchored }
    stored := repl
    covers }

theorem Live.replace {bytes : Bytes} (live : Live params ⟨d, st⟩ snapshot log)
    (repl : storedClog params { d with clog := some bytes } = .ok (some snap))
    (covers : Covers ⟨st.replayFloor, st.flushedLsn⟩ log (some snap)) :
    Live params ⟨{ d with clog := some bytes }, st⟩ (some snap) log :=
  { live.toStored.replace live.anchored repl covers, live.toStreamed with
    shape := ⟨live.shape.active, live.shape.last⟩
    available := live.available }

end Checkpoint

/-! ### Recycling -/

section Recycle

variable {F : Prop} {C E : FileWal → Prop} {Q : Unit → FileWal → Prop} {lsn : Nat}

/-- The state with a higher replay floor. -/
theorem Live.raise {u : List Nat} {snap : ClogSnapshot} (live : Live params ⟨d, st⟩ (some snap) log)
    (at_ : snap.authorizedReplayFloor = lsn) (anchored : Anchored params.geometry d lsn) :
    Live params ⟨{ d with walMeta := some ⟨lsn, st.flushedLsn⟩, unlinked := u },
      { st with replayFloor := lsn }⟩ (some snap) log := by
  subst at_
  obtain ⟨l, auth, le, bound, position⟩ := live.covers
  exact
    { framed := live.framed
      recorded :=
        { walDir := live.recorded.walDir
          walMeta := rfl
          sized := live.sized
          ordered := auth.trans le
          inside := live.recorded.inside
          durable := fun pos l' h' => live.recorded.durable pos (l.trans l') h'
          anchored := .inl anchored }
      floor := bound
      durableEnd := live.durableEnd
      stored := live.stored
      covers := ⟨le_refl _, auth, le, bound, position⟩
      toStreamed := { live.toStreamed.raise l (auth.trans le) anchored with
        shape := ⟨live.shape.active, live.shape.last⟩ }
      available := live.available }

/-- **Recycling** up to the floor that the snapshot file authorizes. -/
theorem wp_recycleThrough {snap : ClogSnapshot} (live : Live params ⟨d, st⟩ (some snap) log)
    (at_ : snap.authorizedReplayFloor = lsn)
    (done : ∀ t a, Live params ⟨t, { st with activeNumber := a, replayFloor := lsn }⟩ (some snap) log →
      Q () ⟨t, { st with activeNumber := a, replayFloor := lsn }⟩)
    (bad : ∀ t st', Opens params t (some snap) log st.flushedLsn → E ⟨t, st'⟩)
    (stopped : F → ∀ t st', Opens params t (some snap) log st.flushedLsn → C ⟨t, st'⟩) :
    WP F C (recycleThrough params lsn) Q E ⟨d, st⟩ := by
  obtain ⟨floor_le, auth, le_flushed, -⟩ := live.covers
  dsimp only at floor_le le_flushed
  rw [at_] at floor_le auth
  have hurt (may : F) (t : Disk) (st' : WalState)
      (opens : Opens params t (some snap) log st.flushedLsn) : E ⟨t, st'⟩ ∧ C ⟨t, st'⟩ :=
    ⟨bad t st' opens, stopped may t st' opens⟩
  have opens (t : Disk) (kept : Kept params.geometry st.replayFloor st.flushedLsn d t) :
      Opens params t (some snap) log st.flushedLsn := (live.toStored.kept kept).opens le_rfl
  apply WP.bind
  refine wp_lockState live.available ?_
  apply WP.bind
  refine WP.ensure (fun _ => ?_) fun _ => bad _ _ (opens d (.refl live.sized))
  split
  · rename_i same
    subst same
    apply wp_walOnDisk
    exact wp_recycleOrphanedSegments live.sized
      (fun t kept others => done t st.activeNumber (live.below kept others))
      fun may t kept => hurt may _ _ (opens t (kept.mono live.flushed_le))
  rename_i other
  apply WP.bind
  refine WP.ensure (fun _ => ?_) fun _ => bad _ _ (opens d (.refl live.sized))
  apply WP.bind
  refine wp_ensureSuccessor live.toStreamed (by omega) (by omega) ?_ fun may t kept =>
    hurt may _ _ (opens t kept)
  intro t a kept shape anchored
  have live₁ := live.move kept shape
  have prior : Opens params t (some snap) log st.flushedLsn := live₁.toStored.opens le_rfl
  have after (u : List Nat) := live₁.raise (u := u) at_ anchored
  have opens' (u : List Nat) : Opens params _ (some snap) log st.flushedLsn :=
    (after u).toStored.opens le_rfl
  apply WP.bind
  apply wp_walOnDisk
  apply wp_writeMetaWithOutcome
  · apply WP.bind
    apply wp_update
    apply wp_walOnDisk
    refine wp_recycleSegments (after []).sized (fun t' kept others => ?_) fun may t' kept =>
      hurt may _ _ (((after []).toStored.kept (kept.mono live.flushed_le)).opens le_rfl)
    exact done t' a ((after []).below kept others)
  · intro may error
    apply WP.bind
    apply wp_poison
    exact WP.throw (bad _ _ prior)
  · intro may error
    apply WP.bind
    apply wp_poison
    exact WP.throw (bad _ _ (opens' t.unlinked))
  · exact fun may => stopped may _ _ prior
  · exact fun may => stopped may _ _ (opens' t.unlinked)

end Recycle

/-! ### Recovery -/

section Recover

variable {F : Prop} {C E : FileWal → Prop} {Q : Unit → FileWal → Prop}

/-- The retained records, as recovery reads them. -/
theorem Live.replay (live : Live params ⟨d, st⟩ snapshot log) {prior rest : List (Logged χ)}
    (split : log = prior ++ rest) (floor : (stream prior).length = st.replayFloor) :
    replayEntriesFrom params d st 0 = .ok (entriesFrom st.replayFloor rest) := by
  rw [replayEntriesFrom_holds 0 live.holds live.framed live.written split floor.symm,
    List.filter_eq_self.mpr]
  intro entry mem
  have framed := (framed_append.mp (split ▸ live.framed)).2
  rw [zero_add, floor] at framed
  simpa using framed.replayFrom_le mem

theorem wp_establishRecoveryCommittedFloor {bound : TxnId} (live : Live params ⟨d, st⟩ snapshot log)
    (loaded : st.clogLoadedFromSnapshot = true → Q () ⟨d, st⟩)
    (derived : ∀ prior rest, log = prior ++ rest → (stream prior).length = st.replayFloor →
      st.clogLoadedFromSnapshot = false →
      let raised := recoveryFloor st.clog (entriesFrom st.replayFloor rest) bound
      Q () ⟨d, { st with clog := st.clog.setCommittedFloor raised }⟩)
    (hurt : F → E ⟨d, st⟩ ∧ C ⟨d, st⟩) :
    WP F C (establishRecoveryCommittedFloor params bound) Q E ⟨d, st⟩ := by
  obtain ⟨prior, rest, split, floor⟩ := live.floor
  apply WP.bind
  refine wp_lockState live.available ?_
  apply WP.when
  · intro gone
    apply WP.bind
    refine WP.read_ok (live.replay split floor) ?_ hurt
    apply wp_update
    exact derived prior rest split floor (by simpa using gone)
  · exact fun h => loaded (by simpa using h)

end Recover

end Saguaro.Wal
