/-
The WAL as one byte stream.

`Streamed geometry wal bytes` says that the directory and the position fields of a
manager stand for the byte string `bytes`, of which a prefix may have been
recycled. Appending, syncing, truncating and recycling keep it; these rules are
what the manager's sections are proved from. At the end of the module they are put
together: on byte strings, the segment files behave as the list of bytes they stand
for (`Segments.refines`).
-/

import Saguaro.Lib.Transition
import Saguaro.Wal.Discover
import Saguaro.Wal.File

namespace Saguaro.Wal

open Crash FileWal Transition List Option AList

variable (g : Geometry) {a : Nat}

/-- The directory and the positions of `wal` stand for `bytes`. -/
structure Streamed (wal : FileWal) (bytes : Bytes) : Prop where
  sized : WellSized g wal.disk
  ordered : wal.state.replayFloor ≤ wal.state.flushedLsn
  flushed_le : wal.state.flushedLsn ≤ wal.state.writtenLsn
  written : wal.state.writtenLsn = bytes.length
  anchored : Anchored g wal.disk wal.state.replayFloor
  holds : Holds g wal.disk wal.state.replayFloor wal.state.writtenLsn bytes
  durable : Durable g wal.disk wal.state.replayFloor wal.state.flushedLsn bytes
  shape : Shape g wal.disk wal.state.activeNumber wal.state.writtenLsn
  unflushed : wal.state.unflushedFirstSegment =
    if wal.state.flushedLsn < wal.state.writtenLsn then
      some (wal.state.flushedLsn / g.payloadBytes)
    else none

variable {g} {d d' : Disk} {st : WalState} {bytes : Bytes} {lsn : Nat}

/-! ### Facts about a stream -/

theorem Shape.sync {endPos : Nat} (shape : Shape g d a endPos) (n : Nat) :
    Shape g { d with segments := d.segments.modify n Segment.sync } a endPos := by
  obtain ⟨s, found, ends⟩ := shape.active
  refine ⟨?_, fun m gt => lookup_sync_none (shape.last m gt) n⟩
  have modified := Disk.segment_modify (f := Segment.sync) (m := a) (fun _ => rfl)
    (show ({ d with segments := d.segments.modify n Segment.sync } : Disk).segments = _ from rfl)
  rw [found] at modified
  split at modified
  · exact ⟨_, modified, ends⟩
  · exact ⟨_, modified, ends⟩

/-- The segment of a position of the stream is not beyond the active one. -/
theorem Shape.div_le {endPos pos : Nat} (shape : Shape g d a endPos)
    (sized : WellSized g d) (lt : pos < endPos) : pos / g.payloadBytes ≤ a := by
  obtain here | ⟨-, full⟩ := shape.position sized
  · exact here ▸ Nat.div_le_div_right lt.le
  · exact Nat.lt_succ_iff.mp ((Nat.div_lt_iff_lt_mul g.pos).mpr (full ▸ lt))

theorem Shape.active_le {endPos : Nat} (shape : Shape g d a endPos)
    (sized : WellSized g d) : a ≤ endPos / g.payloadBytes := by
  obtain here | ⟨next, -⟩ := shape.position sized <;> omega

namespace Streamed

variable (streamed : Streamed g ⟨d, st⟩ bytes)

include streamed

/-- The stream can be cut at every position from the floor on. -/
theorem complete {hi position : Nat} (kept : Kept g st.replayFloor hi d d')
    (le : hi ≤ st.writtenLsn) (l : st.replayFloor ≤ position) (h : position ≤ hi) :
    Complete g d' st.replayFloor position := by
  have inside : st.writtenLsn ≤ bytes.length := streamed.written.le
  have holds := kept.holds (le.trans inside) fun pos l' h' => streamed.holds pos l' (h'.trans_le le)
  exact complete_of_holds l (by omega) kept.sized
    (fun pos l' h' => holds pos l' (h'.trans_le h)) (kept.anchored streamed.anchored)

/-- The segment of the floor is not beyond the active one. -/
theorem floor_le_active : st.replayFloor / g.payloadBytes ≤ st.activeNumber := by
  obtain ⟨s, seg, -⟩ := streamed.anchored
  by_contra beyond
  have gone := streamed.shape.last _ (Nat.lt_of_not_le beyond)
  rw [Disk.segment, gone] at seg
  cases seg

/-- A durable position that is not the end of the last segment has its segment on
stable storage. -/
theorem anchored_at (l : st.replayFloor ≤ lsn) (h : lsn ≤ st.flushedLsn)
    (inside : ¬(lsn = st.writtenLsn ∧ lsn % g.payloadBytes = 0)) : Anchored g d lsn := by
  obtain rfl | l := eq_or_lt_of_le l
  · exact streamed.anchored
  have flushed : st.flushedLsn ≤ st.writtenLsn := streamed.flushed_le
  have whole : st.writtenLsn ≤ bytes.length := streamed.written.le
  obtain zero | positive := eq_zero_or_pos (lsn % g.payloadBytes)
  · obtain ⟨s, seg, -⟩ := streamed.holds.segment whole lsn l.le
      (by have : lsn ≠ st.writtenLsn := fun eq => inside ⟨eq, zero⟩; dsimp only; omega)
    exact ⟨s, seg, by omega⟩
  -- the byte before the position is durable, in the same segment
  have dur := streamed.durable (lsn - 1) (by dsimp only; omega) (by dsimp only; omega)
  have divMod := Nat.div_add_mod' lsn g.payloadBytes
  have lt := Nat.mod_lt lsn g.pos
  obtain ⟨quot, remainder⟩ := div_mod_of_parts g (i := lsn % g.payloadBytes - 1) (by omega)
  have prior : lsn - 1 = lsn / g.payloadBytes * g.payloadBytes +
      (lsn % g.payloadBytes - 1) := by omega
  rw [getElem?_eq_getElem (by omega)] at dur
  obtain ⟨s, seg, body⟩ := bind_eq_some_iff.mp dur
  have synced := (ite_none_right_eq_some.mp body).1
  rw [prior, quot] at seg
  rw [prior, remainder] at synced
  exact ⟨s, seg, by omega⟩

/-- The segment of the first unflushed byte is not beyond the last segment. -/
theorem unflushed_le (shape : Shape g d' a st.writtenLsn) (sized : WellSized g d') :
    st.unflushedFirstSegment.filter (· ≤ a) = st.unflushedFirstSegment := by
  rw [streamed.unflushed]
  split
  · have := shape.div_le sized ‹_›
    simpa [Option.filter]
  · rfl

/-- The stream goes on where it is kept and the active segment ends it. -/
theorem move (kept : Kept g st.replayFloor st.writtenLsn d d')
    (shape : Shape g d' a st.writtenLsn) :
    Streamed g ⟨d', { st with activeNumber := a }⟩ bytes where
  sized := kept.sized
  ordered := streamed.ordered
  flushed_le := streamed.flushed_le
  written := streamed.written
  anchored := kept.anchored streamed.anchored
  holds := kept.holds streamed.written.le streamed.holds
  durable := (kept.mono streamed.flushed_le).durably
    (streamed.flushed_le.trans streamed.written.le) streamed.durable
  shape
  unflushed := streamed.unflushed

/-- Removing segments below the floor. -/
theorem below (kept : Kept g st.replayFloor st.writtenLsn d d')
    (same : ∀ m, st.replayFloor / g.payloadBytes ≤ m →
      d'.segments.lookup m = d.segments.lookup m) : Streamed g ⟨d', st⟩ bytes := by
  have floor := streamed.floor_le_active
  obtain ⟨s, seg, ends⟩ := streamed.shape.active
  refine streamed.move kept ⟨⟨s, ?_, ends⟩, fun m gt => ?_⟩
  · rw [Disk.segment, same _ floor]
    exact seg
  · rw [same m (floor.trans gt.le)]
    exact streamed.shape.last m gt

/-- A higher floor, at a position whose segment is complete. -/
theorem raise (l : st.replayFloor ≤ lsn) (h : lsn ≤ st.flushedLsn)
    (anchored : Anchored g d lsn) : Streamed g ⟨d, { st with replayFloor := lsn }⟩ bytes :=
  { streamed with
    ordered := h
    anchored
    holds := fun pos l' h' => streamed.holds pos (l.trans l') h'
    durable := fun pos l' h' => streamed.durable pos (l.trans l') h' }

/-- The segments from the first unflushed one to the active one. -/
theorem unflushed_segment {n : Nat} (kept : KeptAll g d d')
    (shape : Shape g d' st.activeNumber st.writtenLsn)
    (l : st.flushedLsn / g.payloadBytes ≤ n) (h : n ≤ st.activeNumber) :
    ∃ s, d'.segment n = some s := by
  obtain ⟨s, act, ends⟩ := shape.active
  obtain prior | rfl := lt_or_eq_of_le h
  · -- the last position of an earlier segment is in the stream
    have pos := g.pos
    have flushed : st.flushedLsn < (n + 1) * g.payloadBytes :=
      (Nat.div_lt_iff_lt_mul pos).mp (Nat.lt_succ_of_le l)
    have whole : (n + 1) * g.payloadBytes ≤ st.activeNumber * g.payloadBytes :=
      Nat.mul_le_mul_right _ prior
    rw [Nat.succ_mul] at flushed whole
    have floor : st.replayFloor ≤ st.flushedLsn := streamed.ordered
    have inside : st.writtenLsn ≤ bytes.length := streamed.written.le
    obtain ⟨s, seg, -⟩ :=
      ((kept st.replayFloor st.writtenLsn).holds inside streamed.holds).segment inside
        (n * g.payloadBytes + (g.payloadBytes - 1)) (by omega) (by omega)
    rw [(div_mod_of_parts g (by omega)).1] at seg
    exact ⟨s, seg⟩
  · exact ⟨s, act⟩

end Streamed

/-- **Reading** from the floor to the end gives what is retained of the bytes. -/
theorem Streamed.read (streamed : Streamed g ⟨d, st⟩ bytes) :
    ∃ reader, SegmentReader.readExactVec g d (st.writtenLsn - st.replayFloor)
      (.new st.replayFloor st.writtenLsn) = .ok (some (bytes.drop st.replayFloor), reader) := by
  have le : st.replayFloor ≤ st.writtenLsn := streamed.ordered.trans streamed.flushed_le
  have wrote : st.writtenLsn = bytes.length := streamed.written
  obtain ⟨reader, read, -⟩ := SegmentReader.readExactVec_holds streamed.holds wrote.le
    (st.writtenLsn - st.replayFloor) (SegmentReader.aligned_new st.replayFloor st.writtenLsn) le_rfl
    (by change st.replayFloor + _ ≤ st.writtenLsn; omega) le_rfl
  refine ⟨reader, read.trans ?_⟩
  change Except.ok (some ((bytes.drop st.replayFloor).take (st.writtenLsn - st.replayFloor)), reader) = _
  rw [take_of_length_le (by rw [length_drop]; omega)]

/-! ### Rules for the manager's sections -/

section Rules

variable {F : Prop} {C E : FileWal → Prop} {Q : Unit → FileWal → Prop} {α : Type}

theorem wp_walOnDisk {c : Prog DbError Disk α} {Q : α → FileWal → Prop}
    (inner : WP F (fun t => C ⟨t, st⟩) c (fun a t => Q a ⟨t, st⟩) (fun t => E ⟨t, st⟩) d) :
    WP F C (onDisk c) Q E ⟨d, st⟩ := WP.zoom inner

theorem wp_update {f : WalState → WalState} (post : Q () ⟨d, f st⟩) :
    WP F C (update f) Q E ⟨d, st⟩ := WP.modify post

theorem wp_poison {error : DbError} (post : Q () ⟨d, { st with poisoned := some error }⟩) :
    WP F C (poison error) Q E ⟨d, st⟩ := wp_update post

theorem wp_lockState {wal : FileWal} {Q : WalState → FileWal → Prop}
    (avail : wal.state.poisoned = none) (done : Q wal.state wal) : WP F C lockState Q E wal := by
  apply WP.bind
  apply WP.gets
  rw [avail]
  exact WP.pure done

theorem wp_lockState_poisoned {wal : FileWal} {Q : WalState → FileWal → Prop}
    (bad : wal.state.poisoned ≠ none) (failed : E wal) : WP F C lockState Q E wal := by
  obtain ⟨error, is⟩ := ne_none_iff_exists'.mp bad
  apply WP.bind
  apply WP.gets
  rw [is]
  exact WP.throw failed

/-- **Appending bytes.** -/
theorem wp_append (chunk : Bytes) (streamed : Streamed g ⟨d, st⟩ bytes)
    (done : ∀ d' a, KeptAll g d d' → Shape g d' a (st.writtenLsn + chunk.length) →
      Holds g d' st.replayFloor (st.writtenLsn + chunk.length) (bytes ++ chunk) →
      Q () ⟨d', { st with activeNumber := a }⟩)
    (hurt : F → ∀ d' a, KeptAll g d d' →
      (∀ m, (st.writtenLsn + chunk.length) / g.payloadBytes < m → d'.segments.lookup m = none) →
      E ⟨d', { st with activeNumber := a }⟩ ∧ C ⟨d', { st with activeNumber := a }⟩) :
    WP F C (onAppender (appendStream g st.writtenLsn chunk)) Q E ⟨d, st⟩ :=
  WP.zoom (wp_appendStream chunk streamed.written streamed.shape streamed.sized streamed.holds
    done hurt)

/-- The stream after an append. -/
theorem Streamed.append {chunk : Bytes} (streamed : Streamed g ⟨d, st⟩ bytes)
    (kept : KeptAll g d d') (at_ : lsn = st.writtenLsn + chunk.length)
    (shape : Shape g d' a lsn)
    (holds : Holds g d' st.replayFloor lsn (bytes ++ chunk)) : Streamed g ⟨d', { st with
      activeNumber := a
      writtenLsn := lsn
      unflushedFirstSegment := if st.flushedLsn < lsn then
        some (st.flushedLsn / g.payloadBytes) else none }⟩ (bytes ++ chunk) where
  sized := (kept 0 0).sized
  ordered := streamed.ordered
  flushed_le := by
    have : st.flushedLsn ≤ st.writtenLsn := streamed.flushed_le
    dsimp only
    omega
  written := by
    have : st.writtenLsn = bytes.length := streamed.written
    rw [length_append]
    dsimp only
    omega
  anchored := (kept st.replayFloor 0).anchored streamed.anchored
  holds
  durable := by
    have inside : st.flushedLsn ≤ bytes.length := streamed.flushed_le.trans streamed.written.le
    intro pos l h
    rw [getElem?_append_left (h.trans_le inside)]
    exact (kept st.replayFloor st.flushedLsn).durably inside streamed.durable pos l h
  shape
  unflushed := rfl

/-- **Truncating**, after an append that may have left segments up to `oldEnd`. -/
theorem wp_truncate {Q : Nat → FileWal → Prop} {st' : WalState} {floor hi pos oldEnd : Nat}
    (streamed : Streamed g ⟨d, st⟩ bytes) (same : floor = st.replayFloor) (kept : Kept g st.replayFloor hi d d')
    (le : hi ≤ st.writtenLsn) (l : st.replayFloor ≤ pos) (h : pos ≤ hi)
    (beyond : ∀ m, oldEnd / g.payloadBytes < m → d'.segments.lookup m = none)
    (done : ∀ t a, Kept g st.replayFloor pos d t → Shape g t a pos → Q a ⟨t, st'⟩)
    (hurt : F → ∀ t, Kept g st.replayFloor pos d t → E ⟨t, st'⟩ ∧ C ⟨t, st'⟩) :
    WP F C (onDisk (truncateStream g pos oldEnd floor)) Q E ⟨d', st'⟩ := by
  subst same
  obtain ⟨sized, -, s, seg, long⟩ := streamed.complete kept le l h
  apply wp_walOnDisk
  exact wp_truncateStream sized l seg long (fun m gt _ => beyond m gt)
    (fun t a after => done t a ((kept.mono h).trans after))
    fun may t after => hurt may t ((kept.mono h).trans after)

variable (g d st) in
/-- The loop of `sync_unflushed`, with `left` still to do. -/
structure Syncing (left : List Nat) (wal : FileWal) : Prop where
  state : wal.state = st
  kept : KeptAll g d wal.disk
  shape : Shape g wal.disk st.activeNumber st.writtenLsn
  bounds : ∀ n ∈ left, st.flushedLsn / g.payloadBytes ≤ n ∧ n ≤ st.activeNumber
  synced : ∀ n, st.flushedLsn / g.payloadBytes ≤ n → n ≤ st.activeNumber →
    n ∉ left → ∀ s, wal.disk.segment n = some s → s.synced = s.payload.length

theorem Syncing.next {n : Nat} {left : List Nat} (inv : Syncing g d st (n :: left) ⟨d', st⟩) :
    Syncing g d st left ⟨{ d' with segments := d'.segments.modify n Segment.sync }, st⟩ where
  state := rfl
  kept := inv.kept.trans (keptAll_sync (inv.kept 0 0).sized n)
  shape := inv.shape.sync n
  bounds m h := inv.bounds m (.tail _ h)
  synced m l h new s found := by
    rw [Disk.segment_modify (f := Segment.sync) (fun _ => rfl) rfl] at found
    split at found
    · obtain ⟨s', -, rfl⟩ := map_eq_some_iff.mp found
      rfl
    · rename_i other
      exact inv.synced m l h (by simp [other, new]) s found

/-- When every unflushed segment is synced, the stream is durable. -/
theorem Syncing.durable (inv : Syncing g d st [] ⟨d', st⟩)
    (streamed : Streamed g ⟨d, st⟩ bytes) : Durable g d' st.replayFloor st.writtenLsn bytes := by
  have inside : st.writtenLsn ≤ bytes.length := streamed.written.le
  have whole := inv.kept st.replayFloor st.writtenLsn
  intro pos l h
  obtain old | new := lt_or_ge pos st.flushedLsn
  · exact (inv.kept st.replayFloor st.flushedLsn).durably (streamed.flushed_le.trans inside)
      streamed.durable pos l old
  obtain ⟨s, seg, byte⟩ := (whole.holds inside streamed.holds).segment inside pos l h
  have last := inv.shape.div_le whole.sized h
  have synced := inv.synced _ (Nat.div_le_div_right new) last (by simp) s seg
  rw [List.getElem?_eq_getElem (h.trans_le inside)] at byte ⊢
  refine bind_eq_some_iff.mpr ⟨s, seg, ite_none_right_eq_some.mpr ⟨?_, byte⟩⟩
  rw [synced]
  exact (List.getElem?_eq_some_iff.mp byte).1

section

variable (streamed : Streamed g ⟨d, st⟩ bytes)

include streamed

/-- **Syncing**: `sync_unflushed` makes the whole stream durable. -/
theorem wp_syncUnflushed (done : ∀ d', KeptAll g d d' → Shape g d' st.activeNumber st.writtenLsn →
      Durable g d' st.replayFloor st.writtenLsn bytes → Q () ⟨d', st⟩)
    (hurt : F → ∀ d', KeptAll g d d' →
      Shape g d' st.activeNumber st.writtenLsn → E ⟨d', st⟩ ∧ C ⟨d', st⟩) :
    WP F C syncUnflushed Q E ⟨d, st⟩ := by
  have unflushed : st.unflushedFirstSegment = if st.flushedLsn < st.writtenLsn then _ else _ :=
    streamed.unflushed
  apply WP.bind
  apply WP.gets
  by_cases lt : st.flushedLsn < st.writtenLsn
  · rw [unflushed, if_pos lt]
    let first := st.flushedLsn / g.payloadBytes
    have start : Syncing g d st (range' first (st.activeNumber + 1 - first)) ⟨d, st⟩ :=
      { state := rfl
        kept := fun _ _ => .refl streamed.sized
        shape := streamed.shape
        bounds := fun n h => by
          rw [mem_range'_1] at h
          omega
        synced := fun n l h out => absurd (mem_range'_1.mpr (by omega)) out }
    refine WP.mono (WP.forEach (Syncing g d st) ?_ _ start) ?_ (fun _ e => e) fun _ c => c
    · intro n left wal inv
      obtain ⟨t, st'⟩ := wal
      obtain rfl : st' = st := inv.state
      obtain ⟨l, h⟩ := inv.bounds n (.head _ ..)
      obtain ⟨s, seg⟩ := streamed.unflushed_segment inv.kept inv.shape l h
      have disturbed' (may : F) := hurt may t inv.kept inv.shape
      have sync : WP F C (onDisk (syncSegment n)) (fun _ => Syncing g d st' left) E ⟨t, st'⟩ :=
        wp_walOnDisk (WP.atomic inv.next disturbed')
      apply WP.bind
      refine WP.when (fun _ => ?_) fun _ => sync
      apply WP.bind
      apply wp_walOnDisk
      exact wp_openSegment seg (WP.pure sync) disturbed'
    · intro _ wal inv
      obtain ⟨t, st'⟩ := wal
      obtain rfl : st' = st := inv.state
      exact done t inv.kept inv.shape (inv.durable streamed)
  · rw [unflushed, if_neg lt]
    have le : st.flushedLsn ≤ st.writtenLsn := streamed.flushed_le
    have all : st.flushedLsn = st.writtenLsn := by omega
    exact WP.pure (done d (fun _ _ => .refl streamed.sized) streamed.shape (all ▸ streamed.durable))

/-- The stream after a sync. -/
theorem Streamed.sync (kept : KeptAll g d d') (shape : Shape g d' st.activeNumber st.writtenLsn)
    (durable : Durable g d' st.replayFloor st.writtenLsn bytes) :
    Streamed g ⟨d', { st with flushedLsn := st.writtenLsn, unflushedFirstSegment := none }⟩
      bytes where
  sized := (kept 0 0).sized
  ordered := streamed.ordered.trans streamed.flushed_le
  flushed_le := le_rfl
  written := streamed.written
  anchored := (kept st.replayFloor 0).anchored streamed.anchored
  holds := (kept st.replayFloor st.writtenLsn).holds streamed.written.le streamed.holds
  durable
  shape
  unflushed := (if_neg (lt_irrefl st.writtenLsn)).symm

/-- The stream after a truncation. -/
theorem Streamed.truncate {position : Nat}
    (l : st.replayFloor ≤ position) (h : position ≤ st.writtenLsn)
    (kept : Kept g st.replayFloor position d d') (shape : Shape g d' a position) :
    Streamed g ⟨d', { st with
      activeNumber := a
      writtenLsn := position
      flushedLsn := min st.flushedLsn position
      unflushedFirstSegment := if min st.flushedLsn position < position then
        some (min st.flushedLsn position / g.payloadBytes) else none }⟩
      (bytes.take position) := by
  have inside : st.writtenLsn ≤ bytes.length := streamed.written.le
  have floor : st.replayFloor ≤ st.flushedLsn := streamed.ordered
  refine ⟨kept.sized, le_min floor l, min_le_right _ _, ?_, kept.anchored streamed.anchored, ?_, ?_,
    shape, rfl⟩
  · rw [length_take]
    dsimp only
    omega
  · intro pos l' h'
    rw [getElem?_take_of_lt h']
    exact kept.holds (h.trans inside)
      (fun pos l'' h'' => streamed.holds pos l'' (lt_of_lt_of_le h'' h)) pos l' h'
  intro pos l' h'
  dsimp only at h'
  rw [getElem?_take_of_lt (by omega)]
  exact (kept.mono (min_le_right st.flushedLsn position)).durably (by omega)
    (fun pos l'' h'' => streamed.durable pos l'' (h''.trans_le (min_le_left _ _))) pos l' h'

/-- The floor moves only to a position whose segment is complete: where the stream ends
with a full segment, `recycle_through` creates the next one. -/
theorem wp_ensureSuccessor (l : st.replayFloor ≤ lsn) (h : lsn ≤ st.flushedLsn)
    (done : ∀ t a, Kept g st.replayFloor st.writtenLsn d t →
      Shape g t a st.writtenLsn → Anchored g t lsn → Q () ⟨t, { st with activeNumber := a }⟩)
    (hurt : F → ∀ t, Kept g st.replayFloor st.flushedLsn d t → E ⟨t, st⟩ ∧ C ⟨t, st⟩) :
    WP F C (ensureSuccessor g lsn) Q E ⟨d, st⟩ := by
  have same : Kept g st.replayFloor st.writtenLsn d d := .refl streamed.sized
  apply WP.bind
  apply WP.gets
  apply WP.when
  · intro cond
    simp only [Bool.and_eq_true, decide_eq_true_eq] at cond
    obtain ⟨rfl, zero⟩ := cond
    have divMod := Nat.div_add_mod' st.writtenLsn g.payloadBytes
    have active_le := streamed.shape.active_le streamed.sized
    apply WP.bind
    apply wp_walOnDisk
    apply WP.gets
    apply WP.when
    · intro gone
      have gone : d.segments.lookup (st.writtenLsn / g.payloadBytes) = none := by
        simpa using gone
      have fresh : d.segment (st.writtenLsn / g.payloadBytes) = none := by
        rw [Disk.segment, gone]
        rfl
      have created := ((Touched.refl streamed.sized).putHeader (n := st.writtenLsn /
        g.payloadBytes) (.valid (st.writtenLsn / g.payloadBytes))).unlink []
      apply WP.bind
      apply wp_walOnDisk
      refine wp_createSegment gone streamed.sized ?_ fun may t hit =>
        hurt may t (hit.kept fresh)
      apply wp_update
      refine done _ _ (created.kept fresh) ⟨?_, ?_⟩ ?_
      · exact ⟨_, Disk.segment_eq_some.mpr ⟨lookup_insert _, rfl⟩, by
          simp only [length_nil]; omega⟩
      · intro m gt
        exact (lookup_insert_ne (ne_of_gt gt)).trans (streamed.shape.last m (active_le.trans_lt gt))
      · exact ⟨_, Disk.segment_eq_some.mpr ⟨lookup_insert _, rfl⟩, by omega⟩
    · -- the active segment is already the one at the end
      intro found
      obtain ⟨s, seg, -⟩ := streamed.shape.active
      have here : st.writtenLsn / g.payloadBytes = st.activeNumber := by
        obtain here | ⟨next, -⟩ := streamed.shape.position streamed.sized
        · exact here
        · rw [next, streamed.shape.last _ (Nat.lt_succ_self _)] at found
          cases found
      exact done d st.activeNumber same streamed.shape ⟨s, here ▸ seg, by omega⟩
  · intro other
    refine done d st.activeNumber same streamed.shape
      (streamed.anchored_at l h ?_)
    rintro ⟨eq, zero⟩
    simp [eq, eq ▸ zero] at other

end

end Rules

/-! ### The tape -/

/-- What can be done to the stream of bytes. -/
inductive TapeOp where
  | append (chunk : Bytes)
  | sync
  | truncate (position : Nat)
  | recycle (position : Nat)
  deriving DecidableEq

/-- The byte string that the segment files stand for: everything up to `floor` may be
gone, and everything up to `flushed` is on stable storage. -/
structure Tape where
  bytes : Bytes
  floor : Nat
  flushed : Nat
  deriving DecidableEq

def Tape.step (tape : Tape) : TapeOp → Option Tape
  | .append chunk => some { tape with bytes := tape.bytes ++ chunk }
  | .sync => some { tape with flushed := tape.bytes.length }
  | .truncate position =>
    if tape.floor ≤ position ∧ position ≤ tape.bytes.length then
      some { tape with bytes := tape.bytes.take position, flushed := min tape.flushed position }
    else none
  | .recycle position =>
    if tape.floor ≤ position ∧ position ≤ tape.flushed then some { tape with floor := position }
    else none

namespace Segments

variable (g) in
/-- The position fields for a stream that ends at `written`. -/
def reposition (flushed written : Nat) (state : WalState) : WalState := { state with
    writtenLsn := written
    flushedLsn := flushed
    unflushedFirstSegment :=
      if flushed < written then some (flushed / g.payloadBytes) else none }

variable (g) in
/-- The same operations on the segment files, by the functions of `segment.rs` and
the successor rule of `recycle_through`. -/
def perform : TapeOp → Prog DbError FileWal Unit
  | .append chunk => do
      let state ← .gets FileWal.state
      onAppender (appendStream g state.writtenLsn chunk)
      update (reposition g state.flushedLsn (state.writtenLsn + chunk.length))
  | .sync => do
      syncUnflushed
      update fun state => reposition g state.writtenLsn state.writtenLsn state
  | .truncate position => do
      let state ← .gets FileWal.state
      let activeNumber ← onDisk
        (truncateStream g position state.writtenLsn state.replayFloor)
      update fun state =>
        { reposition g (min state.flushedLsn position) position state with activeNumber }
  | .recycle position => do
      let state ← .gets FileWal.state
      ensureSuccessor g position
      update fun state => { state with replayFloor := position }
      onDisk (recycleSegments g state.replayFloor position)

variable (g) in
/-- One operation, undisturbed. -/
def step (wal : FileWal) (op : TapeOp) : Option FileWal :=
  match perform g op ⟨wal, []⟩ with
  | (.ok (), m) => some m.state
  | _ => none

variable (g) in
/-- A manager's fields beside a directory that `initialize` has just made. -/
def fresh : FileWal where
  disk := (initializeWal g ⟨Disk.empty, []⟩).2.state
  state :=
    { activeNumber := 0
      unflushedFirstSegment := none
      replayFloor := 0
      writtenLsn := 0
      flushedLsn := 0
      clog := .new
      pendingCommits := []
      vacuumFloor := FIRST_NORMAL_XID
      clogLoadedFromSnapshot := false
      recycleBoundary := none
      poisoned := none }

variable (g) in
/-- The segment files stand for the tape. -/
structure Represents (tape : Tape) (wal : FileWal) : Prop extends
    Streamed g wal tape.bytes where
  floor : wal.state.replayFloor = tape.floor
  flushed : wal.state.flushedLsn = tape.flushed

theorem fresh_represents : Represents g ⟨[], 0, 0⟩ (fresh g) := by
  have disk : (fresh g).disk =
      { ({ Disk.empty with walDir := true, walMeta := some ⟨0, 0⟩ } : Disk).putHeader 0 (.valid 0) with
        unlinked := [] } := rfl
  have first : (fresh g).disk.segments.lookup 0 = some ⟨.valid 0, [], 0⟩ := by
    rw [disk]
    exact lookup_insert _
  have others (n : Nat) (other : n ≠ 0) : (fresh g).disk.segments.lookup n = none := by
    rw [disk]
    exact (lookup_insert_ne other).trans (lookup_empty n)
  refine ⟨⟨?_, le_rfl, le_rfl, rfl, disk ▸ anchored_putHeader [], ?_, ?_, ⟨?_, ?_⟩, rfl⟩, rfl, rfl⟩
  · intro n s found
    by_cases zero : n = 0
    · cases (zero ▸ found).symm.trans first
      exact ⟨le_rfl, Nat.zero_le _⟩
    · rw [others n zero] at found
      cases found
  · exact fun _ _ h => nomatch h
  · exact fun _ _ h => nomatch h
  · exact ⟨_, Disk.segment_eq_some.mpr ⟨first, rfl⟩, zero_mul _⟩
  · exact fun n gt => others n (ne_of_gt gt)

/-- An operation whose rule holds without faults is performed. -/
theorem step_of_wp {wal : FileWal} {op : TapeOp} {P : FileWal → Prop}
    (spec : WP False (fun _ => False) (perform g op) (fun _ => P) (fun _ => False) wal) :
    ∃ wal', step g wal op = some wal' ∧ P wal' := by
  obtain ⟨_, m, ran, post⟩ := WP.run_undisturbed spec
  exact ⟨m.state, by rw [step, ran], post⟩

variable {tape tape' : Tape} {wal : FileWal} {op : TapeOp}

/-- **One operation.** -/
theorem step_represents (represents : Represents g tape wal) (taken : tape.step op = some tape') :
    ∃ wal', step g wal op = some wal' ∧ Represents g tape' wal' := by
  obtain ⟨d, st⟩ := wal
  obtain ⟨streamed, floor, flushed⟩ := represents
  have wrote : st.writtenLsn = tape.bytes.length := streamed.written
  have flushed_le : st.flushedLsn ≤ st.writtenLsn := streamed.flushed_le
  apply step_of_wp
  cases op with
  | append chunk =>
    cases taken
    apply WP.bind
    apply WP.gets
    apply WP.bind
    refine wp_append chunk streamed (fun d' a kept shape holds => ?_) fun may => may.elim
    apply wp_update
    exact ⟨{ streamed.append kept rfl shape holds with }, floor, flushed⟩
  | sync =>
    cases taken
    apply WP.bind
    refine wp_syncUnflushed streamed (fun d' kept shape dur => ?_) fun may => may.elim
    apply wp_update
    have synced := streamed.sync kept shape dur
    refine ⟨{ synced with unflushed := ?_ }, floor, wrote⟩
    rfl
  | truncate pos =>
    obtain ⟨⟨l, h⟩, same⟩ := ite_none_right_eq_some.mp taken
    cases same
    rw [← floor] at l
    rw [← wrote] at h
    apply WP.bind
    apply WP.gets
    apply WP.bind
    refine wp_truncate streamed rfl (.refl streamed.sized) le_rfl l h
      (fun m gt => streamed.shape.last m ((streamed.shape.active_le streamed.sized).trans_lt gt))
      (fun t a kept shape => ?_) fun may => may.elim
    apply wp_update
    refine ⟨streamed.truncate l h kept shape, floor, ?_⟩
    exact congrArg (min · pos) flushed
  | recycle pos =>
    obtain ⟨⟨l, h⟩, same⟩ := ite_none_right_eq_some.mp taken
    cases same
    rw [← floor] at l
    rw [← flushed] at h
    apply WP.bind
    apply WP.gets
    apply WP.bind
    refine wp_ensureSuccessor streamed l h (fun t a kept shape anchored => ?_) fun may => may.elim
    apply WP.bind
    apply wp_update
    apply wp_walOnDisk
    have moved := (streamed.move kept shape).raise l h anchored
    refine wp_recycleSegments moved.sized
      (fun t' (kept' : Kept g pos st.writtenLsn t t') others => ?_) fun may => may.elim
    exact ⟨moved.below kept' others, rfl, flushed⟩

/-- **The segment files refine the tape**: whatever can be done to the byte string is
done on the files, without an error. -/
theorem refines (g : Geometry) {ops : List TapeOp} (run : Run Tape.step (fun _ _ => True) ⟨[], 0, 0⟩ ops tape) :
    ∃ wal, Run (step g) (fun _ _ => True) (fresh g) ops wal ∧ Represents g tape wal := by
  have follow (tape : Tape) (wal : FileWal) (op : TapeOp) (tape' : Tape)
      (represents : Represents g tape wal) (moved : tape.step op = some tape') :
      ∃ wal', step g wal op = some wal' ∧ Represents g tape' wal' :=
    step_represents represents moved
  exact run.simulate follow fresh_represents

end Segments

end Saguaro.Wal
