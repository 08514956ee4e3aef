/-
Finding the stream again after a crash.

`Survives d d'` is what a crash makes of a directory: files that are replaced by
rename are as they were, and of every complete segment the synced bytes are there,
followed by anything. `Recoverable` is what every step of the WAL manager keeps and
every crash leaves: the bytes between the recorded floor and the recorded durable
end are on stable storage. From it, `initialize` and `discover_end` succeed, and
the end they find is not before the recorded one.
-/

import Saguaro.Wal.Stream

namespace Saguaro.Wal

open Crash Option AList

variable (g : Geometry)

/-- What a crash leaves of the directory `d`. A file that was never complete, or that
was removed without a sync of the directory, can be anything. -/
structure Survives (d d' : Disk) : Prop where
  walDir : d'.walDir = d.walDir
  walMeta : d'.walMeta = d.walMeta
  clog : d'.clog = d.clog
  manifest : d'.manifest = d.manifest
  sized : WellSized g d'
  complete : ∀ n s, d.segment n = some s → ∃ s', d'.segment n = some s' ∧ s.KeptTo s.synced s'
  absent : ∀ n, d.segments.lookup n = none → n ∉ d.unlinked → d'.segments.lookup n = none
  linked : d'.unlinked = []

/-- The state of a directory that has no metadata file yet. -/
structure Untouched (d : Disk) : Prop where
  walMeta : d.walMeta = none
  clog : d.clog = none
  manifest : d.manifest = false
  segments : ∀ n, d.segments.lookup n = none
  linked : d.unlinked = []

/-- What the metadata file records of `stream` is on stable storage. Only the very
first segment may be missing, before anything was made durable. -/
structure Recorded (d : Disk) (found : WalMeta) (stream : Bytes) : Prop where
  walDir : d.walDir = true
  walMeta : d.walMeta = some found
  sized : WellSized g d
  ordered : found.replayFloor ≤ found.durableEnd
  inside : found.durableEnd ≤ stream.length
  durable : Durable g d found.replayFloor found.durableEnd stream
  anchored : Anchored g d found.replayFloor ∨ found = ⟨0, 0⟩ ∧ d.clog = none ∧ d.manifest = false

/-- A directory from which the WAL can be opened again. -/
def Recoverable (d : Disk) (stream : Bytes) : Prop :=
  Untouched d ∨ ∃ found, Recorded g d found stream

namespace Recorded

variable {g} {d d' : Disk} {found : WalMeta} {stream : Bytes}

theorem kept (recorded : Recorded g d found stream)
    (kept : Kept g found.replayFloor found.durableEnd d d') : Recorded g d' found stream where
  walDir := kept.walDir.trans recorded.walDir
  walMeta := kept.walMeta.trans recorded.walMeta
  sized := kept.sized
  ordered := recorded.ordered
  inside := recorded.inside
  durable := kept.durably recorded.inside recorded.durable
  anchored := recorded.anchored.imp kept.anchored fun ⟨first, clog, manifest⟩ =>
    ⟨first, kept.clog.trans clog, kept.manifest.trans manifest⟩

/-- The same for the stream up to the durable end or beyond. -/
theorem of_append {rest : Bytes} (noted : Recorded g d found (stream ++ rest))
    (inside : found.durableEnd ≤ stream.length) : Recorded g d found stream := { noted with
    inside
    durable := fun pos l h => by
      rw [noted.durable pos l h, List.getElem?_append_left (by omega)] }

/-- A crash keeps what is recorded. -/
theorem survives (recorded : Recorded g d found stream) (crash : Survives g d d') :
    Recorded g d' found stream where
  walDir := crash.walDir.trans recorded.walDir
  walMeta := crash.walMeta.trans recorded.walMeta
  sized := crash.sized
  ordered := recorded.ordered
  inside := recorded.inside
  durable := by
    intro pos l h
    have byte := recorded.durable pos l h
    have := recorded.inside
    rw [List.getElem?_eq_getElem (by omega)] at byte ⊢
    obtain ⟨s, segment, payload⟩ := bind_eq_some_iff.mp byte
    obtain ⟨synced, payload⟩ := ite_none_right_eq_some.mp payload
    obtain ⟨s', segment', kept⟩ := crash.complete _ s segment
    obtain ⟨bytes, stays⟩ := kept _ synced
    exact bind_eq_some_iff.mpr ⟨s', segment',
      ite_none_right_eq_some.mpr ⟨stays synced, bytes _ payload⟩⟩
  anchored := by
    refine recorded.anchored.imp ?_ fun ⟨first, clog, manifest⟩ =>
      ⟨first, crash.clog.trans clog, crash.manifest.trans manifest⟩
    rintro ⟨s, segment, synced⟩
    obtain ⟨s', segment', kept⟩ := crash.complete _ s segment
    refine ⟨s', segment', ?_⟩
    rcases eq_zero_or_pos (found.replayFloor % g.payloadBytes) with zero | positive
    · omega
    · have := (kept (found.replayFloor % g.payloadBytes - 1) (by omega)).2 (by omega)
      omega

end Recorded

theorem Untouched.survives {g : Geometry} {d d' : Disk} (fresh : Untouched d)
    (crash : Survives g d d') : Untouched d' where
  walMeta := crash.walMeta.trans fresh.walMeta
  clog := crash.clog.trans fresh.clog
  manifest := crash.manifest.trans fresh.manifest
  segments n := crash.absent n (fresh.segments n) (by simp [fresh.linked])
  linked := crash.linked

/-! ### The segments of the recorded range -/

section Discover

variable {g} {d : Disk} {lo hi : Nat} {stream : Bytes}

/-- The segment and the offset of a position that is given by them. -/
theorem div_mod_of_parts (g : Geometry) {n i : Nat} (lt : i < g.payloadBytes) :
    (n * g.payloadBytes + i) / g.payloadBytes = n ∧
      (n * g.payloadBytes + i) % g.payloadBytes = i := by
  rw [mul_comm, Nat.mul_add_div g.pos, Nat.mul_add_mod, Nat.div_eq_of_lt lt, Nat.mod_eq_of_lt lt]
  exact ⟨rfl, rfl⟩

/-- The last segment with durable bytes is the one a truncation to the durable end
would keep. -/
theorem lastWithDurableBytes_eq : lastWithDurableBytes g lo hi = (truncateTarget g hi lo).1 := by
  unfold lastWithDurableBytes truncateTarget
  by_cases bound : hi > lo ∧ hi % g.payloadBytes = 0
  · rw [if_pos bound, if_pos ⟨by omega, bound.2, bound.1⟩]
  · rw [if_neg bound, if_neg fun ⟨_, exact_, below⟩ => bound ⟨below, exact_⟩]

/-- A durable end behind the floor has bytes in its segment. -/
theorem truncateTarget_pos (g : Geometry) (lt : lo < hi) : 0 < (truncateTarget g hi lo).2 := by
  unfold truncateTarget
  split
  · exact g.pos
  · rename_i other
    exact pos_of_ne_zero fun zero => other ⟨by omega, zero, lt⟩

variable (g) in
/-- Every segment from that of the floor to that of the durable end is complete, and
full unless it is the last. -/
structure Complete (d : Disk) (lo hi : Nat) : Prop where
  sized : WellSized g d
  full : ∀ n, lo / g.payloadBytes ≤ n → n < (truncateTarget g hi lo).1 →
    ∃ s, d.segment n = some s ∧ s.payload.length = g.payloadBytes
  last : ∃ s, d.segment (truncateTarget g hi lo).1 = some s ∧
    (truncateTarget g hi lo).2 ≤ s.payload.length

theorem complete_of_holds (le : lo ≤ hi) (inside : hi ≤ stream.length)
    (sized : WellSized g d) (holds : Holds g d lo hi stream)
    (anchored : Anchored g d lo) : Complete g d lo hi := by
  obtain ⟨stands, short, above⟩ := truncateTarget_spec g le
  have at_ (pos : Nat) (l : lo ≤ pos) (h : pos < hi) : ∃ s,
      d.segment (pos / g.payloadBytes) = some s ∧ pos % g.payloadBytes < s.payload.length := by
    obtain ⟨s, seg, byte⟩ := holds.segment inside pos l h
    rw [List.getElem?_eq_getElem (l := stream) (by omega)] at byte
    exact ⟨s, seg, (List.getElem?_eq_some_iff.mp byte).1⟩
  have pos := g.pos
  refine ⟨sized, ?_, ?_⟩
  · -- the last position of a segment before the last one is durable
    intro n first prior
    have floor : lo < (n + 1) * g.payloadBytes :=
      (Nat.div_lt_iff_lt_mul pos).mp (Nat.lt_succ_of_le first)
    have ends : (n + 1) * g.payloadBytes ≤ (truncateTarget g hi lo).1 *
      g.payloadBytes := Nat.mul_le_mul_right _ prior
    rw [Nat.succ_mul] at floor ends
    obtain ⟨quot, remainder⟩ := div_mod_of_parts g (i := g.payloadBytes - 1) (by omega)
    obtain ⟨s, seg, body⟩ := at_ (n * g.payloadBytes + (g.payloadBytes - 1)) (by omega) (by omega)
    rw [quot] at seg
    rw [remainder] at body
    have bound := (sized n s (Disk.segment_eq_some.mp seg).1).2
    exact ⟨s, seg, by omega⟩
  rcases lt_or_eq_of_le le with lt | rfl
  · -- so is the last position before the end
    have positive := truncateTarget_pos g lt
    obtain ⟨quot, remainder⟩ := div_mod_of_parts g (i := (truncateTarget g hi lo).2 - 1) (by omega)
    obtain ⟨s, seg, body⟩ := at_ ((truncateTarget g hi lo).1 * g.payloadBytes +
      ((truncateTarget g hi lo).2 - 1)) (by omega) (by omega)
    rw [quot] at seg
    rw [remainder] at body
    exact ⟨s, seg, by omega⟩
  -- an empty range: the floor itself is anchored
  obtain ⟨s, seg, synced⟩ := anchored
  have target : truncateTarget g lo lo =
      (lo / g.payloadBytes, lo % g.payloadBytes) := if_neg (by omega)
  rw [target]
  exact ⟨s, seg, synced.trans (sized _ s (Disk.segment_eq_some.mp seg).1).1⟩

variable {F : Prop} {C E : Disk → Prop} {Q : Nat → Disk → Prop} {s : Segment}

theorem wp_walkSegments (sized : WellSized g d) (left number : Nat)
    (full : ∀ m, number ≤ m → m < number + left →
      ∃ t, d.segment m = some t ∧ t.payload.length = g.payloadBytes)
    (last : d.segment (number + left) = some s)
    (done : Q ((number + left) * g.payloadBytes + s.payload.length) d)
    (hurt : F → E d ∧ C d) : WP F C (walkSegments g number left) Q E d := by
  induction left generalizing number with
  | zero =>
    apply WP.bind
    refine wp_openSegment last ?_ hurt
    apply WP.bind
    refine WP.ensure (fun _ => WP.pure done) fun long => ?_
    have := (sized _ s (Disk.segment_eq_some.mp last).1).2
    exact absurd this (by simpa using long)
  | succ left ih =>
    obtain ⟨t, found, length⟩ := full number le_rfl (by omega)
    apply WP.bind
    refine wp_openSegment found ?_ hurt
    apply WP.bind
    refine WP.ensure (fun _ => ?_) fun long => absurd length.le (by simpa using long)
    apply WP.bind
    refine WP.ensure (fun _ => ?_) fun other => absurd length (by simpa using other)
    rw [← add_assoc, add_right_comm] at last done
    exact ih (number + 1) (fun m l h => full m (by omega) (by omega)) last done

/-- A complete last segment is not dropped. -/
theorem wp_dropIncomplete {first highest : Nat} (found : d.segment highest = some s)
    (done : Q highest d) (hurt : F → E d ∧ C d) :
    WP F C (dropIncomplete first (highest + 1)) Q E d := by
  obtain ⟨lookup, head⟩ := Disk.segment_eq_some.mp found
  apply WP.bind
  refine WP.read_ok (by rw [lookup]) ?_ hurt
  rw [if_pos (.inl (by rw [head]; exact SegmentHeader.noConfusion))]
  exact WP.pure done

/-- **The discovered end.** Segments beyond the last one with durable bytes are
removed, whatever is in them; the end is that of the last one. -/
theorem wp_discoverEnd (complete : Complete g d lo hi) (le : lo ≤ hi)
    (done : ∀ d' s, Kept g lo hi d d' → d'.segment (truncateTarget g hi lo).1 = some s →
      (truncateTarget g hi lo).2 ≤ s.payload.length →
      (∀ m, (truncateTarget g hi lo).1 < m → d'.segments.lookup m = none) →
      Q ((truncateTarget g hi lo).1 * g.payloadBytes + s.payload.length) d')
    (hurt : F → ∀ d', Kept g lo hi d d' → E d' ∧ C d') : WP F C (discoverEnd g lo hi) Q E d := by
  obtain ⟨stands, short, above⟩ := truncateTarget_spec g le
  obtain ⟨sized, full, s, found, long⟩ := complete
  unfold discoverEnd
  rw [lastWithDurableBytes_eq]
  generalize truncateTarget g hi lo = target at *
  obtain ⟨last, k⟩ := target
  dsimp only at stands short above full found long done ⊢
  have listed (m : Nat) (h : m ∈ d.segments.keys.filter (· > last)) : last < m := by
    simpa using (List.mem_filter.mp h).2
  have later (m : Nat) (gt : last < m) : hi ≤ m * g.payloadBytes :=
    calc hi ≤ (last + 1) * g.payloadBytes := by rw [Nat.succ_mul]; omega
      _ ≤ m * g.payloadBytes := Nat.mul_le_mul_right _ gt
  apply WP.bind
  refine WP.read_ok rfl ?_ fun may => hurt may d (.refl sized)
  apply WP.bind
  refine wp_removeAll sized (fun m h => .inr ⟨by have := listed m h; omega, later m (listed m h)⟩)
    (fun d₁ rem => ?_) hurt
  have kept₁ := rem.kept
  have stays (m : Nat) (h : m ≤ last) : d₁.segment m = d.segment m := by
    rw [Disk.segment, rem.others m (fun mem => by have := listed m mem; omega), Disk.segment]
  have gone (m : Nat) (gt : last < m) : d₁.segments.lookup m = none := by
    by_cases mem : m ∈ d.segments.keys.filter (· > last)
    · exact rem.gone m mem (by simp)
    · rw [rem.others m mem, lookup_eq_none]
      exact fun key => mem (List.mem_filter.mpr ⟨key, by simpa using gt⟩)
  have highest : (d₁.segments.keys.filter (· ≥ lo / g.payloadBytes)).max? = some last := by
    refine List.max?_eq_some_iff.mpr ⟨List.mem_filter.mpr ⟨?_, by simpa using above⟩, ?_⟩
    · have here := (Disk.segment_eq_some.mp ((stays last le_rfl).trans found)).1
      exact lookup_isSome.mp (by rw [here]; rfl)
    intro m mem
    by_contra gt
    have here := lookup_isSome.mpr (mem_keys.mpr (List.mem_filter.mp mem).1)
    rw [gone m (by omega)] at here
    cases here
  apply WP.bind
  refine WP.read_ok rfl ?_ fun may => hurt may d₁ kept₁
  rw [highest]
  apply WP.bind
  refine wp_dropIncomplete ((stays last le_rfl).trans found) ?_ fun may => hurt may d₁ kept₁
  have count : lo / g.payloadBytes + (last - lo / g.payloadBytes) = last := by omega
  refine wp_walkSegments (s := s) kept₁.sized _ _ ?_ ?_ ?_ fun may => hurt may d₁ kept₁
  · intro m l h
    rw [stays m (by omega)]
    exact full m l (by omega)
  · rw [count, stays last le_rfl]
    exact found
  · rw [count]
    exact done d₁ s kept₁ ((stays last le_rfl).trans found) long gone

end Discover

/-! ### Initialising -/

section Initialize

variable {g} {F : Prop} {C E : Disk → Prop} {d : Disk} {new : WalMeta}

/-- Replacing the metadata file never fails halfway: it returns, with an error or
without, and says whether the new file is visible. -/
theorem wp_writeMetaWithOutcome {Q : Except MetaWriteFailure Unit → Disk → Prop}
    (done : Q (.ok ()) { d with walMeta := some new, unlinked := [] })
    (bad : F → ∀ error, Q (.error ⟨error, false⟩) d)
    (visible : F → ∀ error, Q (.error ⟨error, true⟩) { d with walMeta := some new })
    (prior : F → C d) (after : F → C { d with walMeta := some new }) :
    WP F C (writeMetaWithOutcome new) Q E d := by
  have same (may : F) (error : DbError) : WP F C
      (pure (.error ⟨error, false⟩) : Prog DbError Disk (Except MetaWriteFailure Unit)) Q E d :=
    WP.pure (bad may error)
  apply WP.tryCatch
  apply WP.bind
  refine WP.atomic ?_ fun may => ⟨same may, prior may⟩
  apply WP.bind
  refine WP.atomic ?_ fun may => ⟨same may, prior may⟩
  apply WP.tryCatch
  apply WP.bind
  refine WP.atomic (WP.pure done) fun may => ⟨fun error => WP.pure (visible may error), after may⟩

theorem wp_writeMeta {Q : Unit → Disk → Prop}
    (done : Q () { d with walMeta := some new, unlinked := [] })
    (prior : F → E d ∧ C d)
    (after : F → E { d with walMeta := some new } ∧ C { d with walMeta := some new }) :
    WP F C (writeMeta new) Q E d := by
  apply WP.bind
  exact wp_writeMetaWithOutcome (WP.pure done) (fun may _ => WP.throw (prior may).1)
    (fun may _ => WP.throw (after may).1) (fun may => (prior may).2) fun may => (after may).2

variable (g) in
/-- What `initialize` may do to the directory `d`, finished or not. -/
structure Began (d d' : Disk) (stream : Bytes) : Prop where
  recoverable : Recoverable g d' stream
  clog : d'.clog = d.clog
  manifest : d'.manifest = d.manifest
  walMeta : d'.walMeta = d.walMeta ∨ d.walMeta = none ∧ d'.walMeta = some ⟨0, 0⟩

variable {Q : Unit → Disk → Prop} {stream : Bytes} {found : WalMeta}

theorem Untouched.sized (fresh : Untouched d) : WellSized g d := by
  intro n s lookup
  rw [fresh.segments n] at lookup
  cases lookup

/-- A directory with metadata for an empty stream and nothing durable beside it. -/
theorem recorded_fresh (walDir : d.walDir = true) (walMeta : d.walMeta = some ⟨0, 0⟩)
    (sized : WellSized g d) (clog : d.clog = none) (manifest : d.manifest = false) :
    Recorded g d ⟨0, 0⟩ stream where
  walDir := walDir
  walMeta := walMeta
  sized := sized
  ordered := le_rfl
  inside := Nat.zero_le _
  durable := fun _ _ h => nomatch h
  anchored := .inr ⟨rfl, clog, manifest⟩

theorem anchored_putHeader (u : List Nat) :
    Anchored g { d.putHeader 0 (.valid 0) with unlinked := u } 0 := by
  refine ⟨⟨.valid 0, [], 0⟩, ?_, ?_⟩
  · rw [Nat.zero_div]
    exact Disk.segment_eq_some.mpr ⟨lookup_insert _, rfl⟩
  · rw [Nat.zero_mod]

/-- Creating segment 0 of an empty stream. -/
theorem wp_createFirst (stream : Bytes) (walDir : d.walDir = true) (walMeta : d.walMeta = some ⟨0, 0⟩)
    (sized : WellSized g d) (clog : d.clog = none) (man : d.manifest = false)
    (gone : d.segments.lookup 0 = none)
    (done : ∀ d', Recorded g d' ⟨0, 0⟩ stream → Anchored g d' 0 → d'.clog = none →
      d'.manifest = false → Q () d')
    (hurt : F → ∀ d', Recorded g d' ⟨0, 0⟩ stream → d'.clog = none →
      d'.manifest = false → E d' ∧ C d') : WP F C (createSegment 0) Q E d := by
  have fresh (d' : Disk) (hit : Touched g 0 d d') : Recorded g d' ⟨0, 0⟩ stream :=
    recorded_fresh (hit.walDir.trans walDir) (hit.walMeta.trans walMeta) hit.sized
      (hit.clog.trans clog) (hit.manifest.trans man)
  have start : Touched g 0 d d := .refl sized
  have created := (start.putHeader (.valid 0)).unlink []
  exact wp_createSegment gone sized (done _ (fresh _ created) (anchored_putHeader []) clog man)
    fun may d' hit => hurt may d' (fresh d' hit) (hit.clog.trans clog)
      (hit.manifest.trans man)

/-- With metadata present, the segment of the floor is there or is made again. -/
theorem wp_initializeFirst (noted : Recorded g d found stream)
    (done : ∀ d', Recorded g d' found stream → Anchored g d' found.replayFloor →
      d'.clog = d.clog → d'.manifest = d.manifest → Q () d')
    (hurt : F → ∀ d', Recorded g d' found stream → d'.clog = d.clog →
      d'.manifest = d.manifest → E d' ∧ C d') :
    WP F C (initializeFirst g found (d.manifest || d.clog.isSome)) Q E d := by
  apply WP.bind
  apply WP.gets
  cases lookup : d.segments.lookup (found.replayFloor / g.payloadBytes) with
  | some s =>
    refine WP.when (fun fresh => ?_) fun kept => ?_
    · -- nothing was ever durable: segment 0 is made again
      simp only [Bool.and_eq_true, decide_eq_true_eq, Bool.not_eq_true', Bool.or_eq_false_iff,
        isSome_eq_false_iff, isNone_iff_eq_none] at fresh
      obtain ⟨⟨floor, durableEnd⟩, man, clog⟩ := fresh
      obtain rfl : found = ⟨0, 0⟩ := by cases found; simp_all
      have start : Touched g 0 d d := .refl noted.sized
      have erased := start.erase (u := 0 :: d.unlinked)
      have state (d' : Disk) (hit : Touched g 0 d d') : Recorded g d' ⟨0, 0⟩ stream :=
        recorded_fresh (hit.walDir.trans noted.walDir)
          (hit.walMeta.trans noted.walMeta) hit.sized (hit.clog.trans clog)
          (hit.manifest.trans man)
      apply WP.bind
      refine WP.atomic ?_ fun may => hurt may d noted rfl rfl
      apply WP.bind
      refine WP.atomic ?_ fun may => hurt may _ (state _ erased) rfl rfl
      refine wp_createFirst stream noted.walDir noted.walMeta erased.sized clog man
        (lookup_erase _ _) (fun d' new anchored clog' man' => ?_)
        fun may d' new clog' man' => ?_
      · exact done d' new anchored (clog'.trans clog.symm) (man'.trans man.symm)
      · exact hurt may d' new (clog'.trans clog.symm) (man'.trans man.symm)
    · rcases noted.anchored with anchored | ⟨rfl, clog, man⟩
      · exact done d noted anchored rfl rfl
      · simp [clog, man] at kept
  | none =>
    rcases noted.anchored with ⟨s, seg, -⟩ | ⟨rfl, clog, man⟩
    · rw [Disk.segment, lookup] at seg
      cases seg
    rw [Nat.zero_div] at lookup
    apply WP.bind
    refine WP.ensure (fun _ => ?_) (by simp [clog, man])
    refine wp_createFirst stream noted.walDir noted.walMeta noted.sized clog man lookup
      (fun d' new anchored clog' man' => ?_) fun may d' new clog' man' => ?_
    · exact done d' new anchored (clog'.trans clog.symm) (man'.trans man.symm)
    · exact hurt may d' new (clog'.trans clog.symm) (man'.trans man.symm)

/-- Without metadata, it is written for the empty stream and segment 0 is created. -/
theorem wp_initializeMeta (stream : Bytes) (clean : Untouched d) (walDir : d.walDir = true)
    (done : ∀ d', Recorded g d' ⟨0, 0⟩ stream → Anchored g d' 0 → d'.clog = none →
      d'.manifest = false → Q () d')
    (same : F → E d ∧ C d)
    (hurt : F → ∀ d', Recorded g d' ⟨0, 0⟩ stream → d'.clog = none →
      d'.manifest = false → E d' ∧ C d') : WP F C initializeMeta Q E d := by
  have sized : WellSized g d := clean.sized
  have repl (u : List Nat) : Recorded g
      { d with walMeta := some ⟨0, 0⟩, unlinked := u } ⟨0, 0⟩ stream :=
    recorded_fresh walDir rfl sized clean.clog clean.manifest
  apply WP.bind
  apply WP.gets
  rw [clean.segments 0]
  apply WP.bind
  refine WP.when (fun absurd => nomatch absurd) fun _ => ?_
  apply WP.bind
  refine wp_writeMeta ?_ same fun may =>
    hurt may _ (repl _) clean.clog clean.manifest
  refine WP.when (fun _ => ?_) fun absurd => nomatch absurd
  exact wp_createFirst stream walDir rfl sized clean.clog clean.manifest
    (clean.segments 0) done hurt

/-- **Initialising** a directory that a crash left. -/
theorem wp_initializeWal (recoverable : Recoverable g d stream)
    (done : ∀ d' found, Recorded g d' found stream →
      Anchored g d' found.replayFloor → Began g d d' stream → Q () d')
    (hurt : F → ∀ d', Began g d d' stream → E d' ∧ C d') : WP F C (initializeWal g) Q E d := by
  have finish (d' : Disk) (found : WalMeta) (noted : Recorded g d' found stream)
      (anchored : Anchored g d' found.replayFloor) (began : Began g d d' stream) :
      WP F C (.atomic id (DbError.io "failed to sync data directory")) Q E d' :=
    WP.atomic (done d' found noted anchored began) fun may => hurt may d' began
  have start : Began g d d stream := ⟨recoverable, rfl, rfl, .inl rfl⟩
  apply WP.bind
  apply WP.gets
  rcases recoverable with fresh | ⟨found, noted⟩
  · have made (d' : Disk) (new : Recorded g d' ⟨0, 0⟩ stream) (clog : d'.clog = none)
        (man : d'.manifest = false) : Began g d d' stream :=
      ⟨.inr ⟨_, new⟩, clog.trans fresh.clog.symm, man.trans fresh.manifest.symm,
        .inr ⟨fresh.walMeta, new.walMeta⟩⟩
    have files (d' : Disk) (clean : Untouched d') (walDir : d'.walDir = true)
        (began : Began g d d' stream) : WP F C
        (initializeFiles g d.walMeta.isSome (d.manifest || d.clog.isSome))
        (fun _ t => WP F C (.atomic id (DbError.io "failed to sync data directory")) Q E t) E d' := by
      rw [fresh.walMeta, fresh.manifest, fresh.clog]
      apply WP.bind
      refine WP.ensure (fun _ => ?_) fun absurd => nomatch absurd
      exact wp_initializeMeta stream clean walDir
        (fun d'' new anchored clog man => finish d'' _ new anchored (made d'' new clog man))
        (fun may => hurt may d' began)
        fun may d'' new clog man => hurt may d'' (made d'' new clog man)
    apply WP.bind
    refine WP.ensure (fun _ => ?_) (by simp [fresh.clog, fresh.manifest])
    apply WP.bind
    refine WP.when (fun _ => ?_) fun there => ?_
    · refine WP.atomic ?_ fun may => hurt may d start
      have clean : Untouched { d with walDir := true } :=
        ⟨fresh.walMeta, fresh.clog, fresh.manifest, fresh.segments, fresh.linked⟩
      exact WP.bind (files _ clean rfl ⟨.inl clean, rfl, rfl, .inl rfl⟩)
    · exact WP.bind (files d fresh (by simpa using there) start)
  · have began (d' : Disk) (new : Recorded g d' found stream) (clog : d'.clog = d.clog)
        (man : d'.manifest = d.manifest) : Began g d d' stream :=
      ⟨.inr ⟨found, new⟩, clog, man, .inl (new.walMeta.trans noted.walMeta.symm)⟩
    apply WP.bind
    refine WP.ensure (fun _ => ?_) (by simp [noted.walDir])
    apply WP.bind
    refine WP.when (by simp [noted.walDir]) fun _ => ?_
    apply WP.bind
    change WP F C (initializeFiles g d.walMeta.isSome (d.manifest || d.clog.isSome)) _ E d
    rw [noted.walMeta]
    apply WP.bind
    refine WP.read_ok (by rw [noted.walMeta]) ?_ fun may => hurt may d start
    exact wp_initializeFirst noted
      (fun d' new anchored clog man => finish d' found new anchored (began d' new clog man))
      fun may d' new clog man => hurt may d' (began d' new clog man)

end Initialize

end Saguaro.Wal
