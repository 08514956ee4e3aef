/-
The segment files as one byte stream.

`byteAt` maps a stream position to the byte that the directory holds there, and
`durableAt` to the byte that survives a crash. `Kept lo hi d d'` says that a change
of the directory lost nothing in `[lo, hi)`: it is what every step of every function
of `Segment.lean` does, and what the crash conditions below are made of. The
results are one `WP` rule for each of those functions.
-/

import Saguaro.Wal.Segment

namespace Saguaro.Wal

open Crash List Option AList Disk Segment

variable (g : Geometry)

namespace Disk

/-- The segment with this number, when it has its header. -/
def segment (disk : Disk) (number : Nat) : Option Segment :=
  (disk.segments.lookup number).filter fun segment => segment.header = .valid number

/-- The byte at a stream position. -/
def byteAt (disk : Disk) (pos : Nat) : Option UInt8 :=
  (disk.segment (pos / g.payloadBytes)).bind fun segment =>
    segment.payload[pos % g.payloadBytes]?

/-- The byte at a stream position, if it is on stable storage. -/
def durableAt (disk : Disk) (pos : Nat) : Option UInt8 :=
  (disk.segment (pos / g.payloadBytes)).bind fun segment =>
    if pos % g.payloadBytes < segment.synced then
      segment.payload[pos % g.payloadBytes]?
    else none

end Disk

/-- No segment is longer than its fixed size, and no more is synced than there is. -/
def WellSized (disk : Disk) : Prop := ∀ n s, disk.segments.lookup n = some s →
    s.synced ≤ s.payload.length ∧ s.payload.length ≤ g.payloadBytes

/-- The bytes of `stream` in `[lo, hi)` are where they belong. -/
def Holds (disk : Disk) (lo hi : Nat) (stream : Bytes) : Prop :=
  ∀ pos, lo ≤ pos → pos < hi → disk.byteAt g pos = stream[pos]?

/-- The bytes of `stream` in `[lo, hi)` are where they belong, on stable storage. -/
def Durable (disk : Disk) (lo hi : Nat) (stream : Bytes) : Prop :=
  ∀ pos, lo ≤ pos → pos < hi → disk.durableAt g pos = stream[pos]?

/-- The segment of position `lo` is complete up to there, on stable storage. -/
def Anchored (disk : Disk) (lo : Nat) : Prop :=
  ∃ s, disk.segment (lo / g.payloadBytes) = some s ∧ lo % g.payloadBytes ≤ s.synced

/-- From `d` to `d'` nothing in `[lo, hi)` was lost, nor the segment of `lo`, and no
file beside the segments was touched. -/
structure Kept (lo hi : Nat) (d d' : Disk) : Prop where
  walDir : d'.walDir = d.walDir
  walMeta : d'.walMeta = d.walMeta
  clog : d'.clog = d.clog
  manifest : d'.manifest = d.manifest
  sized : WellSized g d'
  anchored : Anchored g d lo → Anchored g d' lo
  byte : ∀ pos b, lo ≤ pos → pos < hi → d.byteAt g pos = some b → d'.byteAt g pos = some b
  durable : ∀ pos b, lo ≤ pos → pos < hi → d.durableAt g pos = some b → d'.durableAt g pos = some b

namespace Kept

variable {g} {lo hi : Nat} {d d' d'' : Disk} {stream : Bytes}

theorem refl (sized : WellSized g d) : Kept g lo hi d d :=
  ⟨rfl, rfl, rfl, rfl, sized, id, fun _ _ _ _ h => h, fun _ _ _ _ h => h⟩

theorem trans (first : Kept g lo hi d d') (second : Kept g lo hi d' d'') : Kept g lo hi d d'' where
  walDir := second.walDir.trans first.walDir
  walMeta := second.walMeta.trans first.walMeta
  clog := second.clog.trans first.clog
  manifest := second.manifest.trans first.manifest
  sized := second.sized
  anchored h := second.anchored (first.anchored h)
  byte pos b l h found := second.byte pos b l h (first.byte pos b l h found)
  durable pos b l h found := second.durable pos b l h (first.durable pos b l h found)

theorem mono {hi' : Nat} (kept : Kept g lo hi d d') (le : hi' ≤ hi) : Kept g lo hi' d d' :=
  { kept with
    byte := fun pos b l h => kept.byte pos b l (by omega)
    durable := fun pos b l h => kept.durable pos b l (by omega) }

theorem holds (kept : Kept g lo hi d d') (inside : hi ≤ stream.length)
    (holds : Holds g d lo hi stream) : Holds g d' lo hi stream := by
  intro pos l h
  have prior := holds pos l h
  rw [getElem?_eq_getElem (by omega)] at prior ⊢
  exact kept.byte pos _ l h prior

theorem durably (kept : Kept g lo hi d d') (inside : hi ≤ stream.length)
    (dur : Durable g d lo hi stream) : Durable g d' lo hi stream := by
  intro pos l h
  have prior := dur pos l h
  rw [getElem?_eq_getElem (by omega)] at prior ⊢
  exact kept.durable pos _ l h prior

end Kept

/-! ### What single changes of the directory keep -/

/-- The first `k` payload bytes of `s` are those of `s'` too, synced if they were. -/
def Segment.KeptTo (k : Nat) (s s' : Segment) : Prop :=
  ∀ i < k, (∀ b, s.payload[i]? = some b → s'.payload[i]? = some b) ∧ (i < s.synced → i < s'.synced)

namespace Segment

variable {s : Segment} {k : Nat}

theorem KeptTo.refl : s.KeptTo k s := fun _ _ => ⟨fun _ h => h, id⟩

theorem sync_keptTo (sized : s.synced ≤ s.payload.length) : s.KeptTo k s.sync :=
  fun _ _ => ⟨fun _ h => h, fun synced => lt_of_lt_of_le synced sized⟩

/-- Writing at the end is appending. -/
theorem write_end (bytes : Bytes) :
    s.write s.payload.length bytes = { s with payload := s.payload ++ bytes } := by
  simp [write]

theorem append_keptTo (bytes : Bytes) : s.KeptTo k { s with payload := s.payload ++ bytes } :=
  fun _ _ => ⟨fun _ h => List.getElem?_append_left (List.getElem?_eq_some_iff.mp h).1 ▸ h, id⟩

theorem setLen_eq {length : Nat} (short : length ≤ s.payload.length) : s.setLen length =
      { s with payload := s.payload.take length, synced := min s.synced length } := by
  simp [setLen, take_append_of_le_length short]

theorem setLen_keptTo {length : Nat} (short : length ≤ s.payload.length) (le : k ≤ length) :
    s.KeptTo k (s.setLen length) := by
  intro i h
  rw [setLen_eq short]
  constructor
  · intro b found
    rw [getElem?_take_of_lt (by omega)]
    exact found
  · intro synced
    exact lt_min synced (by omega)

end Segment

namespace Disk

variable {d d' : Disk} {n m : Nat} {s : Segment}

theorem segment_eq_some : d.segment n = some s ↔
    d.segments.lookup n = some s ∧ s.header = .valid n := by
  simp [segment, filter_eq_some_iff]

theorem segment_erase (diff : d'.segments = d.segments.erase n) : d'.segment m =
    if m = n then none else d.segment m := by
  unfold segment
  rw [diff]
  rw [lookup_erase_if]
  split <;> rfl

theorem segment_modify {f : Segment → Segment} (head : ∀ s, (f s).header = s.header)
    (diff : d'.segments = d.segments.modify n f) : d'.segment m =
      if m = n then (d.segment m).map f else d.segment m := by
  unfold segment
  rw [diff]
  by_cases same : m = n
  · subst same
    cases found : d.segments.lookup m with
    | none => simp [found]
    | some s => by_cases valid : s.header = .valid m <;> simp [found, filter_some, head, valid]
  · simp [lookup_modify_ne same, same]

end Disk

namespace Kept

variable {g} {lo hi n : Nat} {d d' : Disk}

/-- Nothing is lost when every complete segment that reaches into `[lo, hi)` is kept
up to `hi`, and that of `lo` at least up to there. -/
theorem of_segments (walDir : d'.walDir = d.walDir) (walMeta : d'.walMeta = d.walMeta)
    (clog : d'.clog = d.clog) (manifest : d'.manifest = d.manifest)
    (sized : WellSized g d')
    (segments : ∀ m s, lo / g.payloadBytes ≤ m →
      m = lo / g.payloadBytes ∨ m * g.payloadBytes < hi → d.segment m = some s →
      ∃ s', d'.segment m = some s' ∧ s.KeptTo (max lo hi - m * g.payloadBytes) s') :
    Kept g lo hi d d' := by
  have reach (pos : Nat) (s : Segment) (l : lo ≤ pos) (h : pos < hi)
      (found : d.segment (pos / g.payloadBytes) = some s) :
      ∃ s', d'.segment (pos / g.payloadBytes) = some s' ∧
        s.KeptTo (pos % g.payloadBytes + 1) s' := by
    have split := Nat.div_add_mod' pos g.payloadBytes
    obtain ⟨s', found', kept⟩ := segments _ s (Nat.div_le_div_right l) (.inr (by omega)) found
    exact ⟨s', found', fun i lt => kept i (by omega)⟩
  refine ⟨walDir, walMeta, clog, manifest, sized, ?_, ?_, ?_⟩
  · rintro ⟨s, found, synced⟩
    obtain ⟨s', found', kept⟩ := segments _ s le_rfl (.inl rfl) found
    refine ⟨s', found', ?_⟩
    have split := Nat.div_add_mod' lo g.payloadBytes
    obtain zero | positive := eq_zero_or_pos (lo % g.payloadBytes)
    · omega
    · have := (kept (lo % g.payloadBytes - 1) (by omega)).2 (by omega)
      omega
  · intro pos b l h byte
    obtain ⟨s, found, body⟩ := bind_eq_some_iff.mp byte
    obtain ⟨s', found', kept⟩ := reach pos s l h found
    exact bind_eq_some_iff.mpr ⟨s', found', (kept _ (by omega)).1 b body⟩
  intro pos b l h byte
  obtain ⟨s, found, body⟩ := bind_eq_some_iff.mp byte
  obtain ⟨s', found', kept⟩ := reach pos s l h found
  obtain ⟨synced, body⟩ := (ite_none_right_eq_some).mp body
  obtain ⟨bytes, stays⟩ := kept _ (Nat.lt_succ_self _)
  exact bind_eq_some_iff.mpr ⟨s', found', (ite_none_right_eq_some).mpr ⟨stays synced, bytes b body⟩⟩

variable (sized : WellSized g d) (walDir : d'.walDir = d.walDir)
  (walMeta : d'.walMeta = d.walMeta) (clog : d'.clog = d.clog) (manifest : d'.manifest = d.manifest)

include sized walDir walMeta clog manifest

theorem of_same (same : d'.segments = d.segments) : Kept g lo hi d d' := by
  have found (m : Nat) : d'.segment m = d.segment m := by rw [Disk.segment, same, Disk.segment]
  refine of_segments walDir walMeta clog manifest (by rw [WellSized, same]; exact sized) ?_
  intro m s _ _ seg
  exact ⟨s, (found m).trans seg, .refl⟩

theorem of_modify {f : Segment → Segment} (diff : d'.segments = d.segments.modify n f)
    (head : ∀ s, (f s).header = s.header)
    (change : ∀ s, d.segments.lookup n = some s →
      ((f s).synced ≤ (f s).payload.length ∧ (f s).payload.length ≤ g.payloadBytes) ∧
      s.KeptTo (max lo hi - n * g.payloadBytes) (f s)) : Kept g lo hi d d' := by
  refine of_segments walDir walMeta clog manifest ?_ ?_
  · intro m s found
    rw [diff, lookup_modify] at found
    split at found
    · obtain ⟨s, prior, rfl⟩ := map_eq_some_iff.mp found
      subst m
      exact (change s prior).1
    · exact sized m s found
  intro m s _ _ seg
  rw [segment_modify head diff]
  split
  · subst m
    exact ⟨f s, by rw [seg]; rfl, (change s (segment_eq_some.mp seg).1).2⟩
  · exact ⟨s, seg, .refl⟩

theorem of_erase (diff : d'.segments = d.segments.erase n)
    (away : d.segment n = none ∨ n < lo / g.payloadBytes ∨
      lo / g.payloadBytes < n ∧ hi ≤ n * g.payloadBytes) : Kept g lo hi d d' := by
  refine of_segments walDir walMeta clog manifest ?_ ?_
  · intro m s found
    rw [diff] at found
    exact sized m s (of_lookup_erase found)
  intro m s le reach seg
  rw [segment_erase diff]
  split
  · subst m
    obtain gone | below | ⟨above, beyond⟩ := away
    · rw [gone] at seg
      cases seg
    · omega
    · omega
  · exact ⟨s, seg, .refl⟩

end Kept

/-- From `d` to `d'` only the file of segment `n` was touched. -/
structure Touched (n : Nat) (d d' : Disk) : Prop where
  walDir : d'.walDir = d.walDir
  walMeta : d'.walMeta = d.walMeta
  clog : d'.clog = d.clog
  manifest : d'.manifest = d.manifest
  sized : WellSized g d'
  others : ∀ m, m ≠ n → d'.segments.lookup m = d.segments.lookup m

namespace Touched

variable {g} {lo hi n : Nat} {d d' : Disk}

theorem refl (sized : WellSized g d) : Touched g n d d :=
  ⟨rfl, rfl, rfl, rfl, sized, fun _ _ => rfl⟩

section

variable (touched : Touched g n d d')

include touched

/-- The file of a segment that is not complete holds nothing that could be lost. -/
theorem kept (fresh : d.segment n = none) : Kept g lo hi d d' := by
  refine .of_segments touched.walDir touched.walMeta touched.clog touched.manifest touched.sized ?_
  intro m s _ _ seg
  have other : m ≠ n := by
    rintro rfl
    rw [fresh] at seg
    cases seg
  refine ⟨s, ?_, .refl⟩
  rw [Disk.segment, touched.others m other]
  exact seg

theorem putHeader (header : SegmentHeader) : Touched g n d (d'.putHeader n header) where
  walDir := touched.walDir
  walMeta := touched.walMeta
  clog := touched.clog
  manifest := touched.manifest
  sized m t found := by
    obtain ⟨-, rfl⟩ | ⟨-, old⟩ := lookup_insert_cases found
    · exact ⟨le_rfl, Nat.zero_le _⟩
    · exact touched.sized m t old
  others m other := by
    rw [Disk.putHeader, lookup_insert_ne other]
    exact touched.others m other

theorem unlink (u : List Nat) : Touched g n d { d' with unlinked := u } :=
  ⟨touched.walDir, touched.walMeta, touched.clog, touched.manifest, touched.sized, touched.others⟩

theorem erase {u : List Nat} :
    Touched g n d { d' with segments := d'.segments.erase n, unlinked := u } where
  walDir := touched.walDir
  walMeta := touched.walMeta
  clog := touched.clog
  manifest := touched.manifest
  sized m t found := touched.sized m t (of_lookup_erase found)
  others m other := by
    rw [lookup_erase_ne other]
    exact touched.others m other

end

end Touched

/-! ### Creating and opening segments -/

section Rules

variable {g} {F : Prop} {C E : Disk → Prop} {Q : Unit → Disk → Prop} {d : Disk} {n : Nat}

theorem wp_createSegment (gone : d.segments.lookup n = none) (sized : WellSized g d)
    (done : Q () { d.putHeader n (.valid n) with unlinked := [] })
    (hurt : F → ∀ d', Touched g n d d' → E d' ∧ C d') : WP F C (createSegment n) Q E d := by
  have start : Touched g n d d := .refl sized
  have short := start.putHeader .short
  have torn (head : SegmentHeader) := short.putHeader head
  apply WP.bind
  apply WP.gets
  apply WP.bind
  apply WP.ensure _ (by simp [gone])
  intro _
  apply WP.bind
  apply WP.atomic _ fun may => hurt may _ start
  apply WP.bind
  apply WP.tryCatch
  apply WP.step
  · -- the header is there; the directory is synced
    refine WP.atomic ?_ fun may => hurt may _ (torn _)
    simpa [Disk.putHeader] using done
  -- a torn header: the file is removed again
  intro may progress
  refine ⟨fun err => ?_, (hurt may _ (torn _)).2⟩
  apply WP.bind
  apply WP.atomic _ fun may => hurt may _ (torn _)
  apply WP.bind
  apply WP.atomic _ fun may => hurt may _ (torn _).erase
  apply WP.throw
  exact (hurt may _ (torn _).erase).1

theorem openSegment_found {s : Segment} (found : d.segment n = some s) :
    (match d.segments.lookup n with
      | none => .error (.io "failed to open WAL segment")
      | some file => (validateSegmentHeader n file).map fun _ => file) =
    (.ok s : Result Segment) := by
  obtain ⟨lookup, head⟩ := segment_eq_some.mp found
  simp [lookup, validateSegmentHeader, head, Except.map]

theorem wp_openSegment {Q : Segment → Disk → Prop} {s : Segment} (found : d.segment n = some s)
    (done : Q s d) (hurt : F → E d ∧ C d) : WP F C (openSegment n) Q E d :=
  WP.read_ok (openSegment_found found) done hurt

theorem wp_openOrCreate_complete {s : Segment} (found : d.segment n = some s) (done : Q () d)
    (hurt : F → E d ∧ C d) : WP F C (openOrCreate n) Q E d := by
  have lookup := (segment_eq_some.mp found).1
  apply WP.tryCatch
  apply WP.bind
  apply wp_openSegment found
  · exact WP.pure done
  intro may
  refine ⟨fun err => ?_, (hurt may).2⟩
  apply WP.bind
  apply WP.gets
  rw [lookup]
  exact WP.throw (hurt may).1

theorem wp_openOrCreate_absent (gone : d.segments.lookup n = none) (sized : WellSized g d)
    (done : Q () { d.putHeader n (.valid n) with unlinked := [] })
    (hurt : F → ∀ d', Touched g n d d' → E d' ∧ C d') : WP F C (openOrCreate n) Q E d := by
  apply WP.tryCatch
  apply WP.bind
  have create : ∀ err, WP F C (do
      let found ← segmentExists n
      if found then Prog.throw err else createSegment n) Q E d := by
    intro err
    apply WP.bind
    apply WP.gets
    rw [gone]
    exact wp_createSegment gone sized done hurt
  exact WP.read_error (by rw [gone]) create fun may => (hurt may d (.refl sized)).2

end Rules

/-! ### The active segment -/

/-- The segment `a` is the last one, and its payload ends at position `endPos`. -/
structure Shape (d : Disk) (a endPos : Nat) : Prop where
  active : ∃ s, d.segment a = some s ∧ a * g.payloadBytes + s.payload.length = endPos
  last : ∀ n, a < n → d.segments.lookup n = none

namespace Shape

variable {g} {d : Disk} {a endPos : Nat}

/-- The active segment is the one of the end position, or the one before it when
the end is a boundary. -/
theorem position (shape : Shape g d a endPos) (sized : WellSized g d) :
    endPos / g.payloadBytes = a ∨
      endPos / g.payloadBytes = a + 1 ∧ endPos = (a + 1) * g.payloadBytes := by
  obtain ⟨s, found, rfl⟩ := shape.active
  have bound := (sized a s (segment_eq_some.mp found).1).2
  obtain less | full := lt_or_eq_of_le bound
  · left
    rw [mul_comm, Nat.mul_add_div g.pos, Nat.div_eq_of_lt less, add_zero]
  right
  rw [full, ← Nat.succ_mul]
  exact ⟨Nat.mul_div_cancel _ g.pos, rfl⟩

end Shape

/-- From `d` to `d'` nothing at all was lost. -/
def KeptAll (d d' : Disk) : Prop := ∀ lo hi, Kept g lo hi d d'

theorem KeptAll.trans {g : Geometry} {d d' d'' : Disk} (first : KeptAll g d d')
    (snd : KeptAll g d' d'') : KeptAll g d d'' := fun lo hi => (first lo hi).trans (snd lo hi)

section Append

variable {g} {F : Prop} {d : Disk} {a p n : Nat} {stream : Bytes}

theorem lookup_sync_none (gone : d.segments.lookup n = none) (m : Nat) :
    ({ d with segments := d.segments.modify m sync } : Disk).segments.lookup n = none := by
  rw [lookup_modify, gone]
  split <;> rfl

theorem keptAll_sync (sized : WellSized g d) (m : Nat) :
    KeptAll g d { d with segments := d.segments.modify m sync } := by
  intro lo hi
  refine Kept.of_modify sized rfl rfl rfl rfl rfl (fun _ => rfl) ?_
  intro s found
  have fits := sized m s found
  exact ⟨⟨le_rfl, fits.2⟩, sync_keptTo fits.1⟩

theorem wp_onDisk {α : Type} {C E : Appender → Prop} {Q : α → Appender → Prop}
    {c : Prog DbError Disk α}
    (inner : WP F (fun t => C ⟨t, a⟩) c (fun x t => Q x ⟨t, a⟩) (fun t => E ⟨t, a⟩) d) :
    WP F C (Appender.onDisk c) Q E ⟨d, a⟩ := WP.zoom inner

variable {C E : Appender → Prop} {Q : Unit → Appender → Prop}

/-- The segment of the end position becomes the active one, created if the active
one is full. -/
theorem wp_rollTo (shape : Shape g d a p) (sized : WellSized g d)
    (done : ∀ d', KeptAll g d d' → Shape g d' (p / g.payloadBytes) p →
      Q () ⟨d', p / g.payloadBytes⟩)
    (hurt : F → ∀ d', KeptAll g d d' →
      (∀ m, p / g.payloadBytes < m → d'.segments.lookup m = none) → E ⟨d', a⟩ ∧ C ⟨d', a⟩) :
    WP F C (rollTo (p / g.payloadBytes)) Q E ⟨d, a⟩ := by
  apply WP.bind
  apply WP.gets
  obtain same | ⟨next, full⟩ := shape.position sized
  · -- the active segment has room
    refine WP.when (fun other => absurd same (by simpa using other)) fun _ => ?_
    have res := done d (fun _ _ => .refl sized) (by rw [same]; exact shape)
    rwa [same] at res
  rw [next] at done hurt ⊢
  refine WP.when (fun _ => ?_) (by simp)
  have free : d.segments.lookup (a + 1) = none := shape.last (a + 1) (by omega)
  have start : KeptAll g d d := fun _ _ => .refl sized
  have synced := keptAll_sync sized a
  have beyond (m : Nat) (gt : a + 1 < m) : d.segments.lookup m = none := shape.last m (by omega)
  have created (d' : Disk) (touched : Touched g (a + 1)
      { d with segments := d.segments.modify a sync } d') :
      KeptAll g d d' ∧ ∀ m, a + 1 < m → d'.segments.lookup m = none := by
    have fresh : ({ d with segments := d.segments.modify a sync } : Disk).segment
        (a + 1) = none := by
      rw [Disk.segment, lookup_sync_none free]
      rfl
    refine ⟨fun lo hi => (synced lo hi).trans (touched.kept fresh), fun m gt => ?_⟩
    rw [touched.others m (by omega)]
    exact lookup_sync_none (beyond m gt) a
  apply WP.bind
  apply wp_onDisk
  refine WP.atomic ?_ fun may => hurt may d start beyond
  apply WP.bind
  apply wp_onDisk
  refine wp_openOrCreate_absent (lookup_sync_none free a) (synced 0 0).sized ?_ fun may d' touched =>
    hurt may d' (created d' touched).1 (created d' touched).2
  have whole := created _ (((Touched.refl (synced 0 0).sized).putHeader (.valid (a + 1))).unlink [])
  apply WP.modify
  refine done _ whole.1 ⟨⟨⟨.valid (a + 1), [], 0⟩, ?_, by simpa using full.symm⟩, whole.2⟩
  exact segment_eq_some.mpr ⟨lookup_insert _, rfl⟩

variable {chunk : Bytes}

/-- Writing at the end position, within the active segment. -/
theorem shape_writeAt (chunk : Bytes) (shape : Shape g d (p / g.payloadBytes) p)
    (sized : WellSized g d)
    (fits : p % g.payloadBytes + chunk.length ≤ g.payloadBytes) :
    let d' := d.writeAt (p / g.payloadBytes) (p % g.payloadBytes) chunk
    KeptAll g d d' ∧ Shape g d' (p / g.payloadBytes) (p + chunk.length) ∧
      ∀ i < chunk.length, d'.byteAt g (p + i) = chunk[i]? := by
  intro d'
  obtain ⟨s, found, ends⟩ := shape.active
  have divMod := Nat.div_add_mod' p g.payloadBytes
  have length : s.payload.length = p % g.payloadBytes := by omega
  have lookup := (segment_eq_some.mp found).1
  have head (s : Segment) : (s.write (p % g.payloadBytes) chunk).header = s.header := rfl
  have wrote : d'.segment (p / g.payloadBytes) = some { s with payload := s.payload ++ chunk } := by
    rw [segment_modify head rfl, if_pos rfl, found, ← length]
    exact congrArg some (write_end chunk)
  refine ⟨fun lo hi => Kept.of_modify sized rfl rfl rfl rfl rfl head ?_, ⟨⟨_, wrote, ?_⟩, ?_⟩, ?_⟩
  · intro t same
    rw [lookup] at same
    cases same
    rw [← length, write_end]
    have bound := (sized _ s lookup).1
    simp only [length_append]
    exact ⟨⟨by omega, by omega⟩, append_keptTo chunk⟩
  · simp only [length_append]
    omega
  · intro m gt
    change (d.segments.modify _ _).lookup m = none
    rw [lookup_modify_ne (by omega)]
    exact shape.last m gt
  intro i lt
  have quot : (p + i) / g.payloadBytes = p / g.payloadBytes :=
    Nat.div_eq_of_lt_le (by omega) (by rw [Nat.succ_mul]; omega)
  have remainder := Nat.div_add_mod' (p + i) g.payloadBytes
  rw [quot] at remainder
  rw [Disk.byteAt, quot, wrote]
  change (s.payload ++ chunk)[_]? = _
  rw [getElem?_append_right (by omega)]
  congr 1
  omega

/-- A stream that is in place stays so when it is extended at its end. -/
theorem Holds.extend {lo : Nat} {d' : Disk} (holds : Holds g d lo stream.length stream)
    (kept : Kept g lo stream.length d d')
    (bytes : ∀ i < chunk.length, d'.byteAt g (stream.length + i) = chunk[i]?) :
    Holds g d' lo (stream.length + chunk.length) (stream ++ chunk) := by
  intro pos l h
  obtain old | new := lt_or_ge pos stream.length
  · rw [getElem?_append_left old]
    exact kept.holds le_rfl holds pos l old
  obtain ⟨i, rfl⟩ := Nat.exists_eq_add_of_le new
  rw [bytes i (by omega), getElem?_append_right new]
  congr 1
  omega

/-- **Appending.** The bytes end up behind the stream, whatever boundaries they
cross; disturbed, the append leaves what was there and no segment beyond the end it
was aiming at. -/
theorem wp_appendLoop {lo : Nat} (turns : Nat) (rest : Bytes)
    (big : rest.length ≤ turns) (shape : Shape g d a stream.length)
    (sized : WellSized g d) (holds : Holds g d lo stream.length stream)
    (done : ∀ d' a', KeptAll g d d' → Shape g d' a' (stream.length + rest.length) →
      Holds g d' lo (stream.length + rest.length) (stream ++ rest) → Q () ⟨d', a'⟩)
    (hurt : F → ∀ d' a', KeptAll g d d' → (∀ m, (stream.length + rest.length) / g.payloadBytes < m →
        d'.segments.lookup m = none) → E ⟨d', a'⟩ ∧ C ⟨d', a'⟩) :
    WP F C (appendLoop g turns stream.length rest) Q E ⟨d, a⟩ := by
  -- one turn writes what fits into the segment of the end position
  induction turns generalizing rest stream d a with
  | zero =>
    obtain rfl : rest = [] := length_eq_zero_iff.mp (by omega)
    exact WP.pure (done d a (fun _ _ => .refl sized) shape (by simpa using holds))
  | succ turns ih =>
    unfold appendLoop
    split
    · obtain rfl : rest = [] := by simpa using ‹rest.isEmpty = true›
      exact WP.pure (done d a (fun _ _ => .refl sized) shape (by simpa using holds))
    have some : 0 < rest.length := by
      cases rest with
      | nil => simp at *
      | cons => simp
    have room := Nat.mod_lt stream.length g.pos
    let take := min (g.payloadBytes - stream.length % g.payloadBytes)
      rest.length
    have length (k : Nat) : ((rest.take take).take k).length ≤ take := by
      simp only [length_take]
      omega
    have whole : (rest.take take).length = take := by
      simp only [length_take]
      omega
    have le : stream.length / g.payloadBytes ≤ (stream.length + rest.length) / g.payloadBytes :=
      Nat.div_le_div_right (Nat.le_add_right _ _)
    apply WP.bind
    refine wp_rollTo shape sized (fun d₁ kept₁ shape₁ => ?_) fun may d₁ kept₁ beyond₁ =>
      hurt may d₁ a kept₁ fun m gt => beyond₁ m (by omega)
    have sized₁ := (kept₁ 0 0).sized
    apply WP.bind
    apply WP.gets
    apply WP.bind
    apply wp_onDisk
    apply WP.step
    · obtain ⟨kept₂, shape₂, bytes⟩ := shape_writeAt (rest.take take) shape₁ sized₁
        (by omega)
      have kept := kept₁.trans kept₂
      have position : (stream ++ rest.take take).length = stream.length + take := by
        rw [length_append, whole]
      have total : (stream ++ rest.take take).length + (rest.drop take).length =
          stream.length + rest.length := by
        rw [position, length_drop]
        omega
      rw [← position]
      refine ih (rest.drop take) (by rw [length_drop]; omega)
        (by rwa [length_append]) (kept 0 0).sized
        (length_append ▸ holds.extend (kept lo _) bytes) ?_ ?_
      · intro d' a' kept₃ shape₃ holds₃
        rw [total] at shape₃ holds₃
        rw [append_assoc, take_append_drop] at holds₃
        exact done d' a' (kept.trans kept₃) shape₃ holds₃
      · intro may d' a' kept₃ beyond₃
        rw [total] at beyond₃
        exact hurt may d' a' (kept.trans kept₃) beyond₃
    · intro may progress
      obtain ⟨kept₂, shape₂, -⟩ := shape_writeAt ((rest.take take).take progress)
        shape₁ sized₁ (by have := length progress; omega)
      exact hurt may _ _ (kept₁.trans kept₂) fun m gt => shape₂.last m (by omega)

theorem wp_appendStream {lo start : Nat} (bytes : Bytes) (at_ : start = stream.length)
    (shape : Shape g d a start) (sized : WellSized g d)
    (holds : Holds g d lo start stream)
    (done : ∀ d' a', KeptAll g d d' → Shape g d' a' (start + bytes.length) →
      Holds g d' lo (start + bytes.length) (stream ++ bytes) → Q () ⟨d', a'⟩)
    (hurt : F → ∀ d' a', KeptAll g d d' →
      (∀ m, (start + bytes.length) / g.payloadBytes < m → d'.segments.lookup m = none) →
      E ⟨d', a'⟩ ∧ C ⟨d', a'⟩) : WP F C (appendStream g start bytes) Q E ⟨d, a⟩ := by
  subst at_
  exact wp_appendLoop bytes.length bytes le_rfl shape sized holds done hurt

end Append

/-! ### Removing and truncating -/

section Remove

/-- The state of a loop that removes `numbers`, with `left` still to do. -/
structure Removing (lo hi : Nat) (numbers : List Nat) (d : Disk) (left : List Nat) (t : Disk) :
    Prop where
  kept : Kept g lo hi d t
  sublist : ∀ m ∈ left, m ∈ numbers
  gone : ∀ m ∈ numbers, m ∉ left → t.segments.lookup m = none
  others : ∀ m, m ∉ numbers → t.segments.lookup m = d.segments.lookup m

variable {g} {F : Prop} {C E : Disk → Prop} {Q : Unit → Disk → Prop} {d : Disk}
  {lo hi : Nat} {numbers : List Nat}

theorem wp_removeEach (sized : WellSized g d) (away : ∀ n ∈ numbers, n < lo / g.payloadBytes ∨
      lo / g.payloadBytes < n ∧ hi ≤ n * g.payloadBytes)
    (done : ∀ d', Removing g lo hi numbers d [] d' → Q () d')
    (hurt : F → ∀ d', Kept g lo hi d d' → E d' ∧ C d') :
    WP F C (.forEach removeSegment numbers) Q E d := by
  have start : Removing g lo hi numbers d numbers d :=
    ⟨.refl sized, fun _ h => h, fun _ h no => absurd h no, fun _ _ => rfl⟩
  refine WP.mono (WP.forEach (Removing g lo hi numbers d) ?_ numbers start)
    (fun _ t inv => done t inv) (fun _ e => e) (fun _ c => c)
  intro n left t inv
  refine WP.atomic ?_ fun may => hurt may t inv.kept
  have listed : n ∈ numbers := inv.sublist n (.head _ ..)
  refine ⟨inv.kept.trans (.of_erase inv.kept.sized rfl rfl rfl rfl rfl (.inr (away n listed))),
    fun m h => inv.sublist m (.tail _ h), ?_, ?_⟩
  · intro m among notLeft
    rw [lookup_erase_if]
    split
    · rfl
    · exact inv.gone m among (by simp [*])
  · intro m out
    rw [lookup_erase_ne (by rintro rfl; exact out listed)]
    exact inv.others m out

theorem Removing.unlink {d' : Disk} {left : List Nat} (inv : Removing g lo hi numbers d left d')
    (u : List Nat) : Removing g lo hi numbers d left { d' with unlinked := u } :=
  ⟨inv.kept.trans (.of_same inv.kept.sized rfl rfl rfl rfl rfl), inv.sublist, inv.gone, inv.others⟩

theorem wp_removeAll (sized : WellSized g d) (away : ∀ n ∈ numbers, n < lo / g.payloadBytes ∨
      lo / g.payloadBytes < n ∧ hi ≤ n * g.payloadBytes)
    (done : ∀ d', Removing g lo hi numbers d [] d' → Q () d')
    (hurt : F → ∀ d', Kept g lo hi d d' → E d' ∧ C d') : WP F C (removeAll numbers) Q E d := by
  apply WP.bind
  refine wp_removeEach sized away (fun d' inv => ?_) hurt
  refine WP.when (fun _ => ?_) fun _ => done d' inv
  exact WP.atomic (done _ (inv.unlink [])) fun may => hurt may d' inv.kept

/-- Recycling removes segments below the new floor, and only those. -/
theorem wp_recycleSegments {oldFloor : Nat} (sized : WellSized g d)
    (done : ∀ d', Kept g lo hi d d' →
      (∀ m, lo / g.payloadBytes ≤ m → d'.segments.lookup m = d.segments.lookup m) → Q () d')
    (hurt : F → ∀ d', Kept g lo hi d d' → E d' ∧ C d') :
    WP F C (recycleSegments g oldFloor lo) Q E d := by
  have below (m : Nat) (h : m ∈ range' (oldFloor / g.payloadBytes)
      (lo / g.payloadBytes - oldFloor / g.payloadBytes)) : m < lo / g.payloadBytes := by
    rw [mem_range'_1] at h
    omega
  apply WP.bind
  refine wp_removeEach sized (fun n h => .inl (below n h)) (fun d' inv => ?_) hurt
  refine WP.atomic ?_ fun may => hurt may d' inv.kept
  refine done _ (inv.unlink []).kept fun m le => (inv.unlink []).others m fun h => ?_
  have := below m h
  omega

theorem wp_recycleOrphanedSegments (sized : WellSized g d) (done : ∀ d', Kept g lo hi d d' →
      (∀ m, lo / g.payloadBytes ≤ m → d'.segments.lookup m = d.segments.lookup m) → Q () d')
    (hurt : F → ∀ d', Kept g lo hi d d' → E d' ∧ C d') :
    WP F C (recycleOrphanedSegments g lo) Q E d := by
  apply WP.bind
  refine WP.read_ok rfl ?_ fun may => hurt may d (.refl sized)
  refine wp_removeAll sized (fun n h => .inl (by simpa using (mem_filter.mp h).2))
    (fun d' inv => done d' inv.kept fun m le => inv.others m fun h => ?_) hurt
  have : m < lo / g.payloadBytes := by simpa using (mem_filter.mp h).2
  omega

/-! #### The truncation target -/

variable {position : Nat}

/-- The target of a truncation is a segment and an offset that stand for `position`,
in a segment that is not below the floor. -/
theorem truncateTarget_spec (g : Geometry) (le : lo ≤ position) :
    let target := truncateTarget g position lo
    target.1 * g.payloadBytes + target.2 = position ∧ target.2 ≤ g.payloadBytes ∧
      lo / g.payloadBytes ≤ target.1 := by
  intro target
  have divMod := Nat.div_add_mod' position g.payloadBytes
  have pos := g.pos
  by_cases bound : position > 0 ∧ position % g.payloadBytes = 0 ∧ lo < position
  · rw [show target = _ from if_pos bound]
    obtain ⟨positive, exact_, below⟩ := bound
    have quot : 1 ≤ position / g.payloadBytes :=
      Nat.div_pos (Nat.le_of_dvd positive (Nat.dvd_of_mod_eq_zero exact_)) pos
    have product : (position / g.payloadBytes - 1) * g.payloadBytes +
        g.payloadBytes = position := by
      rw [← Nat.succ_mul, Nat.succ_eq_add_one, Nat.sub_add_cancel quot]
      omega
    refine ⟨product, le_rfl, ?_⟩
    have := (Nat.div_lt_iff_lt_mul pos).mpr (show lo < (position / g.payloadBytes - 1 + 1) *
      g.payloadBytes by rw [Nat.succ_mul]; omega)
    omega
  · rw [show target = _ from if_neg bound]
    exact ⟨divMod, le_of_lt (Nat.mod_lt _ pos), Nat.div_le_div_right le⟩

/-- **Truncating.** From a directory whose stream reaches to `position` and beyond,
what is left is the stream up to `position`. -/
theorem wp_truncateStream {Q : Nat → Disk → Prop} {oldEnd : Nat} {s : Segment}
    (sized : WellSized g d) (le : lo ≤ position)
    (found : d.segment (truncateTarget g position lo).1 = some s)
    (long : (truncateTarget g position lo).2 ≤ s.payload.length)
    (beyond : ∀ m, oldEnd / g.payloadBytes < m →
      (truncateTarget g position lo).1 < m → d.segments.lookup m = none)
    (done : ∀ d' a, Kept g lo position d d' → Shape g d' a position → Q a d')
    (hurt : F → ∀ d', Kept g lo position d d' → E d' ∧ C d') :
    WP F C (truncateStream g position oldEnd lo) Q E d := by
  obtain ⟨stands, short, above⟩ := truncateTarget_spec g le
  unfold truncateStream
  generalize truncateTarget g position lo = target at *
  obtain ⟨n, k⟩ := target
  dsimp only at stands short above found long beyond ⊢
  have listed (m : Nat) (h : m ∈ (range' (n + 1)
      (oldEnd / g.payloadBytes - n)).reverse) : n < m := by
    rw [mem_reverse, mem_range'_1] at h
    omega
  have later (m : Nat) (gt : n < m) : position ≤ m * g.payloadBytes :=
    calc position ≤ (n + 1) * g.payloadBytes := by rw [Nat.succ_mul]; omega
      _ ≤ m * g.payloadBytes := Nat.mul_le_mul_right _ gt
  apply WP.bind
  refine wp_removeAll sized (fun m h => .inr ⟨by have := listed m h; omega, later m (listed m h)⟩)
    (fun d₁ rem => ?_) hurt
  have kept₁ := rem.kept
  have stays : d₁.segments.lookup n = d.segments.lookup n :=
    rem.others n fun h => by have := listed n h; omega
  have lookup := (segment_eq_some.mp found).1
  have found₁ : d₁.segment n = some s := by rwa [Disk.segment, stays]
  have last (m : Nat) (gt : n < m) : d₁.segments.lookup m = none := by
    obtain out | in_ := lt_or_ge (oldEnd / g.payloadBytes) m
    · rw [rem.others m fun h => by rw [mem_reverse, mem_range'_1] at h; omega]
      exact beyond m out gt
    · exact rem.gone m (by rw [mem_reverse, mem_range'_1]; omega) (by simp)
  have kept₂ : Kept g lo position d₁
      { d₁ with segments := d₁.segments.modify n (setLen · k) } := by
    refine .of_modify kept₁.sized rfl rfl rfl rfl rfl (fun _ => rfl) ?_
    intro t same
    obtain rfl : s = t := by simpa [stays, lookup] using same
    refine ⟨?_, setLen_keptTo long (by omega)⟩
    rw [setLen_eq long]
    have := kept₁.sized n s same
    simp only [length_take]
    omega
  have kept₃ := keptAll_sync kept₂.sized n lo position
  apply WP.bind
  refine wp_openOrCreate_complete found₁ ?_ fun may => hurt may d₁ kept₁
  apply WP.bind
  refine WP.atomic ?_ fun may => hurt may d₁ kept₁
  apply WP.bind
  refine WP.atomic ?_ fun may => hurt may _ (kept₁.trans kept₂)
  apply WP.pure
  refine done _ n ((kept₁.trans kept₂).trans kept₃) ⟨⟨(s.setLen k).sync, ?_, ?_⟩, ?_⟩
  · rw [segment_modify (f := sync) (fun _ => rfl) rfl, if_pos rfl,
      segment_modify (f := (setLen · k)) (fun _ => rfl) rfl, if_pos rfl, found₁]
    rfl
  · rw [setLen_eq long]
    simp only [sync, length_take]
    omega
  · intro m gt
    rw [lookup_modify_ne (by omega), lookup_modify_ne (by omega)]
    exact last m gt

end Remove

/-! ### Reading -/

section Read

variable {g} {d : Disk} {lo hi pos : Nat} {stream : Bytes}

theorem Holds.segment (holds : Holds g d lo hi stream) (inside : hi ≤ stream.length)
    (pos : Nat) (l : lo ≤ pos) (h : pos < hi) : ∃ s, d.segment (pos / g.payloadBytes) = some s ∧
      s.payload[pos % g.payloadBytes]? = stream[pos]? := by
  have byte := holds pos l h
  rw [getElem?_eq_getElem (by omega)] at byte ⊢
  exact bind_eq_some_iff.mp byte

theorem Durable.holds (dur : Durable g d lo hi stream) (inside : hi ≤ stream.length) :
    Holds g d lo hi stream := by
  intro pos l h
  have byte := dur pos l h
  rw [getElem?_eq_getElem (by omega)] at byte ⊢
  obtain ⟨s, seg, body⟩ := bind_eq_some_iff.mp byte
  exact bind_eq_some_iff.mpr ⟨s, seg, (ite_none_right_eq_some.mp body).2⟩

/-- A part of a segment is the part of the stream at its position. -/
theorem Holds.chunk {s : Segment} {k : Nat} (holds : Holds g d lo hi stream)
    (inside : hi ≤ stream.length) (l : lo ≤ pos) (h : pos + k ≤ hi)
    (fits : pos % g.payloadBytes + k ≤ g.payloadBytes)
    (found : d.segment (pos / g.payloadBytes) = some s) :
    (s.payload.drop (pos % g.payloadBytes)).take k = (stream.drop pos).take k := by
  have divMod := Nat.div_add_mod' pos g.payloadBytes
  apply ext_getElem?
  intro i
  obtain lt | ge := lt_or_ge i k
  · have quot : (pos + i) / g.payloadBytes = pos / g.payloadBytes :=
      Nat.div_eq_of_lt_le (by omega) (by rw [Nat.succ_mul]; omega)
    have remainder := Nat.div_add_mod' (pos + i) g.payloadBytes
    obtain ⟨t, same, byte⟩ := holds.segment inside (pos + i) (by omega) (by omega)
    rw [quot, found] at same
    cases same
    rw [quot] at remainder
    rw [getElem?_take_of_lt lt, getElem?_take_of_lt lt, getElem?_drop, getElem?_drop, ← byte]
    congr 1
    omega
  · rw [getElem?_take_eq_none ge, getElem?_take_eq_none ge]

namespace SegmentReader

/-- The cursor of the open file is where the reader's position is. -/
def Aligned (g : Geometry) (reader : SegmentReader) : Prop :=
  ∀ number cursor, reader.file = some (number, cursor) → number = reader.position / g.payloadBytes →
    cursor = reader.position % g.payloadBytes

theorem aligned_new (position endPosition : Nat) : (new position endPosition).Aligned g :=
  fun _ _ file => nomatch file

theorem ensureFile_found {reader : SegmentReader} {s : Segment} (aligned : reader.Aligned g)
    (found : d.segment (reader.position / g.payloadBytes) = some s) :
    ensureFile d reader (reader.position / g.payloadBytes)
      (reader.position % g.payloadBytes) = .ok (s, reader.position % g.payloadBytes) := by
  obtain ⟨lookup, head⟩ := segment_eq_some.mp found
  unfold ensureFile
  rw [lookup]
  cases file : reader.file with
  | none => simp [validateSegmentHeader, head, Except.map]
  | some opened =>
    obtain ⟨number, cursor⟩ := opened
    by_cases same : number = reader.position / g.payloadBytes
    · simp [same, aligned number cursor file same]
    · simp [same, validateSegmentHeader, head, Except.map]

/-- **Reading.** What is read is the stream, across all segment boundaries. -/
theorem readExactInto_holds (holds : Holds g d lo hi stream) (inside : hi ≤ stream.length)
    (turns length : Nat) (reader : SegmentReader) (big : length ≤ turns)
    (aligned : reader.Aligned g) (l : lo ≤ reader.position)
    (h : reader.position + length ≤ hi) : ∃ reader', readExactInto g d turns length reader =
        .ok ((stream.drop reader.position).take length, reader') ∧
      reader'.position = reader.position + length ∧
      reader'.endPosition = reader.endPosition ∧ reader'.Aligned g := by
  induction turns generalizing length reader with
  | zero =>
    obtain rfl : length = 0 := by omega
    exact ⟨reader, by simp [readExactInto], rfl, rfl, aligned⟩
  | succ turns ih =>
    obtain rfl | positive := eq_zero_or_pos length
    · exact ⟨reader, by simp [readExactInto], rfl, rfl, aligned⟩
    have room := Nat.mod_lt reader.position g.pos
    obtain ⟨take, take_eq⟩ : ∃ take, take =
      min (g.payloadBytes - reader.position % g.payloadBytes) length := ⟨_, rfl⟩
    obtain ⟨s, found, -⟩ := holds.segment inside reader.position l (by omega)
    have chunk := holds.chunk inside l (k := take) (by omega) (by omega) found
    have full : ((stream.drop reader.position).take take).length = take := by
      simp only [length_take, length_drop]
      omega
    have aligned' : Aligned g ⟨reader.position + take, reader.endPosition,
        some (reader.position / g.payloadBytes, reader.position % g.payloadBytes + take)⟩ := by
      intro number cursor file same
      cases file
      have prior := Nat.div_add_mod' reader.position g.payloadBytes
      have after := Nat.div_add_mod' (reader.position + take) g.payloadBytes
      dsimp only at same ⊢
      rw [← same] at after
      omega
    obtain ⟨reader', rest, position, endPosition, aligned''⟩ := ih (length - take) _ (by omega)
      aligned' (Nat.le_add_right_of_le l)
      (show reader.position + take + (length - take) ≤ hi by omega)
    refine ⟨reader', ?_, ?_, endPosition, aligned''⟩
    · unfold readExactInto
      rw [if_neg (by omega)]
      dsimp only
      rw [ensureFile_found aligned found, ok_bind]
      rw [← take_eq, chunk, if_neg (by omega), rest, ok_bind]
      rw [← drop_drop, ← take_add, Nat.add_sub_cancel' (by omega)]
    · rw [position]
      dsimp only
      omega

theorem readExactVec_holds (holds : Holds g d lo hi stream) (inside : hi ≤ stream.length)
    (length : Nat) {reader : SegmentReader} (aligned : reader.Aligned g)
    (l : lo ≤ reader.position) (left : reader.position + length ≤ reader.endPosition)
    (h : reader.endPosition ≤ hi) : ∃ reader', readExactVec g d length reader =
        .ok (some ((stream.drop reader.position).take length), reader') ∧
      reader'.position = reader.position + length ∧
      reader'.endPosition = reader.endPosition ∧ reader'.Aligned g := by
  obtain ⟨reader', read, rest⟩ := readExactInto_holds holds inside length length reader le_rfl
    aligned l (by omega)
  refine ⟨reader', ?_, rest⟩
  unfold readExactVec
  rw [if_neg (by unfold remaining; omega), read]
  rfl

end SegmentReader

end Read

end Saguaro.Wal
