/-
The log as a list of records.

A `Logged` is a record with the frame it was written as. `Framed start log` says
that the frames follow one another from position `start` on; their concatenation is
`stream log`. Where a directory holds such a stream, reading frames from a record
boundary gives the records of the log, one after the other: `scanStream_holds` and
`replayEntriesFrom_holds`. A record that was cut off at the end of the stream ends
the replay, and one that was altered is found out (`records_survive`).
-/

import Saguaro.Wal.Json
import Saguaro.Wal.File
import Saguaro.Wal.Stream

namespace Saguaro.Wal

open List SegmentReader

variable {χ : Type}

/-- A record of the log, with its bytes. -/
structure Logged (χ : Type) where
  record : WalRecord χ
  frame : Bytes

/-- The frames of `log` follow one another from `start` on. -/
def Framed (serde : Serde χ) : Nat → List (Logged χ) → Prop
  | _, [] => True
  | start, entry :: rest =>
    FrameOf serde entry.record entry.frame ∧ entry.record.lsn = start + entry.frame.length ∧
      Framed serde entry.record.lsn rest

/-- The bytes of the log. -/
def stream (log : List (Logged χ)) : Bytes := (log.map Logged.frame).flatten

/-- `pos` lies between two records of the log, or at one of its ends. -/
def Boundary (log : List (Logged χ)) (pos : Nat) : Prop :=
  ∃ before after, log = before ++ after ∧ (stream before).length = pos

/-- The records that end at `endPos` or before. -/
def retained (log : List (Logged χ)) (endPos : Nat) : List (Logged χ) :=
  log.takeWhile fun entry => entry.record.lsn ≤ endPos

/-- The records with the positions they start at. -/
def entriesFrom : Nat → List (Logged χ) → List (WalEntry χ)
  | _, [] => []
  | start, entry :: rest => ⟨start, entry.record⟩ :: entriesFrom entry.record.lsn rest

variable {serde : Serde χ} {log before after : List (Logged χ)} {entry : Logged χ}
  {start pos : Nat}

@[simp] theorem stream_nil : stream ([] : List (Logged χ)) = [] := rfl

@[simp] theorem stream_append : stream (before ++ after) = stream before ++ stream after := by
  simp [stream]

@[simp] theorem stream_cons : stream (entry :: after) = entry.frame ++ stream after := rfl

theorem framed_append : Framed serde start (before ++ after) ↔
    Framed serde start before ∧ Framed serde (start + (stream before).length) after := by
  induction before generalizing start with
  | nil => simp [Framed]
  | cons entry before ih =>
    simp only [cons_append, Framed, ih, stream_cons, length_append]
    constructor
    · rintro ⟨frame, lsn, rest, tail⟩
      refine ⟨⟨frame, lsn, rest⟩, ?_⟩
      rwa [lsn, add_assoc] at tail
    · rintro ⟨⟨frame, lsn, rest⟩, tail⟩
      refine ⟨frame, lsn, rest, ?_⟩
      rwa [lsn, add_assoc]

/-- Every record of the log ends inside its stream, and after its start. -/
theorem Framed.lsn_le (framed : Framed serde start log) (mem : entry ∈ log) :
    start < entry.record.lsn ∧ entry.record.lsn ≤ start + (stream log).length := by
  induction log generalizing start with
  | nil => cases mem
  | cons head rest ih =>
    obtain ⟨frame, lsn, tail⟩ := framed
    have long := frame.le_length
    simp only [stream_cons, length_append, HEADER_LEN, CRC_LEN] at long ⊢
    rcases mem with _ | ⟨_, mem⟩
    · omega
    · have := ih tail mem
      omega

/-- Every record of the log starts at or behind its start. -/
theorem Framed.replayFrom_le {found : WalEntry χ} (framed : Framed serde start log)
    (mem : found ∈ entriesFrom start log) : start ≤ found.replayFrom := by
  induction log generalizing start with
  | nil => cases mem
  | cons head rest ih =>
    have after := framed.lsn_le (.head _ ..)
    rcases mem with _ | ⟨_, mem⟩
    · exact le_rfl
    · have := ih framed.2.2 mem
      omega

/-- The frames are no shorter than the log has records. -/
theorem Framed.length_le (framed : Framed serde start log) : log.length ≤ (stream log).length := by
  induction log generalizing start with
  | nil => simp
  | cons head rest ih =>
    obtain ⟨frame, lsn, tail⟩ := framed
    have long := frame.le_length
    have := ih tail
    simp only [stream_cons, length_append, length_cons, HEADER_LEN, CRC_LEN] at long ⊢
    omega

/-- What is retained up to a record boundary is the log up to it. -/
theorem retained_of_boundary (framed : Framed serde 0 (before ++ after)) :
    retained (before ++ after) (stream before).length = before := by
  obtain ⟨first, snd⟩ := framed_append.mp framed
  unfold retained
  rw [takeWhile_append_of_pos]
  · cases after with
    | nil => simp
    | cons entry after =>
      have := snd.lsn_le (.head _ ..)
      rw [takeWhile_cons_of_neg (by simp; omega), append_nil]
  · intro entry mem
    have := first.lsn_le mem
    simpa using this.2

theorem boundary_zero (log : List (Logged χ)) : Boundary log 0 := ⟨[], log, rfl, rfl⟩

theorem boundary_end (log : List (Logged χ)) : Boundary log (stream log).length :=
  ⟨log, [], (append_nil _).symm, rfl⟩

theorem Boundary.append (bound : Boundary log pos) (more : List (Logged χ)) :
    Boundary (log ++ more) pos := by
  obtain ⟨before, after, rfl, length⟩ := bound
  exact ⟨before, after ++ more, append_assoc .., length⟩

theorem Boundary.le (bound : Boundary log pos) : pos ≤ (stream log).length := by
  obtain ⟨before, after, rfl, rfl⟩ := bound
  simp

/-- A boundary inside a part of the log is a boundary of that part. -/
theorem Boundary.of_append (framed : Framed serde 0 (before ++ after))
    (bound : Boundary (before ++ after) pos) (le : pos ≤ (stream before).length) :
    Boundary before pos := by
  obtain ⟨before', after', same, rfl⟩ := bound
  rcases append_eq_append_iff.mp same with ⟨more, rfl, rfl⟩ | ⟨more, rfl, rfl⟩
  · -- the boundary is behind `before`: nothing can lie between them
    have none := ((framed_append.mp framed).2 : Framed serde _ (more ++ after'))
    have short := (framed_append.mp none).1.length_le
    rw [stream_append, length_append] at le
    obtain rfl : more = [] := length_eq_zero_iff.mp (by omega)
    exact ⟨before, [], by simp, by simp⟩
  · exact ⟨before', more, rfl, rfl⟩

/-! ### Reading records back -/

section Read

variable {params : Params χ} {disk : Disk} {lo hi : Nat} {reader : SegmentReader}

/-- **One frame.** A reader at the start of a record reads that record. -/
theorem readFrame_holds (holds : Holds params.geometry disk lo hi (stream log))
    (framed : Framed params.serde 0 log) (split : log = before ++ entry :: after)
    (aligned : reader.Aligned params.geometry) (l : lo ≤ reader.position)
    (at_ : reader.position = (stream before).length)
    (left : reader.position + entry.frame.length ≤ reader.endPosition)
    (h : reader.endPosition ≤ hi) (inside : hi ≤ (stream log).length) :
    ∃ reader', readFrame params disk reader = .ok (some entry.record, reader') ∧
      reader'.position = entry.record.lsn ∧ reader'.endPosition = reader.endPosition ∧
      reader'.Aligned params.geometry := by
  subst split
  obtain ⟨frameOf, lsn, -⟩ := (framed_append.mp framed).2
  have long := frameOf.le_length
  have ne : 0 < HEADER_LEN := by decide
  have ahead : (stream (before ++ entry :: after)).drop reader.position =
      entry.frame ++ stream after := by
    rw [at_, stream_append, drop_left, stream_cons]
  obtain ⟨reader₁, read₁, pos₁, end₁, aligned₁⟩ := readExactVec_holds
    holds inside HEADER_LEN aligned l (by omega) h
  obtain ⟨reader₂, read₂, pos₂, end₂, aligned₂⟩ := readExactVec_holds
    holds inside (entry.frame.length - HEADER_LEN) aligned₁ (by omega) (by omega) (by omega)
  have head : ((stream (before ++ entry :: after)).drop reader.position).take HEADER_LEN =
      entry.frame.take HEADER_LEN := by
    rw [ahead, take_append_of_le_length (by omega)]
  have rest : ((stream (before ++ entry :: after)).drop reader₁.position).take
      (entry.frame.length - HEADER_LEN) = entry.frame.drop HEADER_LEN := by
    rw [pos₁, ← drop_drop, ahead, drop_append_of_le_length (by omega),
      take_left' (by rw [length_drop])]
  refine ⟨reader₂, ?_, by omega, by omega, aligned₂⟩
  unfold readFrame
  rw [if_neg (by unfold remaining; omega), read₁, ok_bind, head]
  dsimp only
  rw [frameOf.frameLenFromHeader, ok_bind, read₂, ok_bind, rest]
  dsimp only
  have fits := frameOf.fits
  rw [take_append_drop, frameOf.decodeRecord, ok_bind, if_neg (by omega), if_neg (by omega)]

/-- **A scan** between two record boundaries visits the records between them. -/
theorem scanLoop_holds {β : Type} (visit : β → WalRecord χ → β)
    (holds : Holds params.geometry disk lo hi (stream log)) (framed : Framed params.serde 0 log)
    (h : reader.endPosition ≤ hi) (inside : hi ≤ (stream log).length)
    (mid : List (Logged χ)) (turns : Nat) (big : mid.length ≤ turns) (seen : β)
    (split : log = before ++ mid ++ after) (aligned : reader.Aligned params.geometry)
    (l : lo ≤ reader.position) (at_ : reader.position = (stream before).length)
    (ends : reader.endPosition = (stream (before ++ mid)).length) :
    scanLoop params disk visit turns reader seen =
      .ok (mid.foldl (fun seen entry => visit seen entry.record) seen) := by
  induction mid generalizing before turns reader seen with
  | nil =>
    have done : reader.remaining = 0 := by
      rw [append_nil] at ends
      unfold remaining
      omega
    cases turns with
    | zero => rfl
    | succ turns => simp [scanLoop, done]
  | cons entry rest ih =>
    cases turns with
    | zero => simp at big
    | succ turns =>
      have split' : log = before ++ entry :: (rest ++ after) := by simp [split]
      have framed' := (framed_append.mp (split' ▸ framed)).2
      have long := framed'.1.le_length
      simp only [stream_append, stream_cons, length_append] at ends
      obtain ⟨reader', read, position, end', aligned'⟩ := readFrame_holds holds framed split'
        aligned l at_ (by omega) h inside
      unfold scanLoop
      rw [if_neg (by unfold remaining; simp only [HEADER_LEN] at long; omega), read, ok_bind]
      have lsn := framed'.2.1
      refine ih (by omega) turns (by simpa using big) _
        (show log = (before ++ [entry]) ++ rest ++ after by simp [split]) aligned' (by omega) ?_ ?_
      · simp
        omega
      · simp
        omega

/-- The reader stops inside the first record of `tail`, or there is none. -/
def Torn (reader : SegmentReader) (whole : Nat) (tail : List (Logged χ)) : Prop :=
  reader.endPosition ≤ whole + (stream tail).length ∧ whole ≤ reader.endPosition ∧
    ∀ next ∈ tail.head?, reader.endPosition < whole + next.frame.length

/-- **The end of the log.** Nothing, or the beginning of a record, reads as no record. -/
theorem readFrame_torn (holds : Holds params.geometry disk lo hi (stream (before ++ after)))
    (framed : Framed params.serde 0 (before ++ after)) (aligned : reader.Aligned params.geometry)
    (l : lo ≤ reader.position) (at_ : reader.position = (stream before).length)
    (h : reader.endPosition ≤ hi) (inside : hi ≤ (stream (before ++ after)).length)
    (torn : Torn reader reader.position after) :
    ∃ reader', readFrame params disk reader = .ok (none, reader') := by
  obtain ⟨ends, -, short⟩ := torn
  unfold readFrame
  split
  · exact ⟨_, rfl⟩
  rename_i some
  cases after with
  | nil =>
    simp only [remaining, stream_nil, length_nil] at some ends
    omega
  | cons next rest =>
    have short := short next rfl
    have frameOf := (framed_append.mp framed).2.1
    have ahead : (stream (before ++ next :: rest)).drop reader.position =
        next.frame ++ stream rest := by
      rw [at_, stream_append, drop_left, stream_cons]
    by_cases head : reader.remaining < HEADER_LEN
    · exact ⟨reader, by simp [readExactVec, head]⟩
    unfold remaining at head some
    obtain ⟨reader₁, read₁, pos₁, end₁, aligned₁⟩ := readExactVec_holds
      holds inside HEADER_LEN aligned l (by omega) h
    have long := frameOf.le_length
    refine ⟨reader₁, ?_⟩
    rw [read₁, ok_bind, ahead, take_append_of_le_length (by omega)]
    dsimp only
    rw [frameOf.frameLenFromHeader, ok_bind]
    have rest : reader₁.remaining < next.frame.length - HEADER_LEN := by
      unfold remaining
      omega
    simp [readExactVec, rest]

/-- **A replay** from a record boundary to the end of the log, or to where it was torn, gives
its complete records with the positions they start at, from the threshold on. -/
theorem replayLoop_holds (threshold : Nat) {tail : List (Logged χ)}
    (holds : Holds params.geometry disk lo hi (stream log)) (framed : Framed params.serde 0 log)
    (inside : hi ≤ (stream log).length) (rest : List (Logged χ)) (turns : Nat)
    (big : rest.length ≤ turns) (split : log = before ++ rest ++ tail)
    (aligned : reader.Aligned params.geometry) (l : lo ≤ reader.position)
    (at_ : reader.position = (stream before).length) (h : reader.endPosition ≤ hi)
    (torn : Torn reader (stream (before ++ rest)).length tail) :
    replayLoop params disk threshold turns reader =
      .ok ((entriesFrom reader.position rest).filter fun entry => threshold ≤ entry.replayFrom) := by
  induction rest generalizing before turns reader with
  | nil =>
    cases turns with
    | zero => rfl
    | succ turns =>
      rw [append_nil] at split torn
      subst split
      obtain ⟨_, read⟩ := readFrame_torn holds framed aligned l at_ h inside (at_ ▸ torn)
      simp [replayLoop, read, entriesFrom]
  | cons entry rest ih =>
    cases turns with
    | zero => simp at big
    | succ turns =>
      have split' : log = before ++ entry :: (rest ++ tail) := by simp [split]
      obtain ⟨frameOf, lsn, -⟩ := (framed_append.mp (split' ▸ framed)).2
      have total := torn.2.1
      rw [stream_append, stream_cons, length_append, length_append] at total
      obtain ⟨reader', read, position, end', aligned'⟩ := readFrame_holds holds framed split'
        aligned l at_ (by omega) h inside
      have next := ih turns (by simpa using big)
        (show log = (before ++ [entry]) ++ rest ++ tail by simp [split]) aligned' (by omega)
        (by simp; omega) (by omega) (by simpa [Torn, end'] using torn)
      unfold replayLoop
      rw [read, ok_bind]
      dsimp only
      rw [next, ok_bind, position, entriesFrom, filter_cons]
      by_cases below : reader.position < threshold
      · rw [if_pos below, if_neg (by simpa using below)]
      · rw [if_neg below, if_pos (by simpa using Nat.le_of_not_lt below)]

variable {state : WalState}

theorem scanStream_holds {β : Type} (visit : β → WalRecord χ → β) (seen : β)
    {mid : List (Logged χ)} (holds : Holds params.geometry disk lo hi (stream log))
    (framed : Framed params.serde 0 log) (inside : hi ≤ (stream log).length)
    (split : log = before ++ mid ++ after) (l : lo ≤ (stream before).length)
    (h : (stream (before ++ mid)).length ≤ hi) :
    scanStream params disk (stream before).length (stream (before ++ mid)).length visit seen =
      .ok (mid.foldl (fun seen entry => visit seen entry.record) seen) := by
  have framed' := (framed_append.mp (framed_append.mp (split ▸ framed)).1).2
  refine scanLoop_holds visit holds framed h inside mid _ ?_ seen split (aligned_new _ _) l rfl rfl
  have := framed'.length_le
  rw [stream_append, length_append]
  omega

theorem replayEntriesFrom_torn (replayFrom : Nat) {rest tail : List (Logged χ)}
    (holds : Holds params.geometry disk state.replayFloor state.writtenLsn (stream log))
    (framed : Framed params.serde 0 log) (split : log = before ++ rest ++ tail)
    (floor : state.replayFloor = (stream before).length)
    (torn : Torn (.new state.replayFloor state.writtenLsn) (stream (before ++ rest)).length tail) :
    replayEntriesFrom params disk state replayFrom =
      .ok ((entriesFrom state.replayFloor rest).filter fun entry =>
        max replayFrom state.replayFloor ≤ entry.replayFrom) := by
  have framed' := (framed_append.mp (framed_append.mp (split ▸ framed)).1).2
  have ends := torn.1
  have wrote := torn.2.1
  refine replayLoop_holds _ holds framed ?_ rest _ ?_ split (aligned_new _ _) le_rfl floor le_rfl torn
  · rwa [split, stream_append, length_append]
  have := framed'.length_le
  rw [stream_append, length_append] at wrote
  simp only [new] at wrote
  omega

theorem replayEntriesFrom_holds (replayFrom : Nat)
    (holds : Holds params.geometry disk state.replayFloor state.writtenLsn (stream log))
    (framed : Framed params.serde 0 log) (wrote : state.writtenLsn = (stream log).length)
    {rest : List (Logged χ)} (split : log = before ++ rest)
    (floor : state.replayFloor = (stream before).length) :
    replayEntriesFrom params disk state replayFrom =
      .ok ((entriesFrom state.replayFloor rest).filter fun entry =>
        max replayFrom state.replayFloor ≤ entry.replayFrom) :=
  replayEntriesFrom_torn replayFrom holds framed (split.trans (append_nil _).symm) floor
    ⟨by simp [new, wrote, split], by simp [new, wrote, split], by simp⟩

end Read

/-- The checksum detects the damage: of what `frame` can be damaged into, only `frame` itself
carries the checksum of its own bytes. -/
def Detected (serde : Serde χ) (frame damaged : Bytes) : Prop :=
  ∀ body, damaged = withCrc serde body → damaged = frame

/-- What the decoder makes of a frame is decided by the JSON of its payload. -/
theorem decodeOne_frame_iff {record : WalRecord χ} {frame : Bytes} {serde : Serde χ}
    (fits : record.lsn < 2 ^ 64) (encoded : encodeRecord serde record = .ok frame) (rest : Bytes) :
    decodeOne serde (frame ++ rest) = .ok (.record record frame.length) ↔
      serde.Exact record.kind := by
  constructor
  · intro decoded
    by_contra changed
    obtain ⟨changeSet, kind⟩ : ∃ changeSet, record.kind = .catalogChange changeSet := by
      by_contra other
      exact changed (Serde.exact_of_ne fun changeSet is => other ⟨changeSet, is⟩)
    refine changed ?_
    obtain ⟨payload, enc, short, rfl⟩ := encodeRecord_ok encoded
    have read := decodePayload_of_decodeOne fits enc short decoded
    rw [kind] at enc read ⊢
    obtain ⟨-, vec, -⟩ := encodePayload_catalogChange enc
    intro bytes written
    obtain rfl := Except.ok.inj (vec.symm.trans written)
    exact fromSlice_of_decodePayload read
  · exact fun exact_ => FrameOf.decodeOne ⟨fits, exact_, encodeRecord_ok encoded⟩ rest

/-- **Records survive the log.** A record decodes from its encoding, of which it uses up all and
nothing more, exactly if the JSON library reads its payload back. A log of such records that ends
inside one reads as its complete records. What is read from a damaged frame was framed, and is the
record if its payload can be read back. -/
theorem records_survive (params : Params χ) :
    (∀ (record : WalRecord χ) (frame rest : Bytes), record.lsn < 2 ^ 64 →
      encodeRecord params.serde record = .ok frame →
      (decodeOne params.serde (frame ++ rest) = .ok (.record record frame.length) ↔
        params.serde.Exact record.kind)) ∧
    (∀ (disk : Disk) (state : WalState) (replayFrom torn : Nat) (before rest : List (Logged χ))
      (next : Logged χ), Framed params.serde 0 (before ++ rest ++ [next]) →
      state.replayFloor = (stream before).length → torn < next.frame.length →
      state.writtenLsn = (stream (before ++ rest)).length + torn →
      Holds params.geometry disk state.replayFloor state.writtenLsn
        (stream (before ++ rest ++ [next])) → replayEntriesFrom params disk state replayFrom =
        .ok ((entriesFrom state.replayFloor rest).filter fun entry =>
          max replayFrom state.replayFloor ≤ entry.replayFrom) ∧
      ∀ (visit : List (WalRecord χ) → WalRecord χ → List (WalRecord χ)),
        scanStream params disk state.replayFloor (stream (before ++ rest)).length visit [] =
          .ok ((rest.map Logged.record).foldl visit [])) ∧
    ∀ (record found : WalRecord χ) (frame damaged : Bytes), record.lsn < 2 ^ 64 →
      encodeRecord params.serde record = .ok frame → Detected params.serde frame damaged →
      decodeRecord params.serde damaged = .ok found →
      damaged = frame ∧ (params.serde.Exact record.kind → found = record) := by
  refine ⟨fun record frame rest fits encoded => decodeOne_frame_iff fits encoded rest, ?_, ?_⟩
  · intro disk state replayFrom torn before rest next framed floor short written holds
    refine ⟨replayEntriesFrom_torn replayFrom holds framed rfl floor
      ⟨?_, ?_, by simpa [SegmentReader.new, written] using short⟩, fun visit => ?_⟩
    · simp [SegmentReader.new, written]
      omega
    · simp [SegmentReader.new, written]
    · rw [floor] at holds ⊢
      rw [foldl_map]
      exact scanStream_holds visit [] holds framed (by simp [written]; omega) rfl le_rfl (by omega)
  · intro record found frame damaged fits encoded detected decoded
    obtain ⟨body, same⟩ := withCrc_of_decodeRecord decoded
    obtain rfl := detected body same
    refine ⟨rfl, fun exact_ => ?_⟩
    have intact := FrameOf.decodeRecord ⟨fits, exact_, encodeRecord_ok encoded⟩
    exact Except.ok.inj (decoded.symm.trans intact)

/-- A WAL in segments of 100 bytes. -/
def survivors : Params Empty where
  geometry := ⟨100, by decide⟩
  serde := .ofKinds [.commit, .abort] (by decide +kernel)
  clogSerde := .only ⟨0, 0, 3, 3, [], [], []⟩

/-- A record with its frame. -/
def framedRecord (record : WalRecord Empty) : Logged Empty :=
  ⟨record, (encodeRecord survivors.serde record).toOption.getD []⟩

/-- A commit of transaction 5, followed by the first 30 bytes of a change by 6: the commit is read
back, the replay gives it alone, and a commit with a byte changed is not read. -/
theorem records_survive_torn :
    let commit := framedRecord ⟨33, 5, .commit⟩
    let change := framedRecord ⟨66, 6, .heapInit 1 0⟩
    let disk := { Disk.empty with
      segments := AList.insert 0 ⟨.valid 0, commit.frame ++ change.frame.take 30, 0⟩ ∅ }
    decodeOne survivors.serde (commit.frame ++ change.frame) = .ok (.record commit.record 33) ∧
    replayEntriesFrom survivors disk ⟨0, none, 0, 63, 0, .new, [], 3, false, none, none⟩ 0 =
      .ok [⟨0, commit.record⟩] ∧
    ∀ found, decodeRecord survivors.serde (commit.frame.set 8 6) ≠ .ok found := by
  intro commit change disk
  obtain ⟨one, scan, intact⟩ := records_survive survivors
  have exacts (kind : WalRecordKind Empty) : survivors.serde.Exact kind :=
    Serde.exact_of_ne fun none => none.elim
  have encoded : encodeRecord survivors.serde commit.record = .ok commit.frame ∧
      encodeRecord survivors.serde change.record = .ok change.frame := by decide +kernel
  have lengths : commit.frame.length = 33 ∧ change.frame.length = 33 := by decide +kernel
  refine ⟨?_, ?_, fun found decoded => ?_⟩
  · have := (one commit.record commit.frame change.frame (by decide) encoded.1).mpr (exacts _)
    rwa [lengths.1] at this
  · have framed : Framed survivors.serde 0 ([] ++ [commit] ++ [change]) :=
      ⟨⟨by decide, exacts _, encodeRecord_ok encoded.1⟩, by rw [lengths.1]; rfl,
        ⟨by decide, exacts _, encodeRecord_ok encoded.2⟩, by rw [lengths.2]; rfl, trivial⟩
    refine (scan disk _ 0 30 [] [commit] change framed rfl (by omega) ?_ ?_).1
    · simp [lengths.1]
    have bytes : ∀ pos < 63, Disk.byteAt survivors.geometry disk pos =
        (stream ([] ++ [commit] ++ [change]))[pos]? := by decide +kernel
    exact fun pos _ lt => bytes pos lt
  · have detected : Detected survivors.serde commit.frame (commit.frame.set 8 6) := by
      intro body same
      have cut : body = (commit.frame.set 8 6).take 29 := by
        rw [same, withCrc, take_left']
        have := congrArg length same
        rw [length_set, lengths.1, length_withCrc] at this
        simp only [CRC_LEN] at this
        omega
      rw [cut] at same
      revert same
      decide +kernel
    have same := (intact _ found _ _ (by decide) encoded.1 detected decoded).1
    revert same
    decide +kernel

set_option maxRecDepth 20000 in
/-- **A double that comes back changed.** The statistics of a column with one null in eleven rows
are framed and read without an error, and the fraction differs in its last bit. -/
theorem statistics_read_back_changed :
    let record (nullFrac : Double) : WalRecord Double := ⟨1000, 5, .catalogChange nullFrac⟩
    let nullFrac := Double.nearest 1 11
    (encodeRecord statisticsSerde (record nullFrac)).toOption.bind
        (fun frame => (decodeRecord statisticsSerde frame).toOption) =
      some (record ⟨nullFrac.mantissa + 1, nullFrac.exponent⟩) := by
  decide +kernel

end Saguaro.Wal
