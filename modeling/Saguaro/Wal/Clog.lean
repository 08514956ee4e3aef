/-
The transaction-status map and its durable snapshot (`crates/wal/src/clog.rs`,
`clog_file.rs`).

A status is held explicitly, or implied: reserved ids and unrecorded ids below the
committed floor read as committed, any other unrecorded id as in progress. A
checkpoint persists the explicit statuses at or above a new floor; `clog.dat` is
the snapshot as JSON in a checksummed envelope. The JSON library and CRC-32 are
parameters (`ClogSerde`).
-/

import Saguaro.Common.Error
import Saguaro.Lib.AssocMap
import Saguaro.Lib.Bytes
import Saguaro.Mvcc.Snapshot
import Mathlib.Data.List.Sort
import Mathlib.Data.List.TakeWhile

namespace Saguaro

open List Bytes

/-- `common::TxnStatus`. -/
inductive TxnStatus where
  | inProgress
  | committed
  | aborted
  deriving DecidableEq, Repr

def FIRST_NORMAL_XID : TxnId := 3

namespace Wal

/-- The largest `u64`, where `saturating_add` stops. -/
def u64Max : Nat := 2 ^ 64 - 1

def CLOG_MAINTENANCE_STATUS_COUNT : Nat := 750000

structure Clog where
  statuses : AList fun _ : TxnId => TxnStatus
  committedFloor : TxnId
  deriving DecidableEq

/-- A durable snapshot of the CLOG, captured at a checkpoint. -/
structure ClogSnapshot where
  clogLsn : Nat
  authorizedReplayFloor : Nat
  committedFloor : TxnId
  vacuumFloor : TxnId
  committed : List TxnId
  aborted : List TxnId
  inProgress : List TxnId
  deriving DecidableEq, Repr

namespace Clog

def new : Clog := ⟨∅, FIRST_NORMAL_XID⟩

def setCommittedFloor (clog : Clog) (floor : TxnId) : Clog :=
  { clog with committedFloor := max (max clog.committedFloor floor) FIRST_NORMAL_XID }

def status (clog : Clog) (txnId : TxnId) : TxnStatus :=
  if txnId < FIRST_NORMAL_XID then .committed
  else
    match clog.statuses.lookup txnId with
    | some status => status
    | none => if txnId < clog.committedFloor then .committed else .inProgress

def isCommitted (clog : Clog) (txnId : TxnId) : Bool := clog.status txnId = .committed

def mustBackpressureNewWriter (clog : Clog) (txnId : TxnId) : Bool :=
  clog.statuses.entries.length ≥ CLOG_MAINTENANCE_STATUS_COUNT &&
    !(clog.statuses.lookup txnId).isSome &&
    clog.statuses.entries.any fun entry => entry.2 = .inProgress

/-- `set_in_progress`, `set_committed` and `set_aborted`. -/
def set (clog : Clog) (txnId : TxnId) (status : TxnStatus) : Clog :=
  { clog with statuses := clog.statuses.insert txnId status }

def setInProgress (clog : Clog) (txnId : TxnId) : Clog := clog.set txnId .inProgress
def setCommitted (clog : Clog) (txnId : TxnId) : Clog := clog.set txnId .committed
def setAborted (clog : Clog) (txnId : TxnId) : Clog := clog.set txnId .aborted

def resolveAllInProgressAsAborted (clog : Clog) : Clog :=
  let resolve (status : TxnStatus) := if status = .inProgress then .aborted else status
  { clog with statuses := clog.statuses.filterMapValues (some ∘ resolve) }

def setAll (clog : Clog) (ids : List TxnId) (status : TxnStatus) : Clog :=
  ids.foldl (fun clog id => clog.set id status) clog

/-- Later lists win where the same id is in several. -/
def fromSnapshot (snapshot : ClogSnapshot) : Clog :=
  let empty : Clog := ⟨∅, max snapshot.committedFloor FIRST_NORMAL_XID⟩
  ((empty.setAll snapshot.committed .committed).setAll snapshot.aborted .aborted).setAll
    snapshot.inProgress .inProgress

/-- The ids whose status must stay explicit: unreclaimed aborts and writers. -/
def pinned (clog : Clog) (vacuumFloor : TxnId) : List TxnId :=
  clog.statuses.entries.filterMap fun entry =>
    match entry.2 with
    | .aborted => if entry.1 ≥ vacuumFloor then some entry.1 else none
    | .inProgress => some entry.1
    | .committed => none

/-- The committed floor that the next snapshot reports. -/
def snapshotFloor (clog : Clog) (vacuumFloor : TxnId) (capturedActive : List TxnId)
    (allocationBoundary : TxnId) : TxnId :=
  let settledBoundary :=
    match clog.statuses.keys.max? with
    | some id => min (id + 1) u64Max
    | none => clog.committedFloor
  let oldest := ((clog.pinned vacuumFloor).min?.toList ++ capturedActive.min?.toList).min?
  max (max (min (oldest.getD settledBoundary) allocationBoundary) clog.committedFloor)
    FIRST_NORMAL_XID

/-- The explicit ids with this status at or above `floor`. -/
def explicitFrom (clog : Clog) (floor : TxnId) (status : TxnStatus) : List TxnId :=
  clog.statuses.entries.filterMap fun entry =>
    if entry.1 < floor then none else if entry.2 = status then some entry.1 else none

/-- Add the captured ids that read as in progress and are not listed yet. -/
def addCaptured (clog : Clog) (floor : TxnId) (capturedActive listed : List TxnId) : List TxnId :=
  capturedActive.foldl (fun listed id =>
    if id ≥ floor ∧ clog.status id = .inProgress ∧ !listed.contains id then listed ++ [id]
    else listed) listed

/-- `live_snapshot`: what a checkpoint persists; the CLOG itself is not changed. -/
def liveSnapshot (clog : Clog) (clogLsn authorizedReplayFloor : Nat) (vacuumFloor : TxnId)
    (capturedActive : List TxnId) (allocationBoundary : TxnId) : ClogSnapshot :=
  let floor := clog.snapshotFloor vacuumFloor capturedActive allocationBoundary
  { clogLsn
    authorizedReplayFloor
    committedFloor := floor
    vacuumFloor
    committed := (clog.explicitFrom floor .committed).insertionSort (· ≤ ·)
    aborted := (clog.explicitFrom floor .aborted).insertionSort (· ≤ ·)
    inProgress := (clog.addCaptured floor capturedActive
      (clog.explicitFrom floor .inProgress)).insertionSort (· ≤ ·) }

/-- `prune_to`: advance the floor and drop every entry below it. -/
def pruneTo (clog : Clog) (committedFloor : TxnId) : Clog :=
  let raised := clog.setCommittedFloor committedFloor
  { raised with statuses := raised.statuses.retain fun id => id ≥ raised.committedFloor }

end Clog

/-! ### The snapshot file -/

def CLOG_MAGIC : Bytes := [83, 71, 67, 76]
def CLOG_VERSION : Nat := 3
def CLOG_HEADER_LEN : Nat := 16
def MAX_CLOG_PAYLOAD_BYTES : Nat := 64 * 1024 * 1024
def MAX_CLOG_FILE_BYTES : Nat := CLOG_HEADER_LEN + MAX_CLOG_PAYLOAD_BYTES
def MAX_CLOG_STATUS_COUNT : Nat := 1000000

/-- What `clog_file.rs` takes from elsewhere: `serde_json` on the snapshot payload
(whose lists are bounded on the way in) and CRC-32. -/
structure ClogSerde where
  toVec : ClogSnapshot → Except String Bytes
  fromSlice : Bytes → Except String ClogSnapshot
  crc32 : Bytes → UInt32
  fromSlice_toVec : ∀ {snapshot bytes}, toVec snapshot = .ok bytes →
    snapshot.committed.length ≤ MAX_CLOG_STATUS_COUNT →
    snapshot.aborted.length ≤ MAX_CLOG_STATUS_COUNT →
    snapshot.inProgress.length ≤ MAX_CLOG_STATUS_COUNT → fromSlice bytes = .ok snapshot

def corruptClog (message : String) : DbError := .storage .internalError message

/-- `encode_clog`. -/
def encodeClog (serde : ClogSerde) (snapshot : ClogSnapshot) : Result Bytes :=
  if snapshot.committed.length > MAX_CLOG_STATUS_COUNT ∨
      snapshot.aborted.length > MAX_CLOG_STATUS_COUNT ∨
      snapshot.inProgress.length > MAX_CLOG_STATUS_COUNT then
    .error (corruptClog "CLOG status list exceeds the item limit")
  else
    match serde.toVec snapshot with
    | .error err => .error (corruptClog s!"failed to encode CLOG payload: {err}")
    | .ok payload =>
      if payload.length > MAX_CLOG_PAYLOAD_BYTES then
        .error (corruptClog "CLOG payload exceeds 64 MiB")
      else
        .ok (CLOG_MAGIC ++ le 4 CLOG_VERSION ++ le 4 payload.length ++
          le 4 (serde.crc32 payload).toNat ++ payload)

/-- Whether two sorted lists share an id: the right list is advanced to the first
id that is not below the head of the left one. -/
def sortedListsMeet : List TxnId → List TxnId → Bool
  | [], _ => false
  | left :: lefts, rights =>
    match rights.dropWhile (· < left) with
    | [] => false
    | right :: rest => left = right || sortedListsMeet lefts (right :: rest)

/-- `validate_status_lists`. -/
def validateStatusLists (committedFloor : TxnId) (lists : List (List TxnId)) : Result Unit :=
  if lists.any fun list => !decide (list.IsChain (· < ·)) then
    .error (corruptClog "CLOG status lists must be sorted without duplicates")
  else if lists.flatten.any fun id => id < committedFloor then
    .error (corruptClog "CLOG explicit status is below the committed floor")
  else if lists.tails.any fun
      | [] => false
      | left :: rest => rest.any (sortedListsMeet left) then
    .error (corruptClog "CLOG status lists must be mutually disjoint")
  else .ok ()

/-- Checks of a payload that was read. -/
def validatePayload (payload : ClogSnapshot) : Result ClogSnapshot := do
  if payload.authorizedReplayFloor > payload.clogLsn then
    .error (corruptClog "authorized replay floor is beyond CLOG LSN")
  else
    validateStatusLists payload.committedFloor
      [payload.committed, payload.aborted, payload.inProgress]
    .ok payload

/-- `decode_clog`. -/
def decodeClog (serde : ClogSerde) (bytes : Bytes) : Result ClogSnapshot :=
  if bytes.length < CLOG_HEADER_LEN then .error (corruptClog "CLOG file is too short")
  else if bytes.take 4 ≠ CLOG_MAGIC then .error (corruptClog "CLOG file magic mismatch")
  else
    let version := leValue ((bytes.drop 4).take 4)
    let payloadLen := leValue ((bytes.drop 8).take 4)
    let expectedChecksum := leValue ((bytes.drop 12).take 4)
    let payload := bytes.drop CLOG_HEADER_LEN
    if version ≠ CLOG_VERSION then
      .error (corruptClog s!"unsupported CLOG file version {version}")
    else if payloadLen > MAX_CLOG_PAYLOAD_BYTES then
      .error (corruptClog "CLOG payload exceeds 64 MiB")
    else if payload.length ≠ payloadLen then
      .error (corruptClog "CLOG file length mismatch")
    else if (serde.crc32 payload).toNat ≠ expectedChecksum then
      .error (corruptClog "CLOG file checksum mismatch")
    else
      match serde.fromSlice payload with
      | .error err => .error (corruptClog s!"failed to decode CLOG payload: {err}")
      | .ok payload => validatePayload payload

/-! ### What a snapshot lists -/

namespace Clog

variable {clog : Clog} {floor id : TxnId} {status : TxnStatus} {captured listed : List TxnId}

/-- The entries that `explicitFrom` lists, in their order. -/
theorem explicitFrom_eq : clog.explicitFrom floor status =
    (clog.statuses.entries.filter fun entry => floor ≤ entry.1 ∧ entry.2 = status).map Sigma.fst := by
  rw [← filterMap_eq_map, ← filterMap_eq_filter, filterMap_filterMap]
  apply filterMap_congr
  intro entry _
  by_cases below : entry.1 < floor
  · simp [below, Option.guard, not_le.mpr below]
  · by_cases same : entry.2 = status <;> simp [below, same, not_lt.mp below, Option.guard]

theorem mem_explicitFrom :
    id ∈ clog.explicitFrom floor status ↔ floor ≤ id ∧ clog.statuses.lookup id = some status := by
  have entry : clog.statuses.lookup id = some status ↔ ⟨id, status⟩ ∈ clog.statuses.entries :=
    AList.mem_lookup_iff
  rw [entry, explicitFrom_eq]
  simp only [mem_map, mem_filter, decide_eq_true_eq]
  constructor
  · rintro ⟨⟨id, status⟩, ⟨mem, above, rfl⟩, rfl⟩
    exact ⟨above, mem⟩
  · rintro ⟨above, mem⟩
    exact ⟨_, ⟨mem, above, rfl⟩, rfl⟩

theorem explicitFrom_nodup : (clog.explicitFrom floor status).Nodup := by
  rw [explicitFrom_eq]
  exact clog.statuses.keys_nodup.sublist (filter_sublist.map Sigma.fst)

theorem addCaptured_spec (clog : Clog) (floor : TxnId) (captured : List TxnId)
    (nodup : listed.Nodup) : (clog.addCaptured floor captured listed).Nodup ∧
      ∀ id, id ∈ clog.addCaptured floor captured listed ↔
        id ∈ listed ∨ id ∈ captured ∧ floor ≤ id ∧ clog.status id = .inProgress := by
  unfold addCaptured
  induction captured generalizing listed with
  | nil => simpa using nodup
  | cons head captured ih =>
    rw [foldl_cons]
    split
    · rename_i added
      obtain ⟨above, inProgress, new⟩ := added
      have new : head ∉ listed := by simpa using new
      have more : (listed ++ [head]).Nodup := by
        rw [nodup_append]
        exact ⟨nodup, nodup_singleton _, by simpa using fun id h => ne_of_mem_of_not_mem h new⟩
      obtain ⟨nodup', mem⟩ := ih more
      refine ⟨nodup', fun id => ?_⟩
      rw [mem]
      grind
    · obtain ⟨nodup', mem⟩ := ih nodup
      refine ⟨nodup', fun id => ?_⟩
      rw [mem]
      grind

end Clog

/-- What `decode_clog` demands of a snapshot. -/
structure ClogSnapshot.Canonical (snapshot : ClogSnapshot) : Prop where
  authorized : snapshot.authorizedReplayFloor ≤ snapshot.clogLsn
  sorted : ∀ list ∈ [snapshot.committed, snapshot.aborted, snapshot.inProgress],
    list.IsChain (· < ·)
  above : ∀ list ∈ [snapshot.committed, snapshot.aborted, snapshot.inProgress],
    ∀ id ∈ list, snapshot.committedFloor ≤ id
  disjoint : [snapshot.committed, snapshot.aborted, snapshot.inProgress].Pairwise Disjoint

theorem isChain_insertionSort {list : List TxnId} (nodup : list.Nodup) :
    (list.insertionSort (· ≤ ·)).IsChain (· < ·) := by
  have sorted := pairwise_insertionSort (· ≤ · : TxnId → TxnId → Prop) list
  have nodup' := (perm_insertionSort (· ≤ ·) list).nodup_iff.mpr nodup
  exact (Pairwise.imp₂ (fun _ _ le ne => lt_of_le_of_ne le ne) sorted nodup').isChain

/-- **A checkpoint's snapshot is canonical.** -/
theorem Clog.liveSnapshot_canonical (clog : Clog) {clogLsn authorizedReplayFloor : Nat}
    (vacuumFloor : TxnId) (capturedActive : List TxnId) (allocationBoundary : TxnId)
    (auth : authorizedReplayFloor ≤ clogLsn) :
    (clog.liveSnapshot clogLsn authorizedReplayFloor vacuumFloor capturedActive
      allocationBoundary).Canonical := by
  unfold liveSnapshot
  generalize clog.snapshotFloor vacuumFloor capturedActive allocationBoundary = floor
  have listed : (clog.explicitFrom floor .inProgress).Nodup := explicitFrom_nodup
  obtain ⟨nodup, mem⟩ := addCaptured_spec clog floor capturedActive listed
  have fixed (id : TxnId) (status : TxnStatus) (other : status ≠ .inProgress)
      (expl : clog.statuses.lookup id = some status) : clog.status id ≠ .inProgress := by
    unfold Clog.status
    rw [expl]
    split <;> simp [other]
  refine ⟨auth, ?_, ?_, ?_⟩
  · simpa using ⟨isChain_insertionSort explicitFrom_nodup, isChain_insertionSort explicitFrom_nodup,
      isChain_insertionSort nodup⟩
  · simp only [mem_cons, not_mem_nil, or_false, forall_eq_or_imp, forall_eq,
      mem_insertionSort, mem_explicitFrom, mem]
    exact ⟨fun _ h => h.1, fun _ h => h.1, fun _ h => h.elim And.left fun h => h.2.1⟩
  simp only [pairwise_cons, mem_cons, not_mem_nil, or_false, forall_eq_or_imp,
    forall_eq, List.Disjoint, mem_insertionSort, mem_explicitFrom, mem]
  refine ⟨⟨?_, ?_⟩, ?_, ?_⟩
  all_goals grind

theorem sortedListsMeet_eq_false {left right : List TxnId} (lefts : left.Pairwise (· < ·))
    (rights : right.Pairwise (· < ·)) :
    sortedListsMeet left right = false ↔ Disjoint left right := by
  induction left generalizing right with
  | nil => simp [sortedListsMeet]
  | cons head left ih =>
    obtain ⟨first, lefts⟩ := pairwise_cons.mp lefts
    -- What is skipped is below every id on the left.
    have skipped : Disjoint (head :: left) right ↔
        Disjoint (head :: left) (right.dropWhile (· < head)) := by
      refine ⟨fun apart id l r => apart l ((dropWhile_sublist _).mem r), fun apart id l r => ?_⟩
      rw [← takeWhile_append_dropWhile (p := (· < head)) (l := right)] at r
      rcases mem_append.mp r with low | high
      · have low : id < head := by simpa using mem_takeWhile_imp low
        rcases l with _ | ⟨_, l⟩
        · exact lt_irrefl _ low
        · exact lt_asymm low (first id l)
      · exact apart l high
    have rest := rights.sublist (dropWhile_sublist (· < head))
    have stop := head_dropWhile_not (p := (· < head)) (l := right)
    rw [skipped]
    unfold sortedListsMeet
    cases split : right.dropWhile (· < head) with
    | nil => simp
    | cons next rights =>
      rw [split] at rest
      have above : head ≤ next := by simpa [split] using stop
      simp only [Bool.or_eq_false_iff, decide_eq_false_iff_not, ih lefts rest, disjoint_cons_left,
        mem_cons, not_or]
      refine and_congr_left fun _ => ⟨fun ne => ⟨ne, fun mem => ?_⟩, And.left⟩
      exact absurd ((pairwise_cons.mp rest).1 head mem) (not_lt.mpr above)

/-- The checks let exactly the canonical snapshots through. -/
theorem validatePayload_eq_ok {payload snapshot : ClogSnapshot} :
    validatePayload payload = .ok snapshot ↔ payload = snapshot ∧ payload.Canonical := by
  have meet (sorted : ∀ list ∈ [payload.committed, payload.aborted, payload.inProgress],
      list.IsChain (· < ·)) :
      ([payload.committed, payload.aborted, payload.inProgress].tails.any fun
        | [] => false
        | left :: rest => rest.any (sortedListsMeet left)) = false ↔
      [payload.committed, payload.aborted, payload.inProgress].Pairwise Disjoint := by
    simp only [isChain_iff_pairwise, mem_cons, not_mem_nil, or_false, forall_eq_or_imp,
      forall_eq] at sorted
    obtain ⟨comm, abort, inProgress⟩ := sorted
    simp [tails, sortedListsMeet_eq_false, comm, abort, inProgress, and_assoc]
  unfold validatePayload validateStatusLists
  constructor
  · intro valid
    split at valid
    · cases valid
    rename_i auth
    obtain ⟨_, checked, ⟨⟩⟩ := Result.bind_eq_ok.mp valid
    split_ifs at checked with unsorted low common
    have sorted : ∀ list ∈ [payload.committed, payload.aborted, payload.inProgress],
        list.IsChain (· < ·) := by simpa using unsorted
    exact ⟨rfl, not_lt.mp auth, sorted, by simpa using low,
      (meet sorted).mp (Bool.eq_false_of_not_eq_true common)⟩
  rintro ⟨rfl, canon⟩
  have sorted := canon.sorted
  have above := canon.above
  rw [if_neg (not_lt.mpr canon.authorized), if_neg, if_neg, if_neg]
  · rfl
  · exact (Bool.not_eq_true _).mpr ((meet sorted).mpr canon.disjoint)
  · simpa using above
  · simpa using sorted

/-- The file that holds `payload`. -/
def ClogSerde.envelope (serde : ClogSerde) (payload : Bytes) : Bytes :=
  CLOG_MAGIC ++ le 4 CLOG_VERSION ++ le 4 payload.length ++
    le 4 (serde.crc32 payload).toNat ++ payload

variable {serde : ClogSerde} {snapshot : ClogSnapshot} {payload bytes : Bytes}

theorem encodeClog_eq_ok : encodeClog serde snapshot = .ok bytes ↔
    (snapshot.committed.length ≤ MAX_CLOG_STATUS_COUNT ∧
      snapshot.aborted.length ≤ MAX_CLOG_STATUS_COUNT ∧
      snapshot.inProgress.length ≤ MAX_CLOG_STATUS_COUNT) ∧
    ∃ payload, serde.toVec snapshot = .ok payload ∧ payload.length ≤ MAX_CLOG_PAYLOAD_BYTES ∧
      serde.envelope payload = bytes := by
  unfold encodeClog
  constructor
  · intro enc
    split at enc
    · cases enc
    rename_i short
    split at enc
    · cases enc
    rename_i payload wrote
    split at enc
    · cases enc
    rename_i fits
    exact ⟨by simpa using short, payload, wrote, not_lt.mp fits, Except.ok.inj enc⟩
  · rintro ⟨short, payload, wrote, fits, rfl⟩
    rw [if_neg (by simpa using short), wrote]
    exact if_neg (not_lt.mpr fits)

theorem decodeClog_envelope (fits : payload.length ≤ MAX_CLOG_PAYLOAD_BYTES) :
    decodeClog serde (serde.envelope payload) =
      match serde.fromSlice payload with
      | .error err => .error (corruptClog s!"failed to decode CLOG payload: {err}")
      | .ok payload => validatePayload payload := by
  have crc := (serde.crc32 payload).toNat_lt
  have bound : payload.length < 2 ^ (8 * 4) := lt_of_le_of_lt fits (by decide)
  have magic : CLOG_MAGIC.length = 4 := rfl
  unfold decodeClog ClogSerde.envelope
  have first := slice [] CLOG_MAGIC (le 4 CLOG_VERSION ++ le 4 payload.length ++
    le 4 (serde.crc32 payload).toNat ++ payload)
  have version := slice CLOG_MAGIC (le 4 CLOG_VERSION) (le 4 payload.length ++
    le 4 (serde.crc32 payload).toNat ++ payload)
  have length := slice (CLOG_MAGIC ++ le 4 CLOG_VERSION) (le 4 payload.length)
    (le 4 (serde.crc32 payload).toNat ++ payload)
  have checksum := slice (CLOG_MAGIC ++ le 4 CLOG_VERSION ++ le 4 payload.length)
    (le 4 (serde.crc32 payload).toNat) payload
  have body : (CLOG_MAGIC ++ le 4 CLOG_VERSION ++ le 4 payload.length ++
      le 4 (serde.crc32 payload).toNat ++ payload).drop (CLOG_MAGIC ++
      le 4 CLOG_VERSION ++ le 4 payload.length ++
      le 4 (serde.crc32 payload).toNat).length = payload := drop_left
  simp only [length_append, length_le, magic, append_assoc, nil_append,
    length_nil, drop_zero, Nat.reduceAdd] at first version length checksum body ⊢
  simp only [first, version, length, checksum, CLOG_HEADER_LEN, body]
  rw [if_neg (by omega), if_neg (by simp), if_neg (by decide), leValue_le_of_lt bound,
    if_neg (not_lt.mpr fits), if_neg (by simp), leValue_le_of_lt crc, if_neg (by simp)]

/-- **The snapshot file reads back.** -/
theorem decodeClog_encodeClog (canon : snapshot.Canonical)
    (enc : encodeClog serde snapshot = .ok bytes) :
    bytes.length ≤ MAX_CLOG_FILE_BYTES ∧ decodeClog serde bytes = .ok snapshot := by
  obtain ⟨⟨comm, abort, inProgress⟩, payload, wrote, fits, rfl⟩ := encodeClog_eq_ok.mp enc
  have magic : CLOG_MAGIC.length = 4 := rfl
  constructor
  · simp only [ClogSerde.envelope, length_append, length_le, magic, MAX_CLOG_FILE_BYTES,
      CLOG_HEADER_LEN]
    omega
  · rw [decodeClog_envelope fits, serde.fromSlice_toVec wrote comm abort inProgress]
    exact validatePayload_eq_ok.mpr ⟨rfl, canon⟩

/-- A file is read only if it is intact around its payload. -/
theorem decodeClog_intact (decoded : decodeClog serde bytes = .ok snapshot) :
    ∃ payload, bytes = serde.envelope payload := by
  unfold decodeClog at decoded
  dsimp only at decoded
  split_ifs at decoded with short magic version long length checksum
  refine ⟨bytes.drop CLOG_HEADER_LEN, ?_⟩
  have part (i : Nat) (inside : i + 4 ≤ CLOG_HEADER_LEN) :
      le 4 (leValue ((bytes.drop i).take 4)) ++ bytes.drop (i + 4) = bytes.drop i := by
    have whole : ((bytes.drop i).take 4).length = 4 := by
      rw [length_take, length_drop]
      omega
    have back := le_leValue ((bytes.drop i).take 4)
    rw [whole] at back
    rw [back, ← drop_drop, take_append_drop]
  rw [not_not] at magic version length checksum
  unfold ClogSerde.envelope
  rw [checksum, length, ← version, ← magic, show CLOG_HEADER_LEN = 12 + 4 from rfl]
  simp only [append_assoc]
  rw [part 12 (by decide), part 8 (by decide), part 4 (by decide), take_append_drop]

/-- The checksum detects damage: a file that carries the checksum of its payload is one that
was written. -/
def ClogSerde.Detects (serde : ClogSerde) (bytes : Bytes) : Prop :=
  ∀ payload, bytes = serde.envelope payload → ∃ snapshot, encodeClog serde snapshot = .ok bytes

/-- **What is read was written**, and is canonical. -/
theorem encodeClog_decodeClog (detects : serde.Detects bytes)
    (decoded : decodeClog serde bytes = .ok snapshot) :
    snapshot.Canonical ∧ encodeClog serde snapshot = .ok bytes := by
  obtain ⟨payload, intact⟩ := decodeClog_intact decoded
  obtain ⟨wrote, enc⟩ := detects payload intact
  obtain ⟨⟨comm, abort, inProgress⟩, payload, json, fits, rfl⟩ := encodeClog_eq_ok.mp enc
  rw [decodeClog_envelope fits, serde.fromSlice_toVec json comm abort inProgress] at decoded
  obtain ⟨rfl, canon⟩ := validatePayload_eq_ok.mp decoded
  exact ⟨canon, enc⟩

end Wal

end Saguaro
