/-
WAL records and their byte frames (`crates/wal/src/record.rs`, `codec.rs`).

A frame is `lsn ++ txn_id ++ type ++ payload_len ++ payload ++ crc`. Physical redo
records have compact binary payloads, the others are JSON. The JSON library, the
CRC and the shape check of catalog change sets are parameters (`Serde`); the change
sets themselves are an arbitrary type `χ`. The JSON library reads back what it wrote of
every kind but one: a change set holds doubles, and the library's parser, as the project
configures it, need not return the double that was printed. `Serde.Exact` is said of the
records that do come back.

The main results are `FrameOf.decodeOne`, a frame is read back as the record that was
appended, and `withCrc_of_decodeRecord`, what is accepted carries its own checksum.
-/

import Saguaro.Common.Error
import Saguaro.Lib.Bytes

namespace Saguaro.Wal

open List Result Bytes

def HEADER_LEN : Nat := 8 + 8 + 1 + 4
def CRC_LEN : Nat := 4
def HEAP_UPDATE_HEADER_LEN : Nat := 4 + 4 + 2 + 8 + 4 + 2 + 2
def MAX_CATALOG_CHANGE_PAYLOAD_BYTES : Nat := 67108864
def MAX_JSON_PAYLOAD_BYTES : Nat := 67108864
def MAX_PAGE_BYTES : Nat := 8192
def MAX_DICTIONARY_BYTES : Nat := 112640
def MAX_COMMITTED_SUBXIDS : Nat := 65536

def TYPE_COMMIT : UInt8 := 3
def TYPE_CHECKPOINT : UInt8 := 4
def TYPE_HEAP_INIT : UInt8 := 5
def TYPE_HEAP_INSERT : UInt8 := 6
def TYPE_HEAP_DELETE : UInt8 := 7
def TYPE_FULL_PAGE_IMAGE : UInt8 := 8
def TYPE_ABORT : UInt8 := 11
def TYPE_HEAP_UPDATE_HEADER : UInt8 := 12
def TYPE_COMMIT_WITH_SUBXIDS : UInt8 := 13
def TYPE_SEQUENCE_ADVANCE : UInt8 := 16
def TYPE_SET_SEQUENCE_VALUE : UInt8 := 17
def TYPE_FULL_PAGE_IMAGE_COMPRESSED : UInt8 := 18
def TYPE_CREATE_DICTIONARY : UInt8 := 19
def TYPE_CATALOG_CHANGE : UInt8 := 31

/-- `WalRecordKind`, over the catalog change sets `χ`. -/
inductive WalRecordKind (χ : Type) where
  | catalogChange (changeSet : χ)
  | sequenceAdvance (sequence : UInt32) (value : Int64)
  | setSequenceValue (sequence : UInt32) (value : Int64) (isCalled : Bool)
  | commit
  | commitWithSubxids (subxids : List UInt64)
  | abort
  | checkpoint (checkpointEndLsn pageRedoLsn catalogRedoLsn : UInt64)
  | heapInit (fileId pageNum : UInt32)
  | heapInsert (fileId pageNum : UInt32) (slot : UInt16) (rowBytes : Bytes)
  | heapDelete (fileId pageNum : UInt32) (slot : UInt16)
  | heapUpdateHeader (fileId pageNum : UInt32) (slot : UInt16) (xmax : UInt64)
      (tCtid : UInt32 × UInt16) (infomask : UInt16)
  | fullPageImage (fileId pageNum : UInt32) (image : Bytes)
  | fullPageImageCompressed (fileId pageNum : UInt32) (codec : UInt8) (dictId : UInt32)
      (payload : Bytes)
  | createDictionary (dictId tableId : UInt32) (bytes : Bytes)
  deriving DecidableEq, Repr

/-- `WalRecord`. The LSN is the stream position of the record's end. -/
structure WalRecord (χ : Type) where
  lsn : Nat
  txnId : UInt64
  kind : WalRecordKind χ
  deriving DecidableEq, Repr

/-- `is_redo_operation`: everything but the status and checkpoint markers. -/
def WalRecordKind.isRedoOperation {χ : Type} : WalRecordKind χ → Bool
  | .commit | .commitWithSubxids _ | .abort | .checkpoint .. => false
  | _ => true

/-- What the codec takes from elsewhere: `serde_json` for the record kinds and for
the bounded subtransaction list, `CatalogChangeSet::validate_shape`, and CRC-32. -/
structure Serde (χ : Type) where
  toVec : WalRecordKind χ → Except String Bytes
  fromSlice : Bytes → Except String (WalRecordKind χ)
  subxidsFromSlice : Bytes → Except String (List UInt64)
  validateShape : χ → Except String Unit
  crc32 : Bytes → UInt32
  fromSlice_toVec : ∀ {kind bytes}, (∀ changeSet, kind ≠ .catalogChange changeSet) →
    toVec kind = .ok bytes → fromSlice bytes = .ok kind
  subxidsFromSlice_toVec : ∀ {subxids bytes}, toVec (.commitWithSubxids subxids) = .ok bytes →
    subxids.length ≤ MAX_COMMITTED_SUBXIDS → subxidsFromSlice bytes = .ok subxids

variable {χ : Type} {bytes : Bytes}

/-- The JSON library reads the kind back from what it writes. -/
def Serde.Exact (serde : Serde χ) (kind : WalRecordKind χ) : Prop :=
  ∀ bytes, serde.toVec kind = .ok bytes → serde.fromSlice bytes = .ok kind

/-- Only change sets may come back changed. -/
theorem Serde.exact_of_ne {serde : Serde χ} {kind : WalRecordKind χ}
    (other : ∀ changeSet, kind ≠ .catalogChange changeSet) : serde.Exact kind :=
  fun _ => serde.fromSlice_toVec other

/-- `record_type`. -/
def recordType : WalRecordKind χ → UInt8
  | .catalogChange _ => TYPE_CATALOG_CHANGE
  | .sequenceAdvance .. => TYPE_SEQUENCE_ADVANCE
  | .setSequenceValue .. => TYPE_SET_SEQUENCE_VALUE
  | .commit => TYPE_COMMIT
  | .commitWithSubxids _ => TYPE_COMMIT_WITH_SUBXIDS
  | .abort => TYPE_ABORT
  | .checkpoint .. => TYPE_CHECKPOINT
  | .heapInit .. => TYPE_HEAP_INIT
  | .heapInsert .. => TYPE_HEAP_INSERT
  | .heapDelete .. => TYPE_HEAP_DELETE
  | .heapUpdateHeader .. => TYPE_HEAP_UPDATE_HEADER
  | .fullPageImage .. => TYPE_FULL_PAGE_IMAGE
  | .fullPageImageCompressed .. => TYPE_FULL_PAGE_IMAGE_COMPRESSED
  | .createDictionary .. => TYPE_CREATE_DICTIONARY

/-! ### Encoding -/

def validateBodyLength (length maximum : Nat) (description : String) : Result Unit :=
  if length > maximum then .error (walError s!"WAL {description} exceeds its size limit") else .ok ()

def encodeJsonPayload (serde : Serde χ) (kind : WalRecordKind χ) : Result Bytes :=
  match serde.toVec kind with
  | .error err => .error (walError s!"failed to serialize WAL payload: {err}")
  | .ok payload =>
    if payload.length > MAX_JSON_PAYLOAD_BYTES then
      .error (walError "JSON WAL payload exceeds 64 MiB")
    else .ok payload

/-- `encode_payload`. -/
def encodePayload (serde : Serde χ) (kind : WalRecordKind χ) : Result Bytes :=
  match kind with
  | .heapInit fileId pageNum => .ok (le 4 fileId.toNat ++ le 4 pageNum.toNat)
  | .heapInsert fileId pageNum slot rowBytes => do
      validateBodyLength rowBytes.length MAX_PAGE_BYTES "heap-insert row"
      .ok (le 4 fileId.toNat ++ le 4 pageNum.toNat ++ le 2 slot.toNat ++ rowBytes)
  | .heapDelete fileId pageNum slot =>
    .ok (le 4 fileId.toNat ++ le 4 pageNum.toNat ++ le 2 slot.toNat)
  | .heapUpdateHeader fileId pageNum slot xmax tCtid infomask =>
    .ok (le 4 fileId.toNat ++ le 4 pageNum.toNat ++ le 2 slot.toNat ++
      le 8 xmax.toNat ++ le 4 tCtid.1.toNat ++ le 2 tCtid.2.toNat ++ le 2 infomask.toNat)
  | .fullPageImage fileId pageNum image => do
      validateBodyLength image.length MAX_PAGE_BYTES "full-page image"
      .ok (le 4 fileId.toNat ++ le 4 pageNum.toNat ++ image)
  | .fullPageImageCompressed fileId pageNum codec dictId payload => do
      validateBodyLength payload.length MAX_PAGE_BYTES "compressed full-page image"
      .ok (le 4 fileId.toNat ++ le 4 pageNum.toNat ++ le 1 codec.toNat ++
        le 4 dictId.toNat ++ payload)
  | .createDictionary dictId tableId bytes => do
      validateBodyLength bytes.length MAX_DICTIONARY_BYTES "compression dictionary"
      .ok (le 4 dictId.toNat ++ le 4 tableId.toNat ++ bytes)
  | .catalogChange changeSet =>
    match serde.validateShape changeSet with
    | .error message => .error (walError s!"invalid catalog change set: {message}")
    | .ok () =>
      match serde.toVec kind with
      | .error err => .error (walError s!"failed to serialize WAL payload: {err}")
      | .ok payload =>
        if payload.length > MAX_CATALOG_CHANGE_PAYLOAD_BYTES then
          .error (walError "catalog change WAL payload exceeds 64 MiB")
        else .ok payload
  | .commitWithSubxids subxids =>
    if subxids.length > MAX_COMMITTED_SUBXIDS then
      .error (walError "commit WAL payload exceeds the subxid limit")
    else encodeJsonPayload serde kind
  | _ => encodeJsonPayload serde kind

/-- The part of a frame that its checksum covers. -/
def frameBody (lsn : Nat) (txnId : UInt64) (typeId : UInt8) (payload : Bytes) : Bytes :=
  le 8 lsn ++ le 8 txnId.toNat ++ [typeId] ++ le 4 payload.length ++ payload

/-- A body with its checksum. -/
def withCrc (serde : Serde χ) (body : Bytes) : Bytes := body ++ le CRC_LEN (serde.crc32 body).toNat

/-- `encode_record`. -/
def encodeRecord (serde : Serde χ) (record : WalRecord χ) : Result Bytes := do
  let payload ← encodePayload serde record.kind
  if payload.length < 2 ^ 32 then
    .ok (withCrc serde (frameBody record.lsn record.txnId (recordType record.kind) payload))
  else .error (walError "WAL payload is too large to encode")

/-- `encode_record_at`: the record is encoded with LSN 0 to learn its length, then
the end position is patched in and the checksum computed again. -/
def encodeRecordAt (serde : Serde χ) (record : WalRecord χ) (startLsn : Nat) :
    Result (WalRecord χ × Bytes) := do
  let bytes ← encodeRecord serde { record with lsn := 0 }
  let endLsn := startLsn + bytes.length
  if endLsn < 2 ^ 64 then
    let patched := le 8 endLsn ++ bytes.drop 8
    .ok ({ record with lsn := endLsn }, withCrc serde (patched.take (bytes.length - CRC_LEN)))
  else .error (walError "WAL LSN overflow")

/-! ### Decoding -/

/-- A reader over the rest of a slice (`CheckedSliceReader`). -/
abbrev SliceReader (α : Type) := StateT Bytes (Except DbError) α

def readLe (width : Nat) : SliceReader Nat := fun bytes =>
  match split width bytes with
  | some (front, rest) => .ok (leValue front, rest)
  | none => .error (walError "WAL physical payload is truncated")

def readU8 : SliceReader UInt8 := do return UInt8.ofNat (← readLe 1)
def readU16 : SliceReader UInt16 := do return UInt16.ofNat (← readLe 2)
def readU32 : SliceReader UInt32 := do return UInt32.ofNat (← readLe 4)
def readU64 : SliceReader UInt64 := do return UInt64.ofNat (← readLe 8)

def takeRemaining : SliceReader Bytes := fun bytes => .ok (bytes, [])

/-- Run a reader that must use up the payload (`finish_physical`). -/
def finishPhysical {α : Type} (reader : SliceReader α) (payload : Bytes) : Result α := do
  let (value, rest) ← reader payload
  if rest.isEmpty then .ok value else .error (walError "WAL physical payload is malformed")

def isLegacyCatalogType (typeId : UInt8) : Bool :=
  [1, 2, 9, 10, 14, 15].contains typeId || (20 ≤ typeId && typeId ≤ 30)

/-- The JSON branch of `decode_payload`. -/
def decodeJsonPayload (serde : Serde χ) (typeId : UInt8) (payload : Bytes) :
    Result (WalRecordKind χ) :=
  if isLegacyCatalogType typeId then
    .error (walError "unsupported legacy catalog WAL record format")
  else if typeId = TYPE_CATALOG_CHANGE ∧ payload.length > MAX_CATALOG_CHANGE_PAYLOAD_BYTES then
    .error (walError "catalog change WAL payload exceeds 64 MiB")
  else
    match serde.fromSlice payload with
    | .error err => .error (walError s!"failed to deserialize WAL payload: {err}")
    | .ok kind =>
      if typeId ≠ recordType kind then
        .error (walError "WAL record type does not match payload")
      else
        match kind with
        | .catalogChange changeSet =>
          match serde.validateShape changeSet with
          | .error message => .error (walError s!"invalid catalog change set: {message}")
          | .ok () => .ok kind
        | _ => .ok kind

/-- `decode_payload`. -/
def decodePayload (serde : Serde χ) (typeId : UInt8) (payload : Bytes) : Result (WalRecordKind χ) :=
  if typeId = TYPE_HEAP_INIT then
    if payload.length ≠ 8 then .error (walError "WAL heap-init payload is malformed")
    else finishPhysical (do return .heapInit (← readU32) (← readU32)) payload
  else if typeId = TYPE_HEAP_INSERT then
    if payload.length < 10 then .error (walError "WAL heap-insert payload is truncated")
    else finishPhysical
      (do return .heapInsert (← readU32) (← readU32) (← readU16) (← takeRemaining)) payload
  else if typeId = TYPE_HEAP_DELETE then
    if payload.length ≠ 10 then .error (walError "WAL heap-delete payload is malformed")
    else finishPhysical (do return .heapDelete (← readU32) (← readU32) (← readU16)) payload
  else if typeId = TYPE_HEAP_UPDATE_HEADER then
    if payload.length ≠ HEAP_UPDATE_HEADER_LEN then
      .error (walError "WAL heap-update-header payload is malformed")
    else finishPhysical
      (do return .heapUpdateHeader (← readU32) (← readU32) (← readU16) (← readU64)
            (← readU32, ← readU16) (← readU16)) payload
  else if typeId = TYPE_FULL_PAGE_IMAGE then
    if payload.length < 8 then .error (walError "WAL full-page-image payload is truncated")
    else finishPhysical
      (do return .fullPageImage (← readU32) (← readU32) (← takeRemaining)) payload
  else if typeId = TYPE_FULL_PAGE_IMAGE_COMPRESSED then
    if payload.length < 13 then .error (walError "compressed full-page-image payload too short")
    else finishPhysical
      (do return .fullPageImageCompressed (← readU32) (← readU32) (← readU8) (← readU32)
            (← takeRemaining)) payload
  else if typeId = TYPE_CREATE_DICTIONARY then
    if payload.length < 8 then .error (walError "create-dictionary payload too short")
    else finishPhysical
      (do return .createDictionary (← readU32) (← readU32) (← takeRemaining)) payload
  else if typeId = TYPE_COMMIT_WITH_SUBXIDS then
    match serde.subxidsFromSlice payload with
    | .error err => .error (walError s!"failed to deserialize WAL payload: {err}")
    | .ok subxids => .ok (.commitWithSubxids subxids)
  else decodeJsonPayload serde typeId payload

/-- The largest payload a record of this type may declare. -/
def maximumPayloadLength (typeId : UInt8) : Nat :=
  if typeId = TYPE_HEAP_INIT then 8
  else if typeId = TYPE_HEAP_INSERT then 10 + MAX_PAGE_BYTES
  else if typeId = TYPE_HEAP_DELETE then 10
  else if typeId = TYPE_HEAP_UPDATE_HEADER then HEAP_UPDATE_HEADER_LEN
  else if typeId = TYPE_FULL_PAGE_IMAGE then 8 + MAX_PAGE_BYTES
  else if typeId = TYPE_FULL_PAGE_IMAGE_COMPRESSED then 13 + MAX_PAGE_BYTES
  else if typeId = TYPE_CREATE_DICTIONARY then 8 + MAX_DICTIONARY_BYTES
  else MAX_JSON_PAYLOAD_BYTES

def validateDeclaredPayloadLength (typeId : UInt8) (payloadLen : Nat) : Result Unit :=
  if payloadLen > maximumPayloadLength typeId then
    .error (walError "WAL payload exceeds the record-type size limit")
  else .ok ()

/-- The four header fields, in their order. -/
structure FrameHeader where
  lsn : Nat
  txnId : UInt64
  typeId : UInt8
  payloadLen : Nat

def readFrameHeader : SliceReader FrameHeader := do
  return { lsn := ← readLe 8, txnId := ← readU64, typeId := ← readU8, payloadLen := ← readLe 4 }

/-- `frame_len_from_header`. -/
def frameLenFromHeader (header : Bytes) : Result Nat := do
  if header.length ≠ HEADER_LEN then .error (walError "incomplete WAL record header")
  else
    let (fields, _) ← readFrameHeader header
    validateDeclaredPayloadLength fields.typeId fields.payloadLen
    .ok (HEADER_LEN + fields.payloadLen + CRC_LEN)

inductive DecodeResult (χ : Type) where
  | record (record : WalRecord χ) (nextOffset : Nat)
  | incomplete

/-- `decode_one`, from the start of the buffer. -/
def decodeOne (serde : Serde χ) (bytes : Bytes) : Result (DecodeResult χ) := do
  if bytes.length < HEADER_LEN then .ok .incomplete
  else
    let (fields, afterHeader) ← readFrameHeader bytes
    validateDeclaredPayloadLength fields.typeId fields.payloadLen
    if afterHeader.length < fields.payloadLen + CRC_LEN then .ok .incomplete
    else
      let payload := afterHeader.take fields.payloadLen
      let (storedCrc, rest) ← readU32 (afterHeader.drop fields.payloadLen)
      if serde.crc32 (bytes.take (HEADER_LEN + fields.payloadLen)) ≠ storedCrc then
        .error (walError "WAL record CRC mismatch")
      else
        let kind ← decodePayload serde fields.typeId payload
        .ok (.record ⟨fields.lsn, fields.txnId, kind⟩ (bytes.length - rest.length))

/-- `decode_record`: one record and nothing after it. -/
def decodeRecord (serde : Serde χ) (bytes : Bytes) : Result (WalRecord χ) := do
  match ← decodeOne serde bytes with
  | .record record nextOffset =>
    if nextOffset = bytes.length then .ok record
    else .error (walError "WAL buffer contains trailing bytes")
  | .incomplete => .error (walError "incomplete WAL record")

/-! ### Readers on what was written -/

namespace SliceReader

variable {α β : Type}

@[simp] theorem bind_apply (reader : SliceReader α) (next : α → SliceReader β) (bytes : Bytes) :
    (reader >>= next) bytes = (reader bytes).bind fun read => next read.1 read.2 := rfl

@[simp] theorem pure_apply (a : α) (bytes : Bytes) :
    (pure a : SliceReader α) bytes = .ok (a, bytes) := rfl

@[simp] theorem map_apply (f : α → β) (reader : SliceReader α) (bytes : Bytes) :
    (f <$> reader) bytes = (reader bytes).bind fun read => .ok (f read.1, read.2) := rfl

/-- A reader that was proved right in front of any rest is right at the end. -/
theorem at_end {reader : SliceReader α} {front : Bytes} {a : α}
    (reads : ∀ rest, reader (front ++ rest) = .ok (a, rest)) : reader front = .ok (a, []) := by
  simpa using reads []

end SliceReader

theorem readLe_append (width : Nat) {n : Nat} (fits : n < 2 ^ (8 * width)) (rest : Bytes) :
    readLe width (le width n ++ rest) = .ok (n, rest) := by
  simp [readLe, split_append, leValue_le_of_lt fits]

@[simp] theorem readU8_append (n : UInt8) (rest : Bytes) :
    readU8 (le 1 n.toNat ++ rest) = .ok (n, rest) := by
  simp [readU8, readLe_append 1 n.toNat_lt, Except.bind]

@[simp] theorem readU16_append (n : UInt16) (rest : Bytes) :
    readU16 (le 2 n.toNat ++ rest) = .ok (n, rest) := by
  simp [readU16, readLe_append 2 n.toNat_lt, Except.bind]

@[simp] theorem readU32_append (n : UInt32) (rest : Bytes) :
    readU32 (le 4 n.toNat ++ rest) = .ok (n, rest) := by
  simp [readU32, readLe_append 4 n.toNat_lt, Except.bind]

@[simp] theorem readU64_append (n : UInt64) (rest : Bytes) :
    readU64 (le 8 n.toNat ++ rest) = .ok (n, rest) := by
  simp [readU64, readLe_append 8 n.toNat_lt, Except.bind]

@[simp] theorem readU16_end (n : UInt16) : readU16 (le 2 n.toNat) = .ok (n, []) :=
  SliceReader.at_end (readU16_append n)

@[simp] theorem readU32_end (n : UInt32) : readU32 (le 4 n.toNat) = .ok (n, []) :=
  SliceReader.at_end (readU32_append n)

@[simp] theorem takeRemaining_apply (bytes : Bytes) : takeRemaining bytes = .ok (bytes, []) := rfl

/-! ### What was encoded decodes -/

variable {serde : Serde χ} {kind : WalRecordKind χ} {payload : Bytes}

theorem validateBodyLength_ok {length maximum : Nat} {description : String}
    (passed : validateBodyLength length maximum description = .ok ()) : length ≤ maximum := by
  unfold validateBodyLength at passed
  split at passed
  · cases passed
  · omega

theorem encodeJsonPayload_ok (enc : encodeJsonPayload serde kind = .ok payload) :
    serde.toVec kind = .ok payload ∧ payload.length ≤ MAX_JSON_PAYLOAD_BYTES := by
  unfold encodeJsonPayload at enc
  cases vec : serde.toVec kind with
  | error err => simp [vec] at enc
  | ok bytes =>
    simp only [vec] at enc
    split at enc
    · cases enc
    · cases enc
      exact ⟨rfl, by omega⟩

/-- What the JSON branch needs to read a kind back. -/
theorem decodeJsonPayload_toVec (exact : serde.Exact kind) (enc : serde.toVec kind = .ok payload)
    (now : isLegacyCatalogType (recordType kind) = false)
    (short : payload.length ≤ MAX_CATALOG_CHANGE_PAYLOAD_BYTES)
    (shape : ∀ changeSet, kind = .catalogChange changeSet →
      serde.validateShape changeSet = .ok ()) :
    decodeJsonPayload serde (recordType kind) payload = .ok kind := by
  unfold decodeJsonPayload
  rw [if_neg (by simp [now]), if_neg (by omega), exact payload enc]
  cases kind with
  | catalogChange changeSet => simp [shape changeSet rfl]
  | _ => simp

/-- A payload that passed its size check is the one the check was made for. -/
theorem validateBodyLength_bind {length maximum : Nat} {description : String}
    (enc : (do validateBodyLength length maximum description; .ok bytes : Result Bytes) =
      .ok payload) : length ≤ maximum ∧ bytes = payload := by
  cases passed : validateBodyLength length maximum description with
  | error err =>
    rw [passed] at enc
    cases enc
  | ok _ =>
    rw [passed] at enc
    cases enc
    exact ⟨validateBodyLength_ok passed, rfl⟩

theorem encodePayload_catalogChange {changeSet : χ}
    (enc : encodePayload serde (.catalogChange changeSet) = .ok payload) :
    serde.validateShape changeSet = .ok () ∧ serde.toVec (.catalogChange changeSet) = .ok payload ∧
      payload.length ≤ MAX_CATALOG_CHANGE_PAYLOAD_BYTES := by
  unfold encodePayload at enc
  cases shape : serde.validateShape changeSet with
  | error err => simp [shape] at enc
  | ok _ =>
    cases vec : serde.toVec (.catalogChange changeSet) with
    | error err => simp [shape, vec] at enc
    | ok bytes =>
      simp only [shape, vec] at enc
      split at enc
      · cases enc
      · cases enc
        exact ⟨rfl, rfl, by omega⟩

theorem encodePayload_commitWithSubxids {subxids : List UInt64}
    (enc : encodePayload serde (.commitWithSubxids subxids) = .ok payload) :
    subxids.length ≤ MAX_COMMITTED_SUBXIDS ∧
      serde.toVec (.commitWithSubxids subxids) = .ok payload ∧
      payload.length ≤ MAX_JSON_PAYLOAD_BYTES := by
  simp only [encodePayload] at enc
  split at enc
  · cases enc
  · exact ⟨by omega, encodeJsonPayload_ok enc⟩

/-- The payload codec is lossless, kind by kind. -/
theorem decodePayload_encodePayload (exact : serde.Exact kind)
    (enc : encodePayload serde kind = .ok payload) :
    decodePayload serde (recordType kind) payload = .ok kind := by
  cases kind with
  | catalogChange changeSet =>
    obtain ⟨shape, vec, short⟩ := encodePayload_catalogChange enc
    exact decodeJsonPayload_toVec ‹_› vec rfl short (by rintro _ ⟨⟩; exact shape)
  | commitWithSubxids subxids =>
    obtain ⟨few, vec, short⟩ := encodePayload_commitWithSubxids enc
    simp [decodePayload, recordType, TYPE_HEAP_INIT, TYPE_HEAP_INSERT, TYPE_HEAP_DELETE,
      TYPE_HEAP_UPDATE_HEADER, TYPE_FULL_PAGE_IMAGE, TYPE_FULL_PAGE_IMAGE_COMPRESSED,
      TYPE_CREATE_DICTIONARY, TYPE_COMMIT_WITH_SUBXIDS, serde.subxidsFromSlice_toVec vec few]
  | sequenceAdvance | setSequenceValue | commit | abort | checkpoint =>
    obtain ⟨vec, short⟩ := encodeJsonPayload_ok enc
    exact decodeJsonPayload_toVec ‹_› vec rfl short (by rintro _ ⟨⟩)
  | heapInit | heapDelete | heapUpdateHeader =>
    cases enc
    simp [decodePayload, recordType, finishPhysical, Except.bind, TYPE_HEAP_INIT,
      TYPE_HEAP_INSERT, TYPE_HEAP_DELETE, TYPE_HEAP_UPDATE_HEADER, HEAP_UPDATE_HEADER_LEN]
  | heapInsert | fullPageImage | fullPageImageCompressed | createDictionary =>
    obtain ⟨-, rfl⟩ := validateBodyLength_bind enc
    simp [decodePayload, recordType, finishPhysical, Except.bind, TYPE_HEAP_INIT,
      TYPE_HEAP_INSERT, TYPE_HEAP_DELETE, TYPE_HEAP_UPDATE_HEADER, TYPE_FULL_PAGE_IMAGE,
      TYPE_FULL_PAGE_IMAGE_COMPRESSED, TYPE_CREATE_DICTIONARY]
    omega

/-- What the JSON branch returns is what the library read. -/
theorem fromSlice_of_decodePayload {changeSet : χ}
    (read : decodePayload serde TYPE_CATALOG_CHANGE payload = .ok (.catalogChange changeSet)) :
    serde.fromSlice payload = .ok (.catalogChange changeSet) := by
  have json : decodeJsonPayload serde TYPE_CATALOG_CHANGE payload =
      .ok (.catalogChange changeSet) := by
    simpa [decodePayload, TYPE_CATALOG_CHANGE, TYPE_HEAP_INIT, TYPE_HEAP_INSERT, TYPE_HEAP_DELETE,
      TYPE_HEAP_UPDATE_HEADER, TYPE_FULL_PAGE_IMAGE, TYPE_FULL_PAGE_IMAGE_COMPRESSED,
      TYPE_CREATE_DICTIONARY, TYPE_COMMIT_WITH_SUBXIDS] using read
  unfold decodeJsonPayload at json
  split_ifs at json
  cases parsed : serde.fromSlice payload with
  | error err => simp [parsed] at json
  | ok kind =>
    rw [parsed] at json
    dsimp only at json
    split_ifs at json
    cases kind with
    | catalogChange other =>
      cases shape : serde.validateShape other with
      | error message => simp [shape] at json
      | ok _ => simpa [shape] using json
    | _ => cases json

/-- What can be encoded is within the limit that the decoder enforces. -/
theorem encodePayload_length (enc : encodePayload serde kind = .ok payload) :
    payload.length ≤ maximumPayloadLength (recordType kind) := by
  cases kind with
  | catalogChange changeSet => exact (encodePayload_catalogChange enc).2.2
  | commitWithSubxids subxids => exact (encodePayload_commitWithSubxids enc).2.2
  | sequenceAdvance | setSequenceValue | commit | abort | checkpoint =>
    exact (encodeJsonPayload_ok enc).2
  | heapInit | heapDelete | heapUpdateHeader =>
    cases enc
    simp [maximumPayloadLength, recordType, TYPE_HEAP_INIT, TYPE_HEAP_INSERT,
      TYPE_HEAP_DELETE, TYPE_HEAP_UPDATE_HEADER, HEAP_UPDATE_HEADER_LEN]
  | heapInsert | fullPageImage | fullPageImageCompressed | createDictionary =>
    obtain ⟨short, rfl⟩ := validateBodyLength_bind enc
    simp [maximumPayloadLength, recordType, TYPE_HEAP_INIT,
      TYPE_HEAP_INSERT, TYPE_HEAP_DELETE, TYPE_HEAP_UPDATE_HEADER, TYPE_FULL_PAGE_IMAGE,
      TYPE_FULL_PAGE_IMAGE_COMPRESSED, TYPE_CREATE_DICTIONARY]
    omega

theorem validateDeclaredPayloadLength_ok {typeId : UInt8} {payloadLen : Nat}
    (short : payloadLen ≤ maximumPayloadLength typeId) :
    validateDeclaredPayloadLength typeId payloadLen = .ok () := if_neg (by omega)

/-! ### Frames -/

/-- The header fields of a frame. -/
def frameHeader (lsn : Nat) (txnId : UInt64) (typeId : UInt8) (payloadLen : Nat) : Bytes :=
  le 8 lsn ++ le 8 txnId.toNat ++ [typeId] ++ le 4 payloadLen

theorem length_frameHeader (lsn : Nat) (txnId : UInt64) (typeId : UInt8) (payloadLen : Nat) :
    (frameHeader lsn txnId typeId payloadLen).length = HEADER_LEN := by
  simp [frameHeader, HEADER_LEN]

theorem frameBody_eq (lsn : Nat) (txnId : UInt64) (typeId : UInt8) (payload : Bytes) :
    frameBody lsn txnId typeId payload =
      frameHeader lsn txnId typeId payload.length ++ payload := by
  simp [frameBody, frameHeader]

@[simp] theorem readU8_cons (n : UInt8) (rest : Bytes) : readU8 (n :: rest) = .ok (n, rest) := by
  simp [readU8, readLe, split, leValue, Except.bind]

theorem readFrameHeader_append {lsn payloadLen : Nat} (txnId : UInt64) (typeId : UInt8)
    (fitsLsn : lsn < 2 ^ 64) (fitsLen : payloadLen < 2 ^ 32) (rest : Bytes) :
    readFrameHeader (frameHeader lsn txnId typeId payloadLen ++ rest) =
      .ok (⟨lsn, txnId, typeId, payloadLen⟩, rest) := by
  simp [readFrameHeader, frameHeader, readLe_append 8 fitsLsn, readLe_append 4 fitsLen, Except.bind]

theorem length_withCrc (serde : Serde χ) (body : Bytes) : (withCrc serde body).length = body.length + CRC_LEN := by
  simp [withCrc]

theorem length_frame (serde : Serde χ) (lsn : Nat) (txnId : UInt64) (typeId : UInt8) (payload : Bytes) :
    (withCrc serde (frameBody lsn txnId typeId payload)).length =
      HEADER_LEN + payload.length + CRC_LEN := by
  rw [length_withCrc, frameBody_eq, length_append, length_frameHeader]

/-- `frame` is the encoding of `record`, stored LSN included, and can be read back. -/
structure FrameOf (serde : Serde χ) (record : WalRecord χ) (frame : Bytes) : Prop where
  fits : record.lsn < 2 ^ 64
  exact_ : serde.Exact record.kind
  encoded : ∃ payload, encodePayload serde record.kind = .ok payload ∧ payload.length < 2 ^ 32 ∧
    frame = withCrc serde (frameBody record.lsn record.txnId (recordType record.kind) payload)

variable {record : WalRecord χ} {frame : Bytes}

theorem encodeRecord_ok (enc : encodeRecord serde record = .ok frame) :
    ∃ payload, encodePayload serde record.kind = .ok payload ∧ payload.length < 2 ^ 32 ∧
      frame = withCrc serde
        (frameBody record.lsn record.txnId (recordType record.kind) payload) := by
  unfold encodeRecord at enc
  cases payload : encodePayload serde record.kind with
  | error err =>
    rw [payload] at enc
    cases enc
  | ok bytes =>
    rw [payload, ok_bind] at enc
    split at enc
    · cases enc
      exact ⟨bytes, rfl, by assumption, rfl⟩
    · cases enc

/-- Patching the end position into a frame that was encoded with LSN 0 gives the
frame with that position. -/
theorem patch_lsn (lsn : Nat) (txnId : UInt64) (typeId : UInt8) (payload : Bytes) :
    let bytes := withCrc serde (frameBody 0 txnId typeId payload)
    (le 8 lsn ++ bytes.drop 8).take (bytes.length - CRC_LEN) =
      frameBody lsn txnId typeId payload := by
  have body (n : Nat) : frameBody n txnId typeId payload =
      le 8 n ++ (le 8 txnId.toNat ++ [typeId] ++ le 4 payload.length ++ payload) := by
    simp [frameBody]
  intro bytes
  have rest : bytes.drop 8 = (le 8 txnId.toNat ++ [typeId] ++ le 4 payload.length ++
      payload) ++ le CRC_LEN (serde.crc32 (frameBody 0 txnId typeId payload)).toNat := by
    rw [body 0, append_assoc]
    exact drop_left' (length_le 8 0)
  rw [rest, ← append_assoc, ← body lsn]
  apply take_left'
  simp only [bytes, length_frame]
  rw [frameBody_eq, length_append, length_frameHeader, Nat.add_sub_cancel]

/-- `encode_record_at` gives the record its end position and encodes it there. -/
theorem encodeRecordAt_ok {start : Nat} {kept : WalRecord χ} (exact_ : serde.Exact record.kind)
    (enc : encodeRecordAt serde record start = .ok (kept, frame)) :
    FrameOf serde kept frame ∧ kept = { record with lsn := start + frame.length } := by
  unfold encodeRecordAt at enc
  cases bare : encodeRecord serde { record with lsn := 0 } with
  | error err =>
    rw [bare] at enc
    cases enc
  | ok bytes =>
    obtain ⟨payload, hpayload, short, rfl⟩ := encodeRecord_ok bare
    rw [bare, ok_bind] at enc
    simp only [] at enc
    split at enc
    · rename_i fits
      rw [patch_lsn] at enc
      cases enc
      have length := length_frame serde 0 record.txnId (recordType record.kind) payload
      rw [length] at fits ⊢
      refine ⟨⟨fits, exact_, payload, hpayload, short, rfl⟩, ?_⟩
      rw [length_frame]
    · cases enc

theorem encodeRecordAt_eq {start : Nat} {kept : WalRecord χ}
    (enc : encodeRecordAt serde record start = .ok (kept, frame)) :
    kept.txnId = record.txnId ∧ kept.kind = record.kind := by
  unfold encodeRecordAt at enc
  obtain ⟨bytes, -, rest⟩ := bind_eq_ok.mp enc
  dsimp only at rest
  split at rest
  · cases rest
    exact ⟨rfl, rfl⟩
  · cases rest

/-- A frame is read as far as its payload. -/
theorem decodeOne_frame (fits : record.lsn < 2 ^ 64)
    (enc : encodePayload serde record.kind = .ok payload) (short : payload.length < 2 ^ 32)
    (rest : Bytes) :
    let frame := withCrc serde (frameBody record.lsn record.txnId (recordType record.kind) payload)
    decodeOne serde (frame ++ rest) = (do
      let kind ← decodePayload serde (recordType record.kind) payload
      .ok (.record ⟨record.lsn, record.txnId, kind⟩ frame.length)) := by
  intro frame
  have long : HEADER_LEN + CRC_LEN ≤ frame.length := by
    rw [length_frame]
    omega
  have cov (tail : Bytes) :
      (frameHeader record.lsn record.txnId (recordType record.kind) payload.length ++
        (payload ++ tail)).take (HEADER_LEN + payload.length) =
      frameHeader record.lsn record.txnId (recordType record.kind) payload.length ++ payload := by
    rw [← append_assoc]
    exact take_left' (by rw [length_append, length_frameHeader])
  unfold decodeOne
  rw [if_neg (by rw [length_append]; omega)]
  unfold frame
  rw [withCrc, frameBody_eq, append_assoc, append_assoc, readFrameHeader_append _ _ fits short,
    ok_bind]
  dsimp only
  rw [validateDeclaredPayloadLength_ok (encodePayload_length enc), ok_bind,
    if_neg (by simp), take_left, drop_left, CRC_LEN, readU32_append, ok_bind]
  rw [cov, if_neg (by simp)]
  refine bind_congr fun kind => ?_
  simp only [length_append]
  congr 2
  omega

theorem decodePayload_of_decodeOne {rest : Bytes} (fits : record.lsn < 2 ^ 64)
    (enc : encodePayload serde record.kind = .ok payload) (short : payload.length < 2 ^ 32)
    (decoded : decodeOne serde (withCrc serde
        (frameBody record.lsn record.txnId (recordType record.kind) payload) ++ rest) =
      .ok (.record record (withCrc serde
        (frameBody record.lsn record.txnId (recordType record.kind) payload)).length)) :
    decodePayload serde (recordType record.kind) payload = .ok record.kind := by
  rw [decodeOne_frame fits enc short] at decoded
  obtain ⟨kind, read, same⟩ := bind_eq_ok.mp decoded
  rw [read]
  simp only [Except.ok.injEq, DecodeResult.record.injEq] at same
  rw [← same.1]

namespace FrameOf

theorem le_length (frameOf : FrameOf serde record frame) : HEADER_LEN + CRC_LEN ≤ frame.length := by
  obtain ⟨payload, -, -, rfl⟩ := frameOf.encoded
  rw [length_frame]
  omega

/-- The header tells the length of the frame. -/
theorem frameLenFromHeader (frameOf : FrameOf serde record frame) :
    Wal.frameLenFromHeader (frame.take HEADER_LEN) = .ok frame.length := by
  obtain ⟨payload, enc, short, rfl⟩ := frameOf.encoded
  have head : (withCrc serde (frameBody record.lsn record.txnId (recordType record.kind)
      payload)).take HEADER_LEN =
      frameHeader record.lsn record.txnId (recordType record.kind) payload.length ++ [] := by
    rw [withCrc, frameBody_eq, append_assoc, append_nil]
    exact take_left' (length_frameHeader _ _ _ _)
  unfold Wal.frameLenFromHeader
  rw [head, if_neg (by simp [length_frameHeader]),
    readFrameHeader_append _ _ frameOf.fits short, ok_bind, length_frame]
  dsimp only
  rw [validateDeclaredPayloadLength_ok (encodePayload_length enc), ok_bind]

/-- A frame decodes to its record, whatever follows it. -/
theorem decodeOne (frameOf : FrameOf serde record frame) (rest : Bytes) :
    Wal.decodeOne serde (frame ++ rest) = .ok (.record record frame.length) := by
  obtain ⟨payload, enc, short, rfl⟩ := frameOf.encoded
  rw [decodeOne_frame frameOf.fits enc short, decodePayload_encodePayload frameOf.exact_ enc,
    ok_bind]

theorem decodeRecord (frameOf : FrameOf serde record frame) :
    Wal.decodeRecord serde frame = .ok record := by
  have one := frameOf.decodeOne []
  rw [append_nil] at one
  rw [Wal.decodeRecord, one, ok_bind]
  exact if_pos rfl

end FrameOf

theorem readLe_eq_ok {width n : Nat} {rest : Bytes} (read : readLe width bytes = .ok (n, rest)) :
    bytes = le width n ++ rest ∧ n < 256 ^ width := by
  unfold readLe split at read
  split at read
  · rename_i split
    split at split
    · cases split
      cases read
      have whole : (bytes.take width).length = width := length_take_of_le ‹_›
      have same := le_leValue (bytes.take width)
      have small := leValue_lt (bytes.take width)
      rw [whole] at same small
      rw [same, take_append_drop]
      exact ⟨rfl, small⟩
    · cases split
  · cases read

theorem readU32_eq_ok {n : UInt32} {rest : Bytes} (read : readU32 bytes = .ok (n, rest)) :
    bytes = le 4 n.toNat ++ rest := by
  obtain ⟨⟨value, _⟩, read, ⟨⟩⟩ := bind_eq_ok.mp read
  obtain ⟨same, small⟩ := readLe_eq_ok read
  rw [UInt32.toNat_ofNat', Nat.mod_eq_of_lt (by omega)]
  exact same

theorem readFrameHeader_eq_ok {fields : FrameHeader} {after : Bytes}
    (read : readFrameHeader bytes = .ok (fields, after)) :
    ∃ front, front.length = HEADER_LEN ∧ bytes = front ++ after := by
  obtain ⟨⟨lsn, _⟩, first, read⟩ := bind_eq_ok.mp read
  obtain ⟨⟨_, _⟩, snd, read⟩ := bind_eq_ok.mp read
  obtain ⟨⟨_, _⟩, third, read⟩ := bind_eq_ok.mp read
  obtain ⟨⟨len, _⟩, fourth, ⟨⟩⟩ := bind_eq_ok.mp read
  obtain ⟨⟨txnId, _⟩, snd, ⟨⟩⟩ := bind_eq_ok.mp snd
  obtain ⟨⟨typeId, _⟩, third, ⟨⟩⟩ := bind_eq_ok.mp third
  refine ⟨le 8 lsn ++ le 8 txnId ++ le 1 typeId ++ le 4 len, by simp [HEADER_LEN], ?_⟩
  rw [(readLe_eq_ok first).1, (readLe_eq_ok snd).1, (readLe_eq_ok third).1, (readLe_eq_ok fourth).1]
  simp

/-- What `decode_record` accepts ends with the checksum of all that precedes it. -/
theorem withCrc_of_decodeRecord (decoded : decodeRecord serde bytes = .ok record) :
    ∃ body, bytes = withCrc serde body := by
  obtain ⟨out, one, whole⟩ := bind_eq_ok.mp decoded
  cases out with
  | incomplete => cases whole
  | record found next =>
    unfold decodeOne at one
    split at one
    · cases one
    obtain ⟨⟨fields, after⟩, head, one⟩ := bind_eq_ok.mp one
    obtain ⟨_, -, one⟩ := bind_eq_ok.mp one
    dsimp only at one
    split at one
    · cases one
    obtain ⟨⟨crc, rest⟩, kept, one⟩ := bind_eq_ok.mp one
    dsimp only at one
    split at one
    · cases one
    rename_i matching
    obtain ⟨kind, -, ⟨⟩⟩ := bind_eq_ok.mp one
    obtain ⟨front, long, rfl⟩ := readFrameHeader_eq_ok head
    have tail := readU32_eq_ok kept
    dsimp only at whole
    split at whole
    · rename_i all
      rw [length_append, long, HEADER_LEN] at all
      obtain rfl : rest = [] := length_eq_zero_iff.mp (by omega)
      refine ⟨front ++ after.take fields.payloadLen, ?_⟩
      rw [append_nil] at tail
      rw [take_append, long, take_of_length_le (by omega), Nat.add_sub_cancel_left] at matching
      rw [withCrc, not_not.mp matching, CRC_LEN, append_assoc, ← tail, take_append_drop]
    · cases whole

end Saguaro.Wal
