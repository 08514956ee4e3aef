/-
Compression of pages and values (`crates/compress/src/codec.rs`, `registry.rs`) with its
callers: the page slots of `crates/storage/src/heap.rs`, the full-page images of
`fpi_record_kind` and of redo, and the inline varlenas of `crates/storage/src/codec.rs`
and `engine/dml.rs`.

zstd and CRC-32 are parameters, and the only law is that zstd decompresses what it has
compressed with the same dictionary. A prepared dictionary is its bytes. Allocation does
not fail. What a plain varlena must be for the type of its column is left out, and so are
the offsets in texts of errors.

A compressed page slot is told from a raw one by its first bytes, where the type of a raw
page never stands (`IsPage.not_isEnvelope`).
-/

import Saguaro.Wal.Codec

namespace Saguaro.Compress

open List Result Bytes Wal

structure Zstd where
  /-- With a dictionary or without, at a level. -/
  compress : Option Bytes → Int → Bytes → Except String Bytes
  /-- Into a buffer of the given size. -/
  decompress : Option Bytes → Bytes → Nat → Except String Bytes
  crc32 : Bytes → UInt32
  inverts {dict level raw payload} : compress dict level raw = .ok payload →
    decompress dict payload raw.length = .ok raw

def CODEC_NONE : UInt8 := 0
def CODEC_ZSTD : UInt8 := 1
def CODEC_ZSTD_DICT : UInt8 := 2

def LEVEL_AT_REST : Int := 3
def TOAST_ZSTD_LEVEL : Int := LEVEL_AT_REST
def LEVEL_WAL : Int := 1

def ENVELOPE_MARKER : Bytes := [83, 71, 67, 80, 0xFF, 0xFF]
def ENVELOPE_VERSION : UInt8 := 1
def ENVELOPE_HEADER_LEN : Nat := 18

structure Envelope where
  codec : UInt8
  dictId : UInt32
  payload : Bytes

/-- Also `corrupt_row` and `toast_corruption`. -/
def corrupt (message : String) : DbError := .storage .internalError message

variable {α : Type}

/-- `map_err` on an error of zstd. -/
def orCorrupt (what : String) : Except String α → Result α :=
  Except.mapError fun err => corrupt s!"{what}: {err}"

/-- `map_err` on an error of the slice reader. -/
def field (message : String) : Result α → Result α := Except.mapError fun _ => corrupt message

def validateEnvelopeCodec (codec : UInt8) : Result Unit :=
  failIf (codec ≠ CODEC_ZSTD ∧ codec ≠ CODEC_ZSTD_DICT) (corrupt s!"unknown envelope codec {codec}")

def isEnvelope (slot : Bytes) : Bool := ENVELOPE_MARKER.isPrefixOf slot

section
variable (z : Zstd)

def envelopeOf (codec : UInt8) (dictId : UInt32) (payload : Bytes) : Bytes :=
  ENVELOPE_MARKER ++ ENVELOPE_VERSION :: codec :: (le 4 dictId.toNat ++
    (le 2 payload.length ++ (le 4 (z.crc32 payload).toNat ++ payload)))

def encodeEnvelope (codec : UInt8) (dictId : UInt32) (payload : Bytes) : Result Bytes := do
  validateEnvelopeCodec codec
  failIf (2 ^ 16 ≤ payload.length) (corrupt s!"envelope payload too large: {payload.length}")
  return envelopeOf z codec dictId payload

def decodeEnvelope (slot : Bytes) : Result Envelope := do
  failIf (isEnvelope slot = false) (corrupt "not a compressed page envelope")
  failIf (slot.length < ENVELOPE_HEADER_LEN) (corrupt "compressed page envelope truncated")
  let rest := slot.drop ENVELOPE_MARKER.length
  let (version, rest) ← field "compressed page envelope version is truncated" (readU8 rest)
  failIf (version ≠ ENVELOPE_VERSION) (corrupt s!"unknown envelope version {version}")
  let (codec, rest) ← field "compressed page envelope codec is truncated" (readU8 rest)
  validateEnvelopeCodec codec
  let (dictId, rest) ← field "compressed page dictionary id is truncated" (readU32 rest)
  let (payloadLen, rest) ← field "compressed page payload length is truncated" (readLe 2 rest)
  let (storedCrc, rest) ← field "compressed page CRC is truncated" (readU32 rest)
  match split payloadLen rest with
  | none => .error (corrupt "envelope payload extends past the page slot")
  | some (payload, _) =>
    failIf (z.crc32 payload ≠ storedCrc) (corrupt "compressed page envelope CRC mismatch")
    return { codec, dictId, payload }

/-- `FileCompression`. -/
inductive FileCompression where
  | none
  | zstd (dictId : Option UInt32)
  deriving DecidableEq

structure CompressionRegistry where
  files : List (UInt32 × FileCompression)
  dicts : List (UInt32 × Bytes)

variable (reg : CompressionRegistry)

namespace CompressionRegistry

def fileConfig (fileId : UInt32) : FileCompression := (reg.files.lookup fileId).getD .none

/-- A dictionary that a decoder or an encoder of a value needs. -/
def dictionary (dictId : UInt32) : Result Bytes :=
  match reg.dicts.lookup dictId with
  | some dict => .ok dict
  | none => .error (corrupt s!"compression dictionary {dictId} is not registered")

def dictForFile (fileId : UInt32) : Option (UInt32 × Bytes) :=
  match reg.fileConfig fileId with
  | .zstd (some id) => (reg.dicts.lookup id).map (id, ·)
  | _ => none

/-- The part that `compress_page_at_rest` and `compress_fpi` have in common. -/
def compressImage (level : Int) (fileId : UInt32) (image : Bytes) :
    Except String (UInt8 × UInt32 × Bytes) :=
  match reg.dictForFile fileId with
  | some (id, dict) => (z.compress (some dict) level image).map (CODEC_ZSTD_DICT, id, ·)
  | none => (z.compress none level image).map (CODEC_ZSTD, 0, ·)

def compressPageAtRest (fileId : UInt32) (image : Bytes) : Result (Option Bytes) := do
  if reg.fileConfig fileId = .none then return none
  let (codec, dictId, payload) ←
    orCorrupt "zstd compress failed" (reg.compressImage z LEVEL_AT_REST fileId image)
  if ENVELOPE_HEADER_LEN + payload.length ≥ image.length then return none
  return some (← encodeEnvelope z codec dictId payload)

def decompressFpi (codec : UInt8) (dictId : UInt32) (payload : Bytes) (expectedLen : Nat) :
    Result Bytes := do
  let image ← (
    if codec = CODEC_ZSTD then
      orCorrupt "zstd decompress failed" (z.decompress none payload expectedLen)
    else if codec = CODEC_ZSTD_DICT then do
      let dict ← reg.dictionary dictId
      orCorrupt "zstd dict decompress failed" (z.decompress (some dict) payload expectedLen)
    else .error (corrupt s!"unknown compression codec {codec}"))
  failIf (image.length ≠ expectedLen)
    (corrupt s!"decompressed page is {image.length} bytes, expected {expectedLen}")
  return image

def decompressPage (slot : Bytes) (expectedLen : Nat) : Result (Option Bytes) := do
  if isEnvelope slot = false then return none
  let envelope ← decodeEnvelope z slot
  return some (← reg.decompressFpi z envelope.codec envelope.dictId envelope.payload expectedLen)

def compressFpi (fileId : UInt32) (image : Bytes) : Option (UInt8 × UInt32 × Bytes) := do
  let (codec, dictId, payload) ← (reg.compressImage z LEVEL_WAL fileId image).toOption
  if payload.length ≥ image.length then none else some (codec, dictId, payload)

def compressValueZstdDict (dictId : UInt32) (raw : Bytes) : Result Bytes := do
  let dict ← reg.dictionary dictId
  orCorrupt "zstd dict value compress failed" (z.compress (some dict) LEVEL_AT_REST raw)

def decompressValue (codec : UInt8) (dictId : Option UInt32) (payload : Bytes) (rawLen : Nat) :
    Result Bytes := do
  let value ← (
    if codec = CODEC_NONE then
      match dictId with
      | some id => .error (corrupt s!"raw value codec must not name dictionary {id}")
      | none => .ok payload
    else if codec = CODEC_ZSTD then
      match dictId with
      | some id => .error (corrupt s!"zstd value codec must not name dictionary {id}")
      | none => orCorrupt "zstd value decompress failed" (z.decompress none payload rawLen)
    else if codec = CODEC_ZSTD_DICT then
      match dictId with
      | none => .error (corrupt "zstd-dict value codec missing dict id")
      | some id => do
        let dict ← reg.dictionary id
        orCorrupt "zstd dict value decompress failed" (z.decompress (some dict) payload rawLen)
    else .error (corrupt s!"unknown value compression codec {codec}"))
  -- `ensure_value_len`, in each of the three branches.
  failIf (value.length ≠ rawLen)
    (corrupt s!"decompressed value is {value.length} bytes, expected {rawLen}")
  return value

/-- The three decoders, asked for one size. -/
def decoders (size : Nat) := (fun slot => reg.decompressPage z slot size,
    fun codec dictId payload => reg.decompressFpi z codec dictId payload size,
    fun codec dictId payload => reg.decompressValue z codec dictId payload size)

end CompressionRegistry

/-! ## Page slots and full-page images -/

def PAGE_SIZE : Nat := 8192
def FS_BLOCK_SIZE : Nat := 4096
def PAGE_TYPE_OFFSET : Nat := 4

/-- What `write_page` puts into the slot of a page. -/
def writePage (fileId : UInt32) (image : Bytes) : Result Bytes := do
  match ← reg.compressPageAtRest z fileId image with
  | some envelope =>
    if (envelope.length + FS_BLOCK_SIZE - 1) / FS_BLOCK_SIZE * FS_BLOCK_SIZE < PAGE_SIZE then
      return envelope ++ replicate (PAGE_SIZE - envelope.length) 0
    else return image
  | none => return image

/-- The page in a slot that was read; for redo (`lenient`) none if the envelope is damaged. -/
def decodeSlot (lenient : Bool) (slot : Bytes) : Result (Option Bytes) :=
  match reg.decompressPage z slot PAGE_SIZE with
  | .ok (some image) => .ok (some image)
  | .ok none => .ok (some slot)
  | .error err => if lenient then .ok none else .error err

/-- The two records of a full-page image. -/
inductive FpiRecord where
  | raw (image : Bytes)
  | compressed (codec : UInt8) (dictId : UInt32) (payload : Bytes)

def fpiRecordKind (fileId : UInt32) (image : Bytes) : FpiRecord :=
  match reg.compressFpi z fileId image with
  | some (codec, dictId, payload) => .compressed codec dictId payload
  | none => .raw image

/-- The image that redo applies. -/
def FpiRecord.redo (expectedLen : Nat) : FpiRecord → Result Bytes
  | .raw image => .ok image
  | .compressed codec dictId payload => reg.decompressFpi z codec dictId payload expectedLen

/-- A page: a frame that is not initialized yet, or of one of the two types. -/
structure IsPage (image : Bytes) : Prop where
  length : image.length = PAGE_SIZE
  type : ∃ type ∈ [0, 1, 2], image[PAGE_TYPE_OFFSET]? = some type

/-! ## Inline values -/

def VARLENA_LEN_MASK : Nat := 2 ^ 30 - 1
def MIN_TOAST_COMPRESSION_SAVINGS : Nat := 16

inductive ToastCompression where
  | none
  | zstd
  | zstdDict

structure ToastOptions where
  compression : ToastCompression
  activeDictId : Option UInt32
  minValueSize : Nat

/-- The inline ones of `VarlenaPhysical`. -/
inductive Varlena where
  | plain (raw : Bytes)
  | compressed (codec : UInt8) (dictId : Option UInt32) (rawLen : Nat) (rawCrc32 : UInt32)
      (payload : Bytes)

def compressValueZstd (raw : Bytes) : Result Bytes :=
  orCorrupt "zstd value compress failed" (z.compress none TOAST_ZSTD_LEVEL raw)

def tryToastValueCompression (options : ToastOptions) (raw : Bytes) :
    Result (Option (UInt8 × Option UInt32 × Bytes)) :=
  match options.compression, options.activeDictId with
  | .none, _ => .ok none
  | .zstdDict, some dictId => do
    return some (CODEC_ZSTD_DICT, some dictId, ← reg.compressValueZstdDict z dictId raw)
  | _, _ => do return some (CODEC_ZSTD, none, ← compressValueZstd z raw)

/-- `prepare_inline_toast_candidates`, for one value. -/
def prepareInline (options : ToastOptions) (raw : Bytes) : Result Varlena := do
  failIf (raw.length > VARLENA_LEN_MASK)
    (.storage .programLimitExceeded "varlena value exceeds the supported length")
  if raw.length < options.minValueSize then return .plain raw
  match ← tryToastValueCompression z reg options raw with
  | some (codec, dictId, payload) =>
    if 1 + 4 + 4 + 4 + payload.length + MIN_TOAST_COMPRESSION_SAVINGS ≤ raw.length then
      return .compressed codec dictId raw.length (z.crc32 raw) payload
    else return .plain raw
  | none => return .plain raw

def validateInlineCompressedCodecMetadata (codec : UInt8) (dictId : Option UInt32) : Result Unit :=
  if codec = CODEC_ZSTD then
    failIf dictId.isSome (corrupt "dict id is invalid for dict-less zstd value")
  else if codec = CODEC_ZSTD_DICT then
    match dictId with
    | some id => failIf (id = 0) (corrupt "dictionary id 0 is invalid for zstd-dict value")
    | none => .error (corrupt "missing dictionary id for zstd-dict value")
  else if codec = CODEC_NONE then .error (corrupt "codec none is invalid for inline compression")
  else .error (corrupt s!"unknown inline compressed codec {codec}")

/-- `put_varlena`: two bits of a word are the tag. -/
def putVarlena (tag : Nat) (stored : Bytes) : Result Bytes := do
  failIf (stored.length > VARLENA_LEN_MASK)
    (.storage .programLimitExceeded "varlena value length exceeds the supported length")
  return le 4 (tag * 2 ^ 30 + stored.length) ++ stored

/-- `encode_varlena_physical`. -/
def encodeVarlena : Varlena → Result Bytes
  | .plain raw => putVarlena 0 raw
  | .compressed codec dictId rawLen rawCrc32 payload => do
    failIf (rawLen > VARLENA_LEN_MASK) (.storage .programLimitExceeded
      "inline compressed raw length exceeds the supported length")
    validateInlineCompressedCodecMetadata codec dictId
    putVarlena 1 (codec :: (le 4 (dictId.getD 0).toNat ++ (le 4 rawLen ++
      (le 4 rawCrc32.toNat ++ payload))))

/-- The readers of a row have one text for their error. -/
def rowField (read : Result α) : Result α := field "row ended unexpectedly" read

@[simp] theorem rowField_ok (a : α) : rowField (.ok a) = .ok a := rfl

def decodeInlineCompressed (stored : Bytes) : Result Varlena := do
  let (codec, rest) ← rowField (readU8 stored)
  let (dictIdRaw, rest) ← rowField (readU32 rest)
  let dictId := if dictIdRaw ≠ 0 then some dictIdRaw else none
  let (rawLen, rest) ← rowField (readLe 4 rest)
  let (rawCrc32, payload) ← rowField (readU32 rest)
  failIf (rawLen > VARLENA_LEN_MASK)
    (corrupt "inline compressed raw length exceeds the supported length")
  validateInlineCompressedCodecMetadata codec dictId
  return .compressed codec dictId rawLen rawCrc32 payload

/-- `decode_varlena_physical` on an inline value, and the bytes behind it. -/
def decodeVarlena (bytes : Bytes) : Result (Varlena × Bytes) := do
  let (word, rest) ← rowField (readLe 4 bytes)
  match split (word % 2 ^ 30) rest with
  | none => .error (corrupt "row ended unexpectedly")
  | some (stored, rest) =>
    match word / 2 ^ 30 with
    | 0 => return (.plain stored, rest)
    | 1 => return (← decodeInlineCompressed stored, rest)
    | _ => .error (corrupt "reserved varlena tag")

/-- `materialize_toast_payload` on the compressed ones. -/
def materialize : Varlena → Result Bytes
  | .plain raw => .ok raw
  | .compressed codec dictId rawLen rawCrc32 payload => do
    let raw ← reg.decompressValue z codec dictId payload rawLen
    failIf (z.crc32 raw ≠ rawCrc32)
      (corrupt "TOAST value raw CRC32 does not match stored metadata")
    return raw

end

open CompressionRegistry

variable {z : Zstd} {reg : CompressionRegistry} {what : String} {codec : UInt8} {dictId fileId : UInt32}
  {payload image raw slot : Bytes} {options : ToastOptions} {value : Varlena}

@[simp] theorem orCorrupt_eq_ok {x : Except String α} {a : α} :
    orCorrupt what x = .ok a ↔ x = .ok a := by
  cases x <;> simp [orCorrupt, Except.mapError]

@[simp] theorem field_ok (a : α) : field what (.ok a) = .ok a := rfl

/-- An envelope is read back, whatever follows it in the slot. -/
theorem decodeEnvelope_append {envelope : Bytes}
    (enc : encodeEnvelope z codec dictId payload = .ok envelope) (rest : Bytes) :
    isEnvelope (envelope ++ rest) = true ∧ envelope.length = ENVELOPE_HEADER_LEN + payload.length ∧
      decodeEnvelope z (envelope ++ rest) = .ok ⟨codec, dictId, payload⟩ := by
  obtain ⟨_, valid, enc⟩ := bind_eq_ok.mp enc
  obtain ⟨_, small, enc⟩ := bind_eq_ok.mp enc
  cases enc
  have fits : payload.length < 2 ^ (8 * 2) := by simpa using small
  have marked : isEnvelope (envelopeOf z codec dictId payload ++ rest) = true := by
    simp [isEnvelope, envelopeOf, ENVELOPE_MARKER, isPrefixOf]
  have length : (envelopeOf z codec dictId payload).length = ENVELOPE_HEADER_LEN + payload.length := by
    simp [envelopeOf, ENVELOPE_MARKER, ENVELOPE_HEADER_LEN]
    omega
  refine ⟨marked, length, ?_⟩
  unfold decodeEnvelope
  rw [failIf, if_neg (by rw [marked]; decide), failIf, if_neg (by rw [length_append, length]; omega)]
  simp [envelopeOf, failIf, valid, readLe_append 2 fits, split_append]

theorem map_eq_ok {ε β : Type} {x : Except ε α} {f : α → β} {b : β} :
    x.map f = .ok b ↔ ∃ a, x = .ok a ∧ f a = b := by
  cases x <;> simp [Except.map]

/-- What either image encoder makes is restored. -/
theorem decompressFpi_compressImage {level : Int}
    (enc : reg.compressImage z level fileId image = .ok (codec, dictId, payload)) :
    reg.decompressFpi z codec dictId payload image.length = .ok image := by
  unfold compressImage at enc
  split at enc
  · rename_i id dict found
    have known : reg.dicts.lookup id = some dict := by
      unfold dictForFile at found
      split at found
      · obtain ⟨_, known, ⟨⟩⟩ := Option.map_eq_some_iff.mp found
        exact known
      · cases found
    obtain ⟨bytes, packed, ⟨⟩⟩ := map_eq_ok.mp enc
    simp [decompressFpi, CODEC_ZSTD_DICT, CODEC_ZSTD, dictionary, known, z.inverts packed,
      orCorrupt, Except.mapError, failIf]
  · obtain ⟨bytes, packed, ⟨⟩⟩ := map_eq_ok.mp enc
    simp [decompressFpi, z.inverts packed, orCorrupt, Except.mapError, failIf]

theorem decompressFpi_compressFpi
    (enc : reg.compressFpi z fileId image = some (codec, dictId, payload)) :
    reg.decompressFpi z codec dictId payload image.length = .ok image := by
  unfold compressFpi at enc
  cases packed : reg.compressImage z LEVEL_WAL fileId image with
  | error e => simp [packed, Except.toOption] at enc
  | ok made =>
    simp only [packed, Except.toOption, Option.bind_eq_bind, Option.bind_some] at enc
    split at enc <;> cases enc
    exact decompressFpi_compressImage packed

/-- The type of a page is no byte of the marker. -/
theorem IsPage.not_isEnvelope (page : IsPage image) : isEnvelope image = false := by
  obtain ⟨type, known, at_⟩ := page.type
  rw [Bool.eq_false_iff]
  intro marked
  obtain ⟨rest, rfl⟩ := isPrefixOf_iff_prefix.mp marked
  have same : (0xFF : UInt8) = type := by simpa [ENVELOPE_MARKER, PAGE_TYPE_OFFSET] using at_
  subst same
  revert known
  decide

theorem decodeSlot_writePage (page : IsPage image)
    (written : writePage z reg fileId image = .ok slot) (lenient : Bool) :
    slot.length = PAGE_SIZE ∧ decodeSlot z reg lenient slot = .ok (some image) := by
  have raw : decodeSlot z reg lenient image = .ok (some image) := by
    unfold decodeSlot decompressPage
    rw [if_pos page.not_isEnvelope]
    rfl
  obtain ⟨stored, comp, written⟩ := bind_eq_ok.mp written
  cases stored with
  | none =>
    cases written
    exact ⟨page.length, raw⟩
  | some envelope =>
    simp only at written
    split at written
    · cases written
      rename_i small
      unfold compressPageAtRest at comp
      split at comp
      · cases comp
      obtain ⟨⟨codec, dictId, payload⟩, packed, comp⟩ := bind_eq_ok.mp comp
      simp only at comp
      split at comp
      · cases comp
      obtain ⟨_, enc, same⟩ := bind_eq_ok.mp comp
      cases same
      obtain ⟨marked, length, dec⟩ := decodeEnvelope_append enc
        (replicate (PAGE_SIZE - envelope.length) 0)
      have back := decompressFpi_compressImage (orCorrupt_eq_ok.mp packed)
      rw [page.length] at back
      refine ⟨by simp [FS_BLOCK_SIZE, PAGE_SIZE] at small ⊢; omega, ?_⟩
      simp [decodeSlot, decompressPage, marked, dec, back]
    · cases written
      exact ⟨page.length, raw⟩

theorem redo_fpiRecordKind (fileId : UInt32) (image : Bytes) :
    (fpiRecordKind z reg fileId image).redo z reg image.length = .ok image := by
  unfold fpiRecordKind
  split
  · rename_i codec dictId payload comp
    exact decompressFpi_compressFpi comp
  · rfl

theorem decompressValue_tryToastValueCompression {dictId : Option UInt32}
    (enc : tryToastValueCompression z reg options raw = .ok (some (codec, dictId, payload))) :
    reg.decompressValue z codec dictId payload raw.length = .ok raw := by
  unfold tryToastValueCompression at enc
  split at enc
  · cases enc
  · obtain ⟨bytes, comp, same⟩ := bind_eq_ok.mp enc
    cases same
    obtain ⟨dict, found, packed⟩ := bind_eq_ok.mp comp
    simp [decompressValue, CODEC_ZSTD_DICT, CODEC_ZSTD, CODEC_NONE, found,
      z.inverts (orCorrupt_eq_ok.mp packed), orCorrupt, Except.mapError, failIf]
  obtain ⟨bytes, packed, same⟩ := bind_eq_ok.mp enc
  cases same
  simp [decompressValue, CODEC_ZSTD, CODEC_NONE,
    z.inverts (orCorrupt_eq_ok.mp packed), orCorrupt, Except.mapError, failIf]

/-- A varlena is read back, whatever follows it in the row. -/
theorem decodeVarlena_encodeVarlena {bytes : Bytes}
    (enc : encodeVarlena value = .ok bytes) (rest : Bytes) :
    decodeVarlena (bytes ++ rest) = .ok (value, rest) := by
  have word {tag : Nat} {stored bytes : Bytes} (small : tag < 4)
      (put : putVarlena tag stored = .ok bytes) : ∃ n, n / 2 ^ 30 = tag ∧
        readLe 4 (bytes ++ rest) = .ok (n, stored ++ rest) ∧
        split (n % 2 ^ 30) (stored ++ rest) = some (stored, rest) := by
    obtain ⟨_, fits, same⟩ := bind_eq_ok.mp put
    cases same
    simp only [failIf_eq_ok, VARLENA_LEN_MASK, gt_iff_lt, not_lt] at fits
    refine ⟨tag * 2 ^ 30 + stored.length, by omega, ?_, split_append (by omega)⟩
    rw [append_assoc]
    exact readLe_append 4 (by omega) _
  cases value with
  | plain raw =>
    obtain ⟨n, tag, read, cut⟩ := word (by decide) enc
    simp only [decodeVarlena, read, rowField_ok, ok_bind, cut, tag]
    rfl
  | compressed codec dictId rawLen rawCrc32 payload =>
    obtain ⟨_, small, enc⟩ := bind_eq_ok.mp enc
    obtain ⟨_, valid, put⟩ := bind_eq_ok.mp enc
    obtain ⟨n, tag, read, cut⟩ := word (by decide) put
    simp only [failIf_eq_ok, VARLENA_LEN_MASK, gt_iff_lt, not_lt] at small
    -- Id 0 stands for no dictionary; the check of the metadata keeps it from being one.
    have known : (if dictId.getD 0 ≠ 0 then some (dictId.getD 0) else none) = dictId := by
      cases dictId with
      | none => rfl
      | some id =>
        have nonzero : id ≠ 0 := by
          unfold validateInlineCompressedCodecMetadata at valid
          split_ifs at valid <;> simp_all
        simp [nonzero]
    have dec : decodeInlineCompressed (codec :: (le 4 (dictId.getD 0).toNat ++ (le 4 rawLen ++
        (le 4 rawCrc32.toNat ++ payload)))) =
        .ok (.compressed codec dictId rawLen rawCrc32 payload) := by
      simp only [decodeInlineCompressed, readU8_cons, readU32_append, rowField_ok, ok_bind,
        readLe_append 4 (show rawLen < 2 ^ (8 * 4) by omega), known, valid]
      rw [failIf, if_neg (by unfold VARLENA_LEN_MASK; omega)]
      rfl
    simp only [decodeVarlena, read, rowField_ok, ok_bind, cut, tag, dec]
    rfl

theorem materialize_prepareInline
    (prep : prepareInline z reg options raw = .ok value) : materialize z reg value = .ok raw := by
  obtain ⟨_, -, prep⟩ := bind_eq_ok.mp prep
  split at prep
  · cases prep
    rfl
  obtain ⟨made, packed, prep⟩ := bind_eq_ok.mp prep
  split at prep
  · split at prep <;> cases prep
    · simp [materialize, decompressValue_tryToastValueCompression packed, failIf]
    · rfl
  · cases prep
    rfl

/-- The last step of both decoders. -/
theorem length_of_ensured {x : Result Bytes} {e : Bytes → DbError} {size : Nat} (dec : (do
      let bytes ← x
      failIf (bytes.length ≠ size) (e bytes)
      return bytes) = .ok raw) : raw.length = size := by
  obtain ⟨_, -, checked⟩ := bind_eq_ok.mp dec
  obtain ⟨_, length, same⟩ := bind_eq_ok.mp checked
  cases same
  simpa using length

theorem decompressPage_length {expectedLen : Nat}
    (dec : reg.decompressPage z slot expectedLen = .ok (some image)) :
    image.length = expectedLen := by
  unfold decompressPage at dec
  split at dec
  · cases dec
  obtain ⟨envelope, -, dec⟩ := bind_eq_ok.mp dec
  obtain ⟨_, back, same⟩ := bind_eq_ok.mp dec
  cases same
  exact length_of_ensured back

/-- The decoders ask for no buffer but one of the expected size. -/
theorem decoders_congr {z' : Zstd} {size : Nat} (crc : z'.crc32 = z.crc32)
    (agree : ∀ dict bytes, z'.decompress dict bytes size = z.decompress dict bytes size) :
    decoders z' reg size = decoders z reg size := by
  have envelope slot : decodeEnvelope z' slot = decodeEnvelope z slot := by
    simp only [decodeEnvelope, crc]
  simp only [decoders, decompressPage, decompressFpi, decompressValue, envelope, agree]

/-- **Compression is lossless and safe.** A page that was written is the page that is read
from its slot, an image that was logged is the one that redo applies, and an inline value
that was stored is the one that is read from the row; and whatever they are given, the
decoders fail or give exactly the expected number of bytes, in a buffer of that size. -/
theorem compression_lossless (z : Zstd) (reg : CompressionRegistry) :
    (∀ fileId image slot, IsPage image → writePage z reg fileId image = .ok slot →
      slot.length = PAGE_SIZE ∧ ∀ lenient, decodeSlot z reg lenient slot = .ok (some image)) ∧
    (∀ fileId image, (fpiRecordKind z reg fileId image).redo z reg image.length = .ok image) ∧
    (∀ options raw value bytes rest, prepareInline z reg options raw = .ok value →
      encodeVarlena value = .ok bytes →
      decodeVarlena (bytes ++ rest) = .ok (value, rest) ∧ materialize z reg value = .ok raw) ∧
    ∀ size,
      (∀ slot image, reg.decompressPage z slot size = .ok (some image) → image.length = size) ∧
      (∀ codec dictId payload image,
        reg.decompressFpi z codec dictId payload size = .ok image → image.length = size) ∧
      (∀ codec dictId payload raw,
        reg.decompressValue z codec dictId payload size = .ok raw → raw.length = size) ∧
      ∀ z' : Zstd, z'.crc32 = z.crc32 →
        (∀ dict bytes, z'.decompress dict bytes size = z.decompress dict bytes size) →
        decoders z' reg size = decoders z reg size := by
  refine ⟨fun fileId image slot page written => ?_, redo_fpiRecordKind, ?_, fun size => ?_⟩
  · exact ⟨(decodeSlot_writePage page written false).1,
      fun lenient => (decodeSlot_writePage page written lenient).2⟩
  · intro options raw value bytes rest prep enc
    exact ⟨decodeVarlena_encodeVarlena enc rest, materialize_prepareInline prep⟩
  exact ⟨fun _ _ => decompressPage_length, fun _ _ _ _ => length_of_ensured,
    fun _ _ _ _ => length_of_ensured, fun _ => decoders_congr⟩

/-- An empty page. -/
def emptyPage : Bytes := replicate 4 9 ++ 1 :: 2 :: replicate (PAGE_SIZE - 6) 0

/-- A library that knows one page. -/
def Zstd.one : Zstd where
  compress _ _ raw := .ok (if raw = emptyPage then [1] else 0 :: raw)
  decompress _ payload _ := .ok (if payload = [1] then emptyPage else payload.tail)
  crc32 _ := 7
  inverts := by
    rintro dict level raw payload ⟨⟩
    split <;> simp [*]

/-- The page is stored in 19 bytes and read back. -/
theorem compression_lossless_emptyPage :
    let reg : CompressionRegistry := ⟨[(5, .zstd none)], []⟩
    ∃ slot, writePage .one reg 5 emptyPage = .ok slot ∧ isEnvelope slot = true ∧
      decodeSlot .one reg false slot = .ok (some emptyPage) := by
  intro reg
  have page : IsPage emptyPage := ⟨by decide +kernel, 1, by decide, rfl⟩
  have packed : reg.compressImage .one LEVEL_AT_REST 5 emptyPage = .ok (CODEC_ZSTD, 0, [1]) :=
    congrArg (fun payload => Except.ok (CODEC_ZSTD, 0, payload)) (if_pos rfl)
  obtain ⟨envelope, enc⟩ : ∃ envelope, encodeEnvelope .one CODEC_ZSTD 0 [1] = .ok envelope :=
    ⟨_, rfl⟩
  obtain ⟨marked, length, -⟩ := decodeEnvelope_append enc
    (replicate (PAGE_SIZE - envelope.length) 0)
  have stored : reg.compressPageAtRest .one 5 emptyPage = .ok (some envelope) := by
    have conf : reg.fileConfig 5 ≠ .none := by decide
    simp [compressPageAtRest, conf, packed, orCorrupt, Except.mapError,
      page.length, enc, ENVELOPE_HEADER_LEN, PAGE_SIZE]
  have written : writePage .one reg 5 emptyPage =
      .ok (envelope ++ replicate (PAGE_SIZE - envelope.length) 0) := by
    unfold writePage
    rw [stored]
    exact if_pos (by rw [length]; decide)
  exact ⟨_, written, marked, ((compression_lossless .one reg).1 5 _ _ page written).2 false⟩

end Saguaro.Compress
