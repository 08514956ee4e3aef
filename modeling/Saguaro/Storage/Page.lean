/-
Data pages (`crates/storage/src/page.rs`), byte by byte.

A page has a header of 22 bytes, rows that grow upwards from it, and an array of line
pointers that grows downwards from the end. Every function that changes a page ends by
writing the checksum over the whole of it.

The page size is a constant of the source (8192) and a parameter here. CRC-32 and zstd come
from other crates and are the parameters of `Saguaro.Compress`, whose registry compresses the
full-page images.
-/

import Saguaro.Compress.Registry
import Saguaro.Lib.Block

namespace Saguaro.Storage

def PAGE_TYPE_DATA : UInt8 := 1
def PAGE_TYPE_INDEX : UInt8 := 2
def PAGE_VERSION : UInt8 := 2

def HEADER_LEN : Nat := 22
def PAGE_ID_OFFSET : Nat := 0
def PAGE_TYPE_OFFSET : Nat := 4
def PAGE_VERSION_OFFSET : Nat := 5
def NUM_SLOTS_OFFSET : Nat := 6
def FREE_SPACE_OFFSET : Nat := 8
def PAGE_LSN_OFFSET : Nat := 10
def CHECKSUM_OFFSET : Nat := 18
def SLOT_LEN : Nat := 6

structure PageFormat where
  pageSize : Nat
  header_le : HEADER_LEN ≤ pageSize
  pageSize_lt : pageSize < 2 ^ 16
  zstd : Compress.Zstd
  registry : Compress.CompressionRegistry

namespace PageFormat

def crc32 (fmt : PageFormat) : Bytes → UInt32 := fmt.zstd.crc32

def compressFpi (fmt : PageFormat) : UInt32 → Bytes → Option (UInt8 × UInt32 × Bytes) :=
  fmt.registry.compressFpi fmt.zstd

def decompressFpi (fmt : PageFormat) (codec : UInt8) (dictId : UInt32) (payload : Bytes) :
    Result Bytes := fmt.registry.decompressFpi fmt.zstd codec dictId payload fmt.pageSize

/-- A compressed image of a page is restored. -/
theorem decompressFpi_compressFpi {fmt : PageFormat} {fileId dictId : UInt32} {codec : UInt8}
    {image payload : Bytes} (length : image.length = fmt.pageSize)
    (compressed : fmt.compressFpi fileId image = some (codec, dictId, payload)) :
    fmt.decompressFpi codec dictId payload = .ok image := by
  unfold decompressFpi
  rw [← length]
  exact Compress.decompressFpi_compressFpi compressed

end PageFormat

/-- `[u8; PAGE_SIZE]`. -/
abbrev Page (fmt : PageFormat) := Block fmt.pageSize

structure PageHeader where
  numSlots : Nat
  freeStart : Nat
  deriving DecidableEq, Repr

/-! ### Line pointers -/

namespace LinePointerFlags

def UNUSED : Nat := 0
def DEAD : Nat := 1
def NORMAL : Nat := 2
def REDIRECT : Nat := 3

end LinePointerFlags

open LinePointerFlags Result

structure Slot where
  offset : Nat
  len : Nat
  flags : Nat
  deriving DecidableEq, Repr

def Slot.isLive (s : Slot) : Bool := s.flags = NORMAL

def corruptPage (message : String) : DbError := .storage .internalError message

section

variable {fmt : PageFormat}

/-- `slot_offset`: line pointers grow downwards from the end of the page. -/
def slotOffset (fmt : PageFormat) (slot : Nat) : Option Nat :=
  if (slot + 1) * SLOT_LEN ≤ fmt.pageSize then some (fmt.pageSize - (slot + 1) * SLOT_LEN) else none

def readSlot (d : Page fmt) (slot : Nat) : Result Slot :=
  match slotOffset fmt slot with
  | none => .error (corruptPage "slot offset overflows page")
  | some off => .ok ⟨d.readLe off 2, d.readLe (off + 2) 2, d.readLe (off + 4) 2⟩

def writeSlot (d : Page fmt) (slot : Nat) (s : Slot) : Result (Page fmt) :=
  match slotOffset fmt slot with
  | none => .error (corruptPage "slot offset overflows page")
  | some off =>
    .ok (((d.writeLe off 2 s.offset).writeLe (off + 2) 2 s.len).writeLe (off + 4) 2 s.flags)

/-! ### Header -/

/-- `checksum`: over the whole page, with zeros in place of the checksum itself. -/
def checksum (d : Page fmt) : UInt32 := fmt.crc32 (d.slice 0 CHECKSUM_OFFSET ++ [0, 0, 0, 0] ++
    d.slice (CHECKSUM_OFFSET + 4) (fmt.pageSize - (CHECKSUM_OFFSET + 4)))

def writeChecksum (d : Page fmt) : Page fmt := d.writeLe CHECKSUM_OFFSET 4 (checksum d).toNat

def setPageLsn (d : Page fmt) (lsn : Nat) : Page fmt := writeChecksum (d.writeLe PAGE_LSN_OFFSET 8 lsn)

def pageLsn (d : Page fmt) : Nat := d.readLe PAGE_LSN_OFFSET 8

def initPage (fmt : PageFormat) (pageId : Nat) : Page fmt := writeChecksum
    (((((Block.zero fmt.pageSize).writeLe PAGE_ID_OFFSET 4 pageId).write PAGE_TYPE_OFFSET
      [PAGE_TYPE_DATA]).write PAGE_VERSION_OFFSET [PAGE_VERSION]).writeLe NUM_SLOTS_OFFSET 2 0
      |>.writeLe FREE_SPACE_OFFSET 2 HEADER_LEN)

/-! ### Validation -/

def PageHeader.read (d : Page fmt) : PageHeader :=
  ⟨d.readLe NUM_SLOTS_OFFSET 2, d.readLe FREE_SPACE_OFFSET 2⟩

/-- The checks of one line pointer in `validate_layout`. -/
def checkSlot (header : PageHeader) (s : Slot) : Result Unit :=
  if s.flags ≠ NORMAL ∧ s.flags ≠ DEAD ∧ s.flags ≠ UNUSED ∧ s.flags ≠ REDIRECT then
    .error (corruptPage "slot has invalid flags")
  else if s.flags = NORMAL ∧ (s.offset < HEADER_LEN ∨ header.freeStart < s.offset + s.len) then
    .error (corruptPage "slot points outside row region")
  else if s.flags = REDIRECT ∧ header.numSlots ≤ s.offset then
    .error (corruptPage "redirect target slot is out of bounds")
  else .ok ()

def validateSlots (d : Page fmt) (header : PageHeader) : List Nat → Result Unit
  | [] => .ok ()
  | slot :: rest => do
      let s ← readSlot d slot
      checkSlot header s
      validateSlots d header rest

/-- Where the line pointers start. -/
def slotStart (fmt : PageFormat) (header : PageHeader) : Result Nat :=
  if header.numSlots = 0 then .ok fmt.pageSize
  else match slotOffset fmt (header.numSlots - 1) with
    | none => .error (corruptPage "too many slots")
    | some off => .ok off

def validateLayout (d : Page fmt) (header : PageHeader) : Result Unit := do
  failIf (fmt.pageSize < header.freeStart) (corruptPage "free space offset is outside page")
  failIf (header.freeStart < HEADER_LEN) (corruptPage "free space offset overlaps header")
  let start ← slotStart fmt header
  failIf (start < header.freeStart) (corruptPage "row data overlaps slot array")
  validateSlots d header (List.range header.numSlots)

/-- Index nodes have a layout of their own, which the tree checks. -/
def validateBody (d : Page fmt) (header : PageHeader) : Result Unit :=
  if d.byte PAGE_TYPE_OFFSET = PAGE_TYPE_DATA then validateLayout d header else .ok ()

def validate (d : Page fmt) : Result PageHeader := do
  let pageType := d.byte PAGE_TYPE_OFFSET
  failIf (pageType ≠ PAGE_TYPE_DATA ∧ pageType ≠ PAGE_TYPE_INDEX)
    (corruptPage "unexpected page type")
  failIf (d.byte PAGE_VERSION_OFFSET ≠ PAGE_VERSION)
    (corruptPage s!"unsupported page version {d.byte PAGE_VERSION_OFFSET}")
  failIf (d.readLe CHECKSUM_OFFSET 4 ≠ (checksum d).toNat) (corruptPage "page checksum mismatch")
  let header := PageHeader.read d
  validateBody d header
  return header

def isValid (d : Page fmt) : Bool := (validate d).isOk

/-! ### Rows -/

def freeBytes (fmt : PageFormat) (header : PageHeader) : Nat :=
  (slotOffset fmt header.numSlots).getD 0 - header.freeStart

/-- `first_unused_slot`, over the slots that are left to look at. -/
def firstUnusedSlot (d : Page fmt) : List Nat → Result (Option Nat)
  | [] => .ok none
  | slot :: rest => do
      let s ← readSlot d slot
      if s.flags = UNUSED then .ok (some slot) else firstUnusedSlot d rest

/-- The middle part of `try_insert_row`: write the row where the free space starts, and
point the first unused line pointer at it, or a new one. -/
def placeRow (d : Page fmt) (header : PageHeader) (row : Bytes) : Result (Nat × Page fmt) := do
  let d := d.write header.freeStart row
  let newSlot : Slot := ⟨header.freeStart, row.length, NORMAL⟩
  match ← firstUnusedSlot d (List.range header.numSlots) with
  | some reused =>
    let d ← writeSlot d reused newSlot
    return (reused, d)
  | none =>
    let d ← writeSlot d header.numSlots newSlot
    return (header.numSlots, d.writeLe NUM_SLOTS_OFFSET 2 (header.numSlots + 1))

/-- `try_insert_row`. -/
def tryInsertRow (d : Page fmt) (row : Bytes) : Result (Option (Nat × Page fmt)) := do
  let header ← validate d
  failIf (2 ^ 16 ≤ row.length) (.storage .internalError "row is too large")
  if freeBytes fmt header < row.length then .ok none
  else do
    let (slot, d) ← placeRow d header row
    return some (slot, writeChecksum (d.writeLe FREE_SPACE_OFFSET 2 (header.freeStart + row.length)))

def insertRow (d : Page fmt) (row : Bytes) : Result (Nat × Page fmt) := do
  match ← tryInsertRow d row with
  | some inserted => .ok inserted
  | none => .error (.storage .internalError "page does not have enough free space")

/-- The line pointer of a slot that the header counts. -/
def checkedSlot (d : Page fmt) (slot : Nat) : Result Slot := do
  let header ← validate d
  failIf (header.numSlots ≤ slot) (corruptPage "slot number is out of bounds")
  readSlot d slot

def deleteRow (d : Page fmt) (slot : Nat) : Result (Bool × Page fmt) := do
  let s ← checkedSlot d slot
  if !s.isLive then .ok (false, d)
  else do
    let d ← writeSlot d slot { s with flags := DEAD }
    return (true, writeChecksum d)

/-! ### Tuple headers -/

def ROW_FORMAT_VERSION_V2 : UInt8 := 2
def ROW_FORMAT_VERSION_V3 : UInt8 := 3
def V2_MVCC_HEADER_LEN : Nat := 24

def corruptRow (message : String) : DbError := .storage .internalError message

/-- `codec::set_mvcc_header_fields`, on the row of `len` bytes at `start`. The header
starts after the version byte: `infomask` (2), `xmin` (8), `xmax` (8), `t_ctid` (4 + 2). -/
def setMvccHeaderFields (d : Page fmt) (start len : Nat) (xmax : Nat) (tCtid : Nat × Nat)
    (infomask : Nat) : Result (Page fmt) :=
  if len = 0 ∨ d.byte start ≠ ROW_FORMAT_VERSION_V2 ∧ d.byte start ≠ ROW_FORMAT_VERSION_V3 then
    .error (corruptRow "cannot mutate header of a non-MVCC (or empty) tuple")
  else if len < 1 + V2_MVCC_HEADER_LEN then
    .error (corruptRow "tuple is shorter than its v2 header")
  else
    .ok ((((d.writeLe (start + 1) 2 infomask).writeLe (start + 11) 8 xmax).writeLe
      (start + 19) 4 tCtid.1).writeLe (start + 23) 2 tCtid.2)

def setTupleHeader (d : Page fmt) (slot : Nat) (xmax : Nat) (tCtid : Nat × Nat) (infomask lsn : Nat) :
    Result (Page fmt) := do
  let s ← checkedSlot d slot
  failIf (!s.isLive) (.storage .internalError "cannot mutate the header of a non-live slot")
  let d ← setMvccHeaderFields d s.offset s.len xmax tCtid infomask
  return setPageLsn d lsn

end

end Saguaro.Storage
