/-
What a valid page looks like, and that the page functions keep it.

`validate_eq_ok` reads the checks of `validate` as a predicate (`Valid`), with the layout
of a data page (`Layout`) stated over all line pointers at once. Each function that
changes a data page is then described by the bytes it leaves alone.
-/

import Saguaro.Storage.Page

namespace Saguaro.Storage

open Result LinePointerFlags List Block Bytes PageHeader

variable {fmt : PageFormat} {d d' : Page fmt} {h : PageHeader}

/-! ### The header -/

theorem checksum_congr {d d' : Page fmt}
    (same : ∀ i, i < CHECKSUM_OFFSET ∨ CHECKSUM_OFFSET + 4 ≤ i → d.byte i = d'.byte i) :
    checksum d = checksum d' := by
  have front : d.slice 0 CHECKSUM_OFFSET = d'.slice 0 CHECKSUM_OFFSET :=
    slice_congr fun i _ lt => same i (.inl (by omega))
  have back : d.slice (CHECKSUM_OFFSET + 4) (fmt.pageSize - (CHECKSUM_OFFSET + 4)) =
      d'.slice (CHECKSUM_OFFSET + 4) (fmt.pageSize - (CHECKSUM_OFFSET + 4)) :=
    slice_congr fun i le _ => same i (.inr le)
  rw [checksum, checksum, front, back]

theorem byte_writeChecksum {d : Page fmt} {i : Nat}
    (out : i < CHECKSUM_OFFSET ∨ CHECKSUM_OFFSET + 4 ≤ i) : (writeChecksum d).byte i = d.byte i :=
  byte_write_of_notMem (by simpa using out)

theorem checksum_writeChecksum (d : Page fmt) : checksum (writeChecksum d) = checksum d :=
  checksum_congr fun _ out => byte_writeChecksum out

/-- Pages that agree outside of the checksum agree once it is written. -/
theorem writeChecksum_congr {d d' : Page fmt}
    (same : ∀ i, i < CHECKSUM_OFFSET ∨ CHECKSUM_OFFSET + 4 ≤ i → d.byte i = d'.byte i) :
    writeChecksum d = writeChecksum d' := by
  refine ext_byte fun i lt => ?_
  by_cases inside : CHECKSUM_OFFSET ≤ i ∧ i < CHECKSUM_OFFSET + 4
  · rw [writeChecksum, writeChecksum, checksum_congr same, writeLe, writeLe,
      byte_write_of_mem inside.1 (by simpa using inside.2) lt,
      byte_write_of_mem inside.1 (by simpa using inside.2) lt]
  · have out : i < CHECKSUM_OFFSET ∨ CHECKSUM_OFFSET + 4 ≤ i := by omega
    rw [byte_writeChecksum out, byte_writeChecksum out, same i out]

theorem pageLsn_setPageLsn {d : Page fmt} {lsn : Nat} (fits : lsn < 2 ^ 64) :
    pageLsn (setPageLsn d lsn) = lsn := by
  have inside : PAGE_LSN_OFFSET + 8 ≤ fmt.pageSize := le_trans (by decide) fmt.header_le
  rw [pageLsn, setPageLsn, writeChecksum, readLe_writeLe_of_disjoint (.inl (by decide)),
    readLe_writeLe_self inside fits]

/-- Only the last LSN that is stamped remains. -/
theorem setPageLsn_setPageLsn (d : Page fmt) (first snd : Nat) :
    setPageLsn (setPageLsn d first) snd = setPageLsn d snd := by
  refine writeChecksum_congr fun i out => ?_
  have inside : PAGE_LSN_OFFSET + 8 ≤ fmt.pageSize := le_trans (by decide) fmt.header_le
  by_cases lsn : PAGE_LSN_OFFSET ≤ i ∧ i < PAGE_LSN_OFFSET + 8
  · rw [writeLe, writeLe, byte_write_of_mem lsn.1 (by simpa using lsn.2) (by omega),
      byte_write_of_mem lsn.1 (by simpa using lsn.2) (by omega)]
  have apart : i < PAGE_LSN_OFFSET ∨ PAGE_LSN_OFFSET + 8 ≤ i := by omega
  have frame (e : Page fmt) (v : Nat) : (e.writeLe PAGE_LSN_OFFSET 8 v).byte i = e.byte i :=
    byte_write_of_notMem (by simpa using apart)
  rw [frame, frame, setPageLsn, byte_writeChecksum out, frame]

/-! ### Line pointers -/

/-- Where the line pointer of a slot is, for slots that fit the page. -/
def slotPos (fmt : PageFormat) (slot : Nat) : Nat := fmt.pageSize - (slot + 1) * SLOT_LEN

def slotAt (d : Page fmt) (slot : Nat) : Slot :=
  ⟨d.readLe (slotPos fmt slot) 2, d.readLe (slotPos fmt slot + 2) 2, d.readLe (slotPos fmt slot + 4) 2⟩

variable {slot : Nat}

theorem readSlot_eq (fits : (slot + 1) * SLOT_LEN ≤ fmt.pageSize) :
    readSlot d slot = .ok (slotAt d slot) := by
  simp only [readSlot, slotOffset, if_pos fits]
  rfl

theorem readLe_congr {off width : Nat} (same : ∀ i, off ≤ i → i < off + width → d.byte i = d'.byte i) :
    d.readLe off width = d'.readLe off width := by
  rw [readLe, readLe, slice_congr same]

theorem slotAt_congr
    (same : ∀ i, slotPos fmt slot ≤ i → i < slotPos fmt slot + SLOT_LEN → d.byte i = d'.byte i) :
    slotAt d slot = slotAt d' slot := by
  simp only [SLOT_LEN] at same
  simp only [slotAt, Slot.mk.injEq]
  exact ⟨readLe_congr fun i low high => same i (by omega) (by omega),
    readLe_congr fun i low high => same i (by omega) (by omega),
    readLe_congr fun i low high => same i (by omega) (by omega)⟩

/-! ### Validity -/

structure SlotOk (h : PageHeader) (s : Slot) : Prop where
  flags : s.flags = NORMAL ∨ s.flags = DEAD ∨ s.flags = UNUSED ∨ s.flags = REDIRECT
  row : s.flags = NORMAL → HEADER_LEN ≤ s.offset ∧ s.offset + s.len ≤ h.freeStart
  target : s.flags = REDIRECT → s.offset < h.numSlots

structure Layout (d : Page fmt) (h : PageHeader) : Prop where
  free_ge : HEADER_LEN ≤ h.freeStart
  free_le : h.freeStart + h.numSlots * SLOT_LEN ≤ fmt.pageSize
  slots : ∀ slot, slot < h.numSlots → SlotOk h (slotAt d slot)

structure Valid (d : Page fmt) (h : PageHeader) : Prop where
  type : d.byte PAGE_TYPE_OFFSET = PAGE_TYPE_DATA ∨ d.byte PAGE_TYPE_OFFSET = PAGE_TYPE_INDEX
  version : d.byte PAGE_VERSION_OFFSET = PAGE_VERSION
  checksum : d.readLe CHECKSUM_OFFSET 4 = (checksum d).toNat
  header : read d = h
  layout : d.byte PAGE_TYPE_OFFSET = PAGE_TYPE_DATA → Layout d h

variable {s : Slot} {u : Unit}

theorem checkSlot_eq_ok : checkSlot h s = .ok u ↔ SlotOk h s := by
  constructor
  · intro checked
    unfold checkSlot at checked
    split_ifs at checked with flags row target
    exact ⟨by tauto, fun norm => by simp only [norm, true_and, not_or, not_lt] at row; exact row,
      fun redirect => by simp only [redirect, true_and, not_le] at target; exact target⟩
  · rintro ⟨flags, row, target⟩
    unfold checkSlot
    rw [if_neg (by tauto), if_neg (by have := row; omega), if_neg (by have := target; omega)]

theorem validateSlots_eq_ok {slots : List Nat}
    (fits : ∀ slot ∈ slots, (slot + 1) * SLOT_LEN ≤ fmt.pageSize) :
    validateSlots d h slots = .ok u ↔ ∀ slot ∈ slots, SlotOk h (slotAt d slot) := by
  induction slots with
  | nil => simp [validateSlots]
  | cons slot rest ih =>
    have ih := ih fun s mem => fits s (.tail _ mem)
    simp only [validateSlots, bind_eq_ok, readSlot_eq (fits slot (.head _)),
      Except.ok.injEq, exists_eq_left', checkSlot_eq_ok, ih, forall_mem_cons]
    simp

theorem slotStart_eq_ok {start : Nat} : slotStart fmt h = .ok start ↔
    h.numSlots * SLOT_LEN ≤ fmt.pageSize ∧ start = fmt.pageSize - h.numSlots * SLOT_LEN := by
  unfold slotStart slotOffset
  cases count : h.numSlots with
  | zero => simp [eq_comm]
  | succ n =>
    by_cases fits : (n + 1) * SLOT_LEN ≤ fmt.pageSize
    · simp [fits, eq_comm]
    · simp [fits]

theorem validateLayout_eq_ok : validateLayout d h = .ok u ↔ Layout d h := by
  simp only [validateLayout, bind_eq_ok, failIf_eq_ok, slotStart_eq_ok]
  constructor
  · rintro ⟨-, inside, -, above, start, ⟨fits, rfl⟩, -, free, slots⟩
    rw [validateSlots_eq_ok fun slot mem => by
      have := mem_range.mp mem
      exact le_trans (Nat.mul_le_mul_right _ this) fits] at slots
    exact ⟨Nat.le_of_not_lt above, by omega, fun slot lt => slots slot (mem_range.mpr lt)⟩
  rintro ⟨above, inside, slots⟩
  refine ⟨(), by omega, (), not_lt.mpr above, _, ⟨by omega, rfl⟩, (), by omega, ?_⟩
  refine (validateSlots_eq_ok fun slot mem => ?_).mpr fun slot mem => slots slot (mem_range.mp mem)
  have : (slot + 1) * SLOT_LEN ≤ h.numSlots * SLOT_LEN :=
    Nat.mul_le_mul_right SLOT_LEN (mem_range.mp mem)
  omega

/-- `validate` decides `Valid`. -/
theorem validate_eq_ok : validate d = .ok h ↔ Valid d h := by
  simp only [validate, bind_eq_ok, failIf_eq_ok, pure_eq_ok]
  constructor
  · rintro ⟨-, type, -, version, -, sum, u, layout, rfl⟩
    refine ⟨by tauto, not_not.mp version, not_not.mp sum, rfl, fun data => ?_⟩
    rw [validateBody, if_pos data] at layout
    exact validateLayout_eq_ok.mp layout
  rintro ⟨type, version, sum, rfl, layout⟩
  refine ⟨(), by tauto, (), not_not.mpr version, (), not_not.mpr sum, (), ?_, rfl⟩
  unfold validateBody
  split
  · rename_i data
    exact validateLayout_eq_ok.mpr (layout data)
  · rfl

/-- So does `isValid`. -/
theorem isValid_iff : isValid d = true ↔ ∃ h, Valid d h := by
  simp only [← validate_eq_ok, isValid]
  cases validate d <;> simp [Except.isOk, Except.toBool]

/-! ### Writes and what they leave -/

theorem headerRead_congr (same : ∀ i, NUM_SLOTS_OFFSET ≤ i → i < PAGE_LSN_OFFSET → d.byte i = d'.byte i) :
    PageHeader.read d = PageHeader.read d' := by
  simp only [NUM_SLOTS_OFFSET, PAGE_LSN_OFFSET] at same
  simp only [PageHeader.read, PageHeader.mk.injEq, NUM_SLOTS_OFFSET, FREE_SPACE_OFFSET]
  exact ⟨readLe_congr fun i low high => same i (by omega) (by omega),
    readLe_congr fun i low high => same i (by omega) (by omega)⟩

/-- The line pointers lie above the rows. -/
theorem Layout.slotPos_ge (layout : Layout d h) (lt : slot < h.numSlots) :
    h.freeStart ≤ slotPos fmt slot ∧ slotPos fmt slot + SLOT_LEN ≤ fmt.pageSize := by
  have bound : (slot + 1) * SLOT_LEN ≤ h.numSlots * SLOT_LEN := Nat.mul_le_mul_right SLOT_LEN lt
  have inside := layout.free_le
  simp only [slotPos, SLOT_LEN] at *
  omega

/-- Different slots have different places. -/
theorem slotPos_apart {slot slot' : Nat} (other : slot ≠ slot')
    (fits : (slot + 1) * SLOT_LEN ≤ fmt.pageSize) (fits' : (slot' + 1) * SLOT_LEN ≤ fmt.pageSize) :
    slotPos fmt slot + SLOT_LEN ≤ slotPos fmt slot' ∨ slotPos fmt slot' + SLOT_LEN ≤ slotPos fmt slot := by
  simp only [slotPos, SLOT_LEN] at *
  omega

theorem Layout.congr (layout : Layout d h)
    (same : ∀ i, h.freeStart ≤ i → d'.byte i = d.byte i) : Layout d' h where
  free_ge := layout.free_ge
  free_le := layout.free_le
  slots slot lt := by
    rw [slotAt_congr fun i low _ => same i (le_trans (layout.slotPos_ge lt).1 low)]
    exact layout.slots slot lt

theorem checksum_written (d : Page fmt) :
    (writeChecksum d).readLe CHECKSUM_OFFSET 4 = (checksum (writeChecksum d)).toNat := by
  have inside : CHECKSUM_OFFSET + 4 ≤ fmt.pageSize := fmt.header_le
  rw [checksum_writeChecksum, writeChecksum, readLe_writeLe_self inside (checksum d).toNat_lt]

theorem headerRead_writeChecksum : read (writeChecksum d) = read d :=
  headerRead_congr fun _ _ lt => byte_writeChecksum (.inl (lt_of_lt_of_le lt (by decide)))

/-- A data page is valid once its checksum is written. -/
theorem valid_writeChecksum (type : d.byte PAGE_TYPE_OFFSET = PAGE_TYPE_DATA)
    (version : d.byte PAGE_VERSION_OFFSET = PAGE_VERSION) (header : read d = h)
    (layout : Layout d h) : Valid (writeChecksum d) h where
  type := .inl ((byte_writeChecksum (.inl (by decide))).trans type)
  version := (byte_writeChecksum (.inl (by decide))).trans version
  checksum := checksum_written d
  header := headerRead_writeChecksum.trans header
  layout _ := layout.congr fun i le =>
    byte_writeChecksum (.inr (le_trans layout.free_ge le))

theorem byte_setPageLsn {lsn i : Nat} (out : i < PAGE_LSN_OFFSET ∨ HEADER_LEN ≤ i) :
    (setPageLsn d lsn).byte i = d.byte i := by
  simp only [PAGE_LSN_OFFSET, HEADER_LEN] at out
  rw [setPageLsn, byte_writeChecksum (by simp only [CHECKSUM_OFFSET]; omega)]
  exact byte_write_of_notMem (by simp only [length_le, PAGE_LSN_OFFSET]; omega)

/-- The LSN is no part of the layout. -/
theorem Valid.setPageLsn (valid : Valid d h) (lsn : Nat) : Valid (setPageLsn d lsn) h where
  type := by
    rw [byte_setPageLsn (.inl (by decide))]
    exact valid.type
  version := (byte_setPageLsn (.inl (by decide))).trans valid.version
  checksum := checksum_written _
  header := by
    rw [← valid.header]
    exact headerRead_congr fun i _ lt => byte_setPageLsn (.inl lt)
  layout data := by
    have layout := valid.layout ((byte_setPageLsn (.inl (by decide))).symm.trans data)
    exact layout.congr fun i le => byte_setPageLsn (.inr (le_trans layout.free_ge le))

/-- A new page is valid. -/
theorem valid_initPage (fmt : PageFormat) (pageId : Nat) :
    Valid (initPage fmt pageId) ⟨0, HEADER_LEN⟩ ∧
      (initPage fmt pageId).byte PAGE_TYPE_OFFSET = PAGE_TYPE_DATA := by
  have room : HEADER_LEN ≤ fmt.pageSize := fmt.header_le
  simp only [HEADER_LEN] at room
  have type (e : Page fmt) : (((e.write PAGE_TYPE_OFFSET [PAGE_TYPE_DATA]).write PAGE_VERSION_OFFSET
      [PAGE_VERSION]).writeLe NUM_SLOTS_OFFSET 2 0 |>.writeLe FREE_SPACE_OFFSET 2 HEADER_LEN).byte
        PAGE_TYPE_OFFSET = PAGE_TYPE_DATA := by
    rw [writeLe, byte_write_of_notMem (.inl (by decide)), writeLe,
      byte_write_of_notMem (.inl (by decide)), byte_write_of_notMem (.inl (by decide)),
      byte_write_of_mem le_rfl (by decide) (by simp only [PAGE_TYPE_OFFSET]; omega)]
    rfl
  have version (e : Page fmt) : ((e.write PAGE_VERSION_OFFSET [PAGE_VERSION]).writeLe NUM_SLOTS_OFFSET 2 0
      |>.writeLe FREE_SPACE_OFFSET 2 HEADER_LEN).byte PAGE_VERSION_OFFSET = PAGE_VERSION := by
    rw [writeLe, byte_write_of_notMem (.inl (by decide)), writeLe,
      byte_write_of_notMem (.inl (by decide)),
      byte_write_of_mem le_rfl (by decide) (by simp only [PAGE_VERSION_OFFSET]; omega)]
    rfl
  have head (e : Page fmt) : PageHeader.read ((e.writeLe NUM_SLOTS_OFFSET 2 0).writeLe FREE_SPACE_OFFSET 2
      HEADER_LEN) = ⟨0, HEADER_LEN⟩ := by
    rw [PageHeader.read, readLe_writeLe_of_disjoint (.inl (by decide)),
      readLe_writeLe_self (by simp only [NUM_SLOTS_OFFSET]; omega) (by decide),
      readLe_writeLe_self (by simp only [FREE_SPACE_OFFSET]; omega) (by decide)]
  have layout (e : Page fmt) : Layout e ⟨0, HEADER_LEN⟩ :=
    ⟨le_rfl, by simp only [HEADER_LEN]; omega, fun slot lt => absurd lt (Nat.not_lt_zero slot)⟩
  exact ⟨valid_writeChecksum (type _) (version _) (head _) (layout _),
    (byte_writeChecksum (.inl (by decide))).trans (type _)⟩

theorem writeSlot_eq : writeSlot d slot s = .ok d' ↔ (slot + 1) * SLOT_LEN ≤ fmt.pageSize ∧
      d' = ((d.writeLe (slotPos fmt slot) 2 s.offset).writeLe (slotPos fmt slot + 2) 2 s.len).writeLe
        (slotPos fmt slot + 4) 2 s.flags := by
  unfold writeSlot slotOffset slotPos
  by_cases fits : (slot + 1) * SLOT_LEN ≤ fmt.pageSize
  · simp [fits, eq_comm]
  · simp [fits]

theorem byte_writeSlot {slot i : Nat} (wrote : writeSlot d slot s = .ok d')
    (out : i < slotPos fmt slot ∨ slotPos fmt slot + SLOT_LEN ≤ i) : d'.byte i = d.byte i := by
  obtain ⟨-, rfl⟩ := writeSlot_eq.mp wrote
  simp only [SLOT_LEN] at out
  rw [writeLe, byte_write_of_notMem (by rw [length_le]; omega), writeLe,
    byte_write_of_notMem (by rw [length_le]; omega), writeLe,
    byte_write_of_notMem (by rw [length_le]; omega)]

/-- The fields of a line pointer are 16-bit numbers. -/
def Slot.Fits (s : Slot) : Prop := s.offset < 2 ^ 16 ∧ s.len < 2 ^ 16 ∧ s.flags < 2 ^ 16

/-- A slot reads back as written. -/
theorem slotAt_writeSlot (wrote : writeSlot d slot s = .ok d') (small : s.Fits) :
    slotAt d' slot = s := by
  obtain ⟨fits, rfl⟩ := writeSlot_eq.mp wrote
  have inside : slotPos fmt slot + SLOT_LEN ≤ fmt.pageSize := by
    simp only [slotPos, SLOT_LEN] at *
    omega
  simp only [SLOT_LEN] at inside
  obtain ⟨offset, len, flags⟩ := small
  simp only [slotAt]
  rw [readLe_writeLe_of_disjoint (.inl (by omega)), readLe_writeLe_of_disjoint (.inl (by omega)),
    readLe_writeLe_self (by omega) offset, readLe_writeLe_of_disjoint (.inl (by omega)),
    readLe_writeLe_self (by omega) len, readLe_writeLe_self (by omega) flags]

theorem slotAt_writeSlot_of_ne {slot slot' : Nat} (wrote : writeSlot d slot s = .ok d')
    (other : slot' ≠ slot) (fits : (slot' + 1) * SLOT_LEN ≤ fmt.pageSize) :
    slotAt d' slot' = slotAt d slot' := by
  have apart := slotPos_apart other fits (writeSlot_eq.mp wrote).1
  refine slotAt_congr fun i low high => byte_writeSlot wrote ?_
  rcases apart with below | above
  · exact .inl (lt_of_lt_of_le high below)
  · exact .inr (le_trans above low)

/-! ### Insertion -/

theorem slot_lt_of_writeSlot {d image : Page fmt}
    (wrote : writeSlot d slot s = .ok image) : slot < 2 ^ 16 := by
  unfold writeSlot slotOffset at wrote
  split at wrote
  · cases wrote
  rename_i off found
  have fits := (Option.ite_none_right_eq_some.mp found).1
  have := fmt.pageSize_lt
  simp only [SLOT_LEN] at fits
  omega

variable {row : Bytes}

theorem placeRow_slot_lt {d image : Page fmt} {head : PageHeader}
    (placed : placeRow d head row = .ok (slot, image)) : slot < 2 ^ 16 := by
  simp only [placeRow, bind_eq_ok] at placed
  obtain ⟨found, -, placed⟩ := placed
  cases found with
  | some reused =>
    obtain ⟨d', wrote, ⟨⟩⟩ := bind_eq_ok.mp placed
    exact slot_lt_of_writeSlot wrote
  | none =>
    obtain ⟨d', wrote, ⟨⟩⟩ := bind_eq_ok.mp placed
    exact slot_lt_of_writeSlot wrote

/-- What an insertion is made of. -/
theorem insertRow_eq_ok {d image : Page fmt} :
    insertRow d row = .ok (slot, image) ↔ ∃ head, validate d = .ok head ∧ row.length < 2 ^ 16 ∧
      row.length ≤ freeBytes fmt head ∧ ∃ placed, placeRow d head row = .ok (slot, placed) ∧
        image = writeChecksum (placed.writeLe FREE_SPACE_OFFSET 2 (head.freeStart + row.length)) := by
  simp only [insertRow, tryInsertRow, bind_eq_ok, failIf_eq_ok]
  constructor
  · rintro ⟨res, ⟨head, valid, -, small, tried⟩, ins⟩
    split at tried
    · cases tried
      cases ins
    rename_i room
    obtain ⟨⟨slot', placed⟩, place, ⟨⟩⟩ := bind_eq_ok.mp tried
    cases ins
    exact ⟨head, valid, Nat.lt_of_not_le small, Nat.le_of_not_lt room, placed, place, rfl⟩
  rintro ⟨head, valid, small, room, placed, place, rfl⟩
  refine ⟨some (slot, _), ⟨head, valid, (), not_le.mpr small, ?_⟩, rfl⟩
  rw [if_neg (not_lt.mpr room)]
  exact bind_eq_ok.mpr ⟨(slot, placed), place, rfl⟩


/-- What `insert_row` does to a data page. -/
structure Inserted (d : Page fmt) (h : PageHeader) (row : Bytes) (slot : Nat) (image : Page fmt)
    (h' : PageHeader) : Prop where
  freeStart : h'.freeStart = h.freeStart + row.length
  fresh : slot < h.numSlots ∧ h'.numSlots = h.numSlots ∧ (slotAt d slot).flags = UNUSED ∨
    slot = h.numSlots ∧ h'.numSlots = h.numSlots + 1
  room : h'.freeStart + h'.numSlots * SLOT_LEN ≤ fmt.pageSize
  pointer : slotAt image slot = ⟨h.freeStart, row.length, NORMAL⟩
  others : ∀ s, s < h.numSlots → s ≠ slot → slotAt image s = slotAt d s
  rows : ∀ i, i < NUM_SLOTS_OFFSET ∨ HEADER_LEN ≤ i ∧ i < h.freeStart → image.byte i = d.byte i
  row : image.slice h.freeStart row.length = row

theorem firstUnusedSlot_eq_some {slots : List Nat}
    (fits : ∀ s ∈ slots, (s + 1) * SLOT_LEN ≤ fmt.pageSize)
    (found : firstUnusedSlot d slots = .ok (some slot)) :
    slot ∈ slots ∧ (slotAt d slot).flags = UNUSED := by
  induction slots with
  | nil => cases found
  | cons head rest ih =>
    simp only [firstUnusedSlot, readSlot_eq (fits head (.head _)), ok_bind] at found
    split at found
    · rename_i unused
      cases found
      exact ⟨.head _, unused⟩
    · obtain ⟨mem, unused⟩ := ih (fun s mem => fits s (.tail _ mem)) found
      exact ⟨.tail _ mem, unused⟩

theorem le_of_freeBytes {len : Nat} (ne : 0 < len) (room : len ≤ freeBytes fmt h) :
    h.freeStart + len + (h.numSlots + 1) * SLOT_LEN ≤ fmt.pageSize := by
  unfold freeBytes slotOffset at room
  split at room
  · simp only [Option.getD_some] at room
    omega
  · simp only [Option.getD_none] at room
    omega

variable {h' : PageHeader}

/-- A row and its line pointer written to a page, and nothing else but the header. -/
theorem inserted_of_bytes {pointed image : Page fmt}
    (layout : Layout d h) (ne : 0 < row.length) (room : row.length ≤ freeBytes fmt h)
    (fresh : slot < h.numSlots ∧ h'.numSlots = h.numSlots ∧ (slotAt d slot).flags = UNUSED ∨
      slot = h.numSlots ∧ h'.numSlots = h.numSlots + 1)
    (freeStart : h'.freeStart = h.freeStart + row.length)
    (wrote : writeSlot (d.write h.freeStart row) slot ⟨h.freeStart, row.length, NORMAL⟩ = .ok pointed)
    (same : ∀ i, i < NUM_SLOTS_OFFSET ∨ HEADER_LEN ≤ i → image.byte i = pointed.byte i) :
    Inserted d h row slot image h' := by
  have space := le_of_freeBytes ne room
  have above := layout.free_ge
  have size := fmt.pageSize_lt
  simp only [SLOT_LEN] at space
  have pos : h.freeStart + row.length ≤ slotPos fmt slot ∧ slotPos fmt slot + SLOT_LEN ≤ fmt.pageSize := by
    simp only [slotPos, SLOT_LEN]
    omega
  have head : HEADER_LEN ≤ slotPos fmt slot := by omega
  refine
    { freeStart, fresh
      room := by simp only [SLOT_LEN]; omega
      pointer := ?_
      others := fun s lt other => ?_
      rows := fun i out => ?_
      row := ?_ }
  · rw [slotAt_congr fun i low _ => same i (.inr (le_trans head low))]
    exact slotAt_writeSlot wrote ⟨by simp only; omega, by simp only; omega, show NORMAL < 2 ^ 16 by decide⟩
  · have fits : (s + 1) * SLOT_LEN ≤ fmt.pageSize := by
      simp only [SLOT_LEN]
      omega
    have low' : h.freeStart + row.length ≤ slotPos fmt s := by
      simp only [slotPos, SLOT_LEN]
      omega
    rw [slotAt_congr fun i low _ => same i (.inr (le_trans (by omega) low)),
      slotAt_writeSlot_of_ne wrote other fits]
    exact slotAt_congr fun i low _ => byte_write_of_notMem (.inr (le_trans low' low))
  · simp only [NUM_SLOTS_OFFSET, HEADER_LEN] at out above head same ⊢
    rw [same i (by omega), byte_writeSlot wrote (.inl (by omega)),
      byte_write_of_notMem (.inl (by omega))]
  · rw [slice_congr fun i low high => same i (.inr (le_trans above low)),
      slice_congr fun i low high => byte_writeSlot wrote (.inl (lt_of_lt_of_le high pos.1))]
    exact slice_write_self (by omega)

theorem inserted_of_placeRow {placed : Page fmt} (layout : Layout d h)
    (head : PageHeader.read d = h) (ne : 0 < row.length) (room : row.length ≤ freeBytes fmt h)
    (place : placeRow d h row = .ok (slot, placed)) : ∃ h', Inserted d h row slot
      (writeChecksum (placed.writeLe FREE_SPACE_OFFSET 2 (h.freeStart + row.length))) h' ∧
      PageHeader.read (placed.writeLe FREE_SPACE_OFFSET 2 (h.freeStart + row.length)) = h' := by
  have space := le_of_freeBytes ne room
  have above := layout.free_ge
  have size := fmt.pageSize_lt
  simp only [SLOT_LEN] at space
  simp only [HEADER_LEN] at above
  have free (e : Page fmt) : PageHeader.read (e.writeLe FREE_SPACE_OFFSET 2 (h.freeStart + row.length)) =
      ⟨e.readLe NUM_SLOTS_OFFSET 2, h.freeStart + row.length⟩ := by
    rw [PageHeader.read, readLe_writeLe_of_disjoint (.inl (by decide)),
      readLe_writeLe_self (by simp only [FREE_SPACE_OFFSET]; omega) (by omega)]
  have outer (e : Page fmt) (i : Nat) (out : i < NUM_SLOTS_OFFSET ∨ HEADER_LEN ≤ i) :
      (writeChecksum (e.writeLe FREE_SPACE_OFFSET 2 (h.freeStart + row.length))).byte i = e.byte i := by
    simp only [NUM_SLOTS_OFFSET, HEADER_LEN] at out
    rw [byte_writeChecksum (by simp only [CHECKSUM_OFFSET]; omega), writeLe,
      byte_write_of_notMem (by simp only [length_le, FREE_SPACE_OFFSET]; omega)]
  simp only [placeRow, bind_eq_ok] at place
  obtain ⟨found, search, place⟩ := place
  cases found with
  | some reused =>
    obtain ⟨pointed, wrote, same⟩ := bind_eq_ok.mp place
    obtain ⟨rfl, rfl⟩ := Prod.mk.inj (Except.ok.inj same)
    obtain ⟨mem, unused⟩ := firstUnusedSlot_eq_some (fun s mem => by
      have := mem_range.mp mem
      simp only [SLOT_LEN]
      omega) search
    have lt := mem_range.mp mem
    have count : pointed.readLe NUM_SLOTS_OFFSET 2 = h.numSlots := by
      have pos := (layout.slotPos_ge lt).1
      rw [← head]
      refine readLe_congr fun i _ high => ?_
      simp only [NUM_SLOTS_OFFSET] at high
      rw [byte_writeSlot wrote (.inl (by omega)), byte_write_of_notMem (.inl (by omega))]
    have kept : slotAt (d.write h.freeStart row) reused = slotAt d reused := by
      refine slotAt_congr fun i low _ => byte_write_of_notMem (.inr (le_trans ?_ low))
      simp only [slotPos, SLOT_LEN]
      omega
    rw [kept] at unused
    exact ⟨_, inserted_of_bytes layout ne room (.inl ⟨lt, count, unused⟩) rfl wrote
      fun i out => outer _ i out, free _⟩
  | none =>
    obtain ⟨pointed, wrote, ⟨⟩⟩ := bind_eq_ok.mp place
    have count : (pointed.writeLe NUM_SLOTS_OFFSET 2 (h.numSlots + 1)).readLe NUM_SLOTS_OFFSET 2 =
        h.numSlots + 1 := readLe_writeLe_self (by simp only [NUM_SLOTS_OFFSET]; omega) (by omega)
    refine ⟨_, inserted_of_bytes layout ne room (.inr ⟨rfl, count⟩) rfl wrote
      fun i out => ?_, free _⟩
    rw [outer _ i out, writeLe, byte_write_of_notMem]
    simp only [NUM_SLOTS_OFFSET, HEADER_LEN, length_le] at out ⊢
    omega

theorem SlotOk.mono (ok : SlotOk h s) (free : h.freeStart ≤ h'.freeStart)
    (slots : h.numSlots ≤ h'.numSlots) : SlotOk h' s where
  flags := ok.flags
  row normal := ⟨(ok.row normal).1, le_trans (ok.row normal).2 free⟩
  target redirect := lt_of_lt_of_le (ok.target redirect) slots

variable {image : Page fmt}

theorem Inserted.layout
    (inserted : Inserted d h row slot image h') (layout : Layout d h) : Layout image h' where
  free_ge := by
    rw [inserted.freeStart]
    exact Nat.le_add_right_of_le layout.free_ge
  free_le := inserted.room
  slots s lt := by
    have slots : h.numSlots ≤ h'.numSlots := by
      have := inserted.fresh
      omega
    have free : h.freeStart ≤ h'.freeStart := inserted.freeStart ▸ Nat.le_add_right _ _
    by_cases same : s = slot
    · subst same
      rw [inserted.pointer]
      exact ⟨.inl rfl, fun _ => ⟨layout.free_ge, inserted.freeStart.ge⟩, fun redirect => nomatch redirect⟩
    have old : s < h.numSlots := by
      have := inserted.fresh
      omega
    rw [inserted.others s old same]
    exact (layout.slots s old).mono free slots

/-- **An insertion keeps the page valid**, unless the row is empty. -/
theorem Valid.insertRow (valid : Valid d h) (data : d.byte PAGE_TYPE_OFFSET = PAGE_TYPE_DATA)
    (ne : 0 < row.length)
    (ins : Storage.insertRow d row = .ok (slot, image)) :
    ∃ h', Valid image h' ∧ Inserted d h row slot image h' := by
  obtain ⟨head, read, -, room, placed, place, rfl⟩ := insertRow_eq_ok.mp ins
  obtain rfl : h = head := Except.ok.inj ((validate_eq_ok.mpr valid).symm.trans read)
  have layout := valid.layout data
  obtain ⟨h', spec, read'⟩ := inserted_of_placeRow layout valid.header ne room place
  have type := (spec.rows PAGE_TYPE_OFFSET (.inl (by decide))).trans data
  exact ⟨h',
    { type := .inl type
      version := (spec.rows PAGE_VERSION_OFFSET (.inl (by decide))).trans valid.version
      checksum := checksum_written _
      header := headerRead_writeChecksum.trans read'
      layout := fun _ => spec.layout layout }, spec⟩

/-! ### Changes of line pointers and tuple headers -/

theorem checkedSlot_eq_ok (valid : Valid d h) (data : d.byte PAGE_TYPE_OFFSET = PAGE_TYPE_DATA) :
    checkedSlot d slot = .ok s ↔ slot < h.numSlots ∧ slotAt d slot = s := by
  have layout := valid.layout data
  simp only [checkedSlot, validate_eq_ok.mpr valid, ok_bind, bind_eq_ok, failIf_eq_ok]
  constructor
  · rintro ⟨-, lt, read⟩
    have lt := Nat.lt_of_not_le lt
    have fits := (layout.slotPos_ge lt).2
    rw [readSlot_eq (by have := layout.free_le; simp only [SLOT_LEN] at *; omega)] at read
    exact ⟨lt, Except.ok.inj read⟩
  rintro ⟨lt, rfl⟩
  refine ⟨(), not_le.mpr lt, readSlot_eq ?_⟩
  have := layout.free_le
  simp only [SLOT_LEN] at *
  omega

/-- The header fields are inside of the row. -/
theorem byte_setMvccHeaderFields {start len xmax infomask i : Nat} {tCtid : Nat × Nat}
    (set : setMvccHeaderFields d start len xmax tCtid infomask = .ok d')
    (out : i < start ∨ start + len ≤ i) : d'.byte i = d.byte i := by
  unfold setMvccHeaderFields at set
  split_ifs at set with version short
  cases set
  simp only [V2_MVCC_HEADER_LEN] at short
  rw [writeLe, byte_write_of_notMem (by rw [length_le]; omega), writeLe,
    byte_write_of_notMem (by rw [length_le]; omega), writeLe,
    byte_write_of_notMem (by rw [length_le]; omega), writeLe,
    byte_write_of_notMem (by rw [length_le]; omega)]

/-- A change of a tuple's header keeps the page valid. -/
theorem Valid.setTupleHeader (valid : Valid d h) (data : d.byte PAGE_TYPE_OFFSET = PAGE_TYPE_DATA)
    {slot xmax infomask lsn : Nat} {tCtid : Nat × Nat}
    (set : Storage.setTupleHeader d slot xmax tCtid infomask lsn = .ok image) :
    Valid image h ∧ image.byte PAGE_TYPE_OFFSET = PAGE_TYPE_DATA := by
  simp only [Storage.setTupleHeader, bind_eq_ok, pure_eq_ok, failIf_eq_ok] at set
  obtain ⟨s, checked, -, live, fields, wrote, rfl⟩ := set
  obtain ⟨lt, rfl⟩ := (checkedSlot_eq_ok valid data).mp checked
  have layout := valid.layout data
  have norm : (slotAt d slot).flags = NORMAL := by simpa [Slot.isLive] using live
  obtain ⟨low, high⟩ := (layout.slots slot lt).row norm
  have frame (i : Nat) (out : i < HEADER_LEN ∨ h.freeStart ≤ i) : fields.byte i = d.byte i :=
    byte_setMvccHeaderFields wrote
      (out.imp (lt_of_lt_of_le · low) (le_trans high))
  have type : fields.byte PAGE_TYPE_OFFSET = PAGE_TYPE_DATA :=
    (frame _ (.inl (by decide))).trans data
  -- The checksum of `fields` is not right yet: stamp the LSN on the page with its checksum written.
  have summed : Valid (writeChecksum fields) h := by
    refine valid_writeChecksum type ((frame _ (.inl (by decide))).trans valid.version) ?_
      (layout.congr fun i le => frame i (.inr le))
    rw [← valid.header]
    exact headerRead_congr fun i _ lt => frame i (.inl (lt_trans lt (by decide)))
  have same : Storage.setPageLsn fields lsn = Storage.setPageLsn (writeChecksum fields) lsn := by
    refine writeChecksum_congr fun i out => ?_
    by_cases inLsn : PAGE_LSN_OFFSET ≤ i ∧ i < PAGE_LSN_OFFSET + 8
    · have size : i < fmt.pageSize := lt_of_lt_of_le inLsn.2 (le_trans (by decide) fmt.header_le)
      rw [writeLe, writeLe, byte_write_of_mem inLsn.1 (by simpa using inLsn.2) size,
        byte_write_of_mem inLsn.1 (by simpa using inLsn.2) size]
    · have apart : i < PAGE_LSN_OFFSET ∨ PAGE_LSN_OFFSET + 8 ≤ i := by omega
      rw [writeLe, writeLe, byte_write_of_notMem (by simpa using apart),
        byte_write_of_notMem (by simpa using apart), byte_writeChecksum out]
  rw [same]
  exact ⟨summed.setPageLsn lsn, (byte_setPageLsn (.inl (by decide))).trans
    ((byte_writeChecksum (.inl (by decide))).trans type)⟩

end Saguaro.Storage
