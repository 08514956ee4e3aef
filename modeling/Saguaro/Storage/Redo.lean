/-
Page edits and their redo (`crates/storage/src/redo.rs`, the logging half of
`engine/dml.rs`, and `apply_redo` of `crates/server/src/recovery.rs`).

At run time an edit is computed on a copy of the page, its record is appended to the
log, and the copy, stamped with the record's LSN, becomes the page. The record is a full
image on the first change after a checkpoint and a delta otherwise. Redo runs the same
page functions again, and skips a record whose LSN the page already carries.

`replay_exact_and_restartable`: from the page as it was after any of its edits, after
any number of replays that stop anywhere, a replay of all records gives the page that the
edits made.
-/

import Saguaro.Storage.Layout
import Saguaro.Wal.Codec

namespace Saguaro.Storage

open Wal Result List

variable {fmt : PageFormat} {χ : Type} {k : Nat}

/-! ### Redo -/

def redoError (message : String) : DbError := .storage .internalError message

/-- `apply_physical_redo`: whether the record was applied, and the page. -/
def applyPhysicalRedo (d : Page fmt) (lsn : Nat) (kind : WalRecordKind χ) : Result (Bool × Page fmt) :=
  if lsn ≤ pageLsn d then .ok (false, d)
  else match kind with
    | .heapInit _ pageNum => .ok (true, setPageLsn (initPage fmt pageNum.toNat) lsn)
    | .heapInsert _ _ slot rowBytes => do
        let (produced, d) ← insertRow d rowBytes
        failIf (produced ≠ slot.toNat)
          (redoError s!"redo heap-insert slot mismatch: expected {slot}, produced {produced}")
        return (true, setPageLsn d lsn)
    | .heapDelete _ _ slot => do
        let (_, d) ← deleteRow d slot.toNat
        return (true, setPageLsn d lsn)
    | .heapUpdateHeader _ _ slot xmax tCtid infomask => do
        let d ← setTupleHeader d slot.toNat xmax.toNat (tCtid.1.toNat, tCtid.2.toNat)
          infomask.toNat lsn
        return (true, d)
    | .fullPageImage _ _ image =>
      if image.length ≠ fmt.pageSize then
        .error (redoError
          s!"redo full-page image has {image.length} bytes, expected {fmt.pageSize}")
      else .ok (true, setPageLsn (Block.ofBytes image) lsn)
    | _ => .error (redoError "not a physiological redo record")

/-- The first step of `apply_redo`: a compressed image becomes a plain one. -/
def normalizeFpi (fmt : PageFormat) : WalRecordKind χ → Result (WalRecordKind χ)
  | .fullPageImageCompressed fileId pageNum codec dictId payload => do
      let image ← fmt.decompressFpi codec dictId payload
      return .fullPageImage fileId pageNum image
  | kind => .ok kind

def redo (d : Page fmt) (lsn : Nat) (kind : WalRecordKind χ) : Result (Page fmt) := do
  let kind ← normalizeFpi fmt kind
  let (_, d) ← applyPhysicalRedo d lsn kind
  return d

/-- The records of a page, replayed in order. -/
def replay (d : Page fmt) : List (Nat × WalRecordKind χ) → Result (Page fmt)
  | [] => .ok d
  | (lsn, kind) :: rest => do
      let d ← redo d lsn kind
      replay d rest

/-! ### Run-time edits -/

/-- `fpi_record_kind`. -/
def fpiRecordKind (fileId pageNum : UInt32) (image : Page fmt) : WalRecordKind χ :=
  match fmt.compressFpi fileId image.toBytes with
  | some (codec, dictId, payload) => .fullPageImageCompressed fileId pageNum codec dictId payload
  | none => .fullPageImage fileId pageNum image.toBytes

/-- What is done to a page. `needsFpi` is the flag that `take_needs_fpi` returns. The
engine has no caller for `delete` (a deleted row is stamped), the log has a record for it. -/
inductive Edit (fmt : PageFormat) where
  | init
  | insert (rowBytes : Bytes) (needsFpi : Bool)
  | stamp (slot : UInt16) (xmax : UInt64) (tCtid : UInt32 × UInt16) (infomask : UInt16)
      (needsFpi : Bool)
  | delete (slot : UInt16)
  | fullImage (image : Page fmt)

/-- The record of an edit that gets the LSN `lsn`, and the page it leaves: the page half
of `write_new_row_bytes`, `log_insert`, `stamp_xmax_logged` and `log_full_page`. -/
def Edit.run (fileId pageNum : UInt32) (d : Page fmt) (lsn : Nat) :
    Edit fmt → Result (WalRecordKind χ × Page fmt)
  | .init => .ok (.heapInit fileId pageNum, setPageLsn (initPage fmt pageNum.toNat) lsn)
  | .insert rowBytes needsFpi => do
      let (slot, image) ← insertRow d rowBytes
      let kind :=
        if needsFpi then fpiRecordKind fileId pageNum image
        else .heapInsert fileId pageNum (UInt16.ofNat slot) rowBytes
      return (kind, setPageLsn image lsn)
  | .stamp slot xmax tCtid infomask needsFpi => do
      let image ← setTupleHeader d slot.toNat xmax.toNat (tCtid.1.toNat, tCtid.2.toNat)
        infomask.toNat (pageLsn d)
      let kind :=
        if needsFpi then fpiRecordKind fileId pageNum image
        else .heapUpdateHeader fileId pageNum slot xmax tCtid infomask
      return (kind, setPageLsn image lsn)
  | .delete slot => do
      let (_, image) ← deleteRow d slot.toNat
      return (.heapDelete fileId pageNum slot, setPageLsn image lsn)
  | .fullImage image => .ok (fpiRecordKind fileId pageNum image, setPageLsn image lsn)

/-- A run of edits, each with the LSN its record gets: the records and the page. -/
def runEdits (fileId pageNum : UInt32) (d : Page fmt) :
    List (Nat × Edit fmt) → Result (List (Nat × WalRecordKind χ) × Page fmt)
  | [] => .ok ([], d)
  | (lsn, edit) :: rest => do
      let (kind, d) ← edit.run fileId pageNum d lsn
      let (records, d) ← runEdits fileId pageNum d rest
      return ((lsn, kind) :: records, d)

/-! ### One edit -/

variable {lsn : Nat}

theorem redo_fpiRecordKind {d image : Page fmt} {fileId pageNum : UInt32}
    (newer : pageLsn d < lsn) :
    redo d lsn (fpiRecordKind (χ := χ) fileId pageNum image) = .ok (setPageLsn image lsn) := by
  have length : image.toBytes.length = fmt.pageSize := Block.length_slice
  have appl : applyPhysicalRedo (χ := χ) d lsn (.fullPageImage fileId pageNum image.toBytes) =
      .ok (true, setPageLsn image lsn) := by
    rw [applyPhysicalRedo, if_neg (not_le.mpr newer)]
    simp [length, Block.ofBytes_toBytes]
  unfold fpiRecordKind
  split
  · rename_i codec dictId body compressed
    simp only [redo, normalizeFpi, PageFormat.decompressFpi_compressFpi length compressed, bind, Except.bind,
      pure, Except.pure, appl]
  · simp [redo, normalizeFpi, bind, Except.bind, pure, Except.pure, appl]

/-- The LSN that a header is stamped with is only the page's LSN. -/
theorem setTupleHeader_setPageLsn {d image : Page fmt} {slot xmax infomask lsn : Nat}
    {tCtid : Nat × Nat} (lsn' : Nat)
    (set : setTupleHeader d slot xmax tCtid infomask lsn = .ok image) :
    setTupleHeader d slot xmax tCtid infomask lsn' = .ok (setPageLsn image lsn') := by
  simp only [setTupleHeader, bind_eq_ok, pure_eq_ok] at set ⊢
  obtain ⟨s, checked, u, live, fields, wrote, rfl⟩ := set
  exact ⟨s, checked, u, live, fields, wrote, (setPageLsn_setPageLsn _ _ _).symm⟩

theorem insertRow_slot_lt {d image : Page fmt} {row : Bytes} {slot : Nat}
    (ins : insertRow d row = .ok (slot, image)) : slot < 2 ^ 16 := by
  obtain ⟨head, -, -, -, placed, place, -⟩ := insertRow_eq_ok.mp ins
  exact placeRow_slot_lt place

variable {edit : Edit fmt} {kind : WalRecordKind χ}

/-- **Redo of an edit is the edit**, on the page it was made on. -/
theorem redo_run {d d' : Page fmt} {fileId pageNum : UInt32} (newer : pageLsn d < lsn)
    (ran : edit.run fileId pageNum d lsn = .ok (kind, d')) : redo d lsn kind = .ok d' := by
  have gate : ¬lsn ≤ pageLsn d := not_le.mpr newer
  cases edit with
  | init =>
    cases ran
    simp [redo, normalizeFpi, applyPhysicalRedo, gate, pure, Except.pure]
  | insert rowBytes needsFpi =>
    obtain ⟨⟨slot, image⟩, ins, ⟨⟩⟩ := bind_eq_ok.mp ran
    cases needsFpi with
    | true => exact redo_fpiRecordKind newer
    | false =>
      have back : (UInt16.ofNat slot).toNat = slot :=
        UInt16.toNat_ofNat_of_lt' (insertRow_slot_lt ins)
      simp [redo, normalizeFpi, applyPhysicalRedo, gate, ins, back, failIf, pure, Except.pure]
  | stamp slot xmax tCtid infomask needsFpi =>
    obtain ⟨image, set, ⟨⟩⟩ := bind_eq_ok.mp ran
    cases needsFpi with
    | true => exact redo_fpiRecordKind newer
    | false =>
      have again := setTupleHeader_setPageLsn lsn set
      simp [redo, normalizeFpi, applyPhysicalRedo, gate, again, pure, Except.pure]
  | delete slot =>
    obtain ⟨⟨deleted, image⟩, rem, ⟨⟩⟩ := bind_eq_ok.mp ran
    simp [redo, normalizeFpi, applyPhysicalRedo, gate, rem, pure, Except.pure]
  | fullImage image =>
    cases ran
    exact redo_fpiRecordKind newer

theorem pageLsn_run {d d' : Page fmt} {fileId pageNum : UInt32} (fits : lsn < 2 ^ 64)
    (ran : edit.run fileId pageNum d lsn = .ok (kind, d')) : pageLsn d' = lsn := by
  cases edit with
  | init | fullImage =>
    cases ran
    exact pageLsn_setPageLsn fits
  | insert | stamp | delete =>
    obtain ⟨_, -, ⟨⟩⟩ := bind_eq_ok.mp ran
    exact pageLsn_setPageLsn fits

/-- The record of an edit can be read, whatever page it is replayed on. -/
theorem normalizeFpi_run {d d' : Page fmt} {fileId pageNum : UInt32}
    (ran : edit.run fileId pageNum d lsn = .ok (kind, d')) :
    ∃ plain, normalizeFpi fmt kind = .ok plain := by
  have image (page : Page fmt) :
      ∃ plain, normalizeFpi (χ := χ) fmt (fpiRecordKind fileId pageNum page) = .ok plain := by
    unfold fpiRecordKind
    split
    · rename_i compressed
      exact ⟨_, by simp only [normalizeFpi,
        PageFormat.decompressFpi_compressFpi Block.length_slice compressed]; rfl⟩
    · exact ⟨_, rfl⟩
  cases edit with
  | init =>
    cases ran
    exact ⟨_, rfl⟩
  | insert rowBytes needsFpi =>
    obtain ⟨_, -, ⟨⟩⟩ := bind_eq_ok.mp ran
    cases needsFpi with
    | true => exact image _
    | false => exact ⟨_, rfl⟩
  | stamp slot xmax tCtid infomask needsFpi =>
    obtain ⟨_, -, ⟨⟩⟩ := bind_eq_ok.mp ran
    cases needsFpi with
    | true => exact image _
    | false => exact ⟨_, rfl⟩
  | delete slot =>
    obtain ⟨_, -, ⟨⟩⟩ := bind_eq_ok.mp ran
    exact ⟨_, rfl⟩
  | fullImage page =>
    cases ran
    exact image page

/-- A record that the page already carries changes nothing. -/
theorem redo_of_le {d : Page fmt} {kind plain : WalRecordKind χ}
    (norm : normalizeFpi fmt kind = .ok plain) (le : lsn ≤ pageLsn d) :
    redo d lsn kind = .ok d := by
  simp [redo, norm, applyPhysicalRedo, le, pure, Except.pure]

/-! ### Runs of edits -/

theorem replay_append {d : Page fmt} {first snd : List (Nat × WalRecordKind χ)} :
    replay d (first ++ snd) = (replay d first).bind fun d => replay d snd := by
  induction first generalizing d with
  | nil => rfl
  | cons record rest ih =>
    obtain ⟨lsn, kind⟩ := record
    simp only [cons_append, replay]
    cases redo d lsn kind with
    | error e => rfl
    | ok d' => exact ih

section Run

variable {fileId pageNum : UInt32} {d last : Page fmt} {edits : List (Nat × Edit fmt)}
  {records : List (Nat × WalRecordKind χ)}

/-- The page after the first `k` edits, with the records of these. -/
def Reached (d : Page fmt) (edits : List (Nat × Edit fmt)) (fileId pageNum : UInt32)
    (records : List (Nat × WalRecordKind χ)) (k : Nat) (p : Page fmt) : Prop :=
  runEdits fileId pageNum d (edits.take k) = .ok (records.take k, p)

section

variable (ran : runEdits fileId pageNum d edits = .ok (records, last))

include ran

variable {p : Page fmt}

theorem Reached.whole (reached : Reached d edits fileId pageNum records edits.length p) :
    p = last := by
  unfold Reached at reached
  rw [take_length, ran] at reached
  exact (Prod.mk.inj (Except.ok.inj reached)).2.symm

theorem length_records : records.length = edits.length := by
  induction edits generalizing d records with
  | nil =>
    cases ran
    rfl
  | cons head rest ih =>
    obtain ⟨⟨kind, d'⟩, -, more⟩ := bind_eq_ok.mp ran
    obtain ⟨⟨records', last'⟩, others, ⟨⟩⟩ := bind_eq_ok.mp more
    simp [ih others]

/-- In a run of edits, every edit has its record and the page it was made on. -/
theorem Reached.next {lsn : Nat} {edit : Edit fmt} (at_ : edits[k]? = some (lsn, edit)) :
    ∃ p kind q, Reached d edits fileId pageNum records k p ∧
      edit.run fileId pageNum p lsn = .ok (kind, q) ∧ records[k]? = some (lsn, kind) ∧
      Reached d edits fileId pageNum records (k + 1) q := by
  induction edits generalizing d records k with
  | nil => cases at_
  | cons head rest ih =>
    obtain ⟨lsn₀, first⟩ := head
    obtain ⟨⟨kind, d'⟩, one, more⟩ := bind_eq_ok.mp ran
    obtain ⟨⟨records', last'⟩, others, ⟨⟩⟩ := bind_eq_ok.mp more
    cases k with
    | zero =>
      cases at_
      refine ⟨d, kind, d', rfl, one, rfl, ?_⟩
      simp [Reached, runEdits, one, pure, Except.pure]
    | succ k =>
      obtain ⟨p, kind', q, prior, step, record, after⟩ := ih others at_
      refine ⟨p, kind', q, ?_, step, record, ?_⟩
      · simp only [Reached] at prior ⊢
        simp [runEdits, one, prior, pure, Except.pure]
      · simp only [Reached] at after ⊢
        simp [runEdits, one, after, pure, Except.pure]

theorem Reached.exists
    (bound : k ≤ edits.length) : ∃ p, Reached d edits fileId pageNum records k p := by
  rcases lt_or_eq_of_le bound with lt | rfl
  · obtain ⟨p, -, -, reached, -⟩ := Reached.next ran (getElem?_eq_getElem lt)
    exact ⟨p, reached⟩
  refine ⟨last, ?_⟩
  unfold Reached
  rw [take_length, take_of_length_le (length_records ran).le, ran]

/-- The log sequence numbers of the edits: those of the WAL, which only grow. -/
structure Ordered (d : Page fmt) (edits : List (Nat × Edit fmt)) : Prop where
  sorted : edits.Pairwise (·.1 < ·.1)
  newer : ∀ e ∈ edits, pageLsn d < e.1
  fits : ∀ e ∈ edits, e.1 < 2 ^ 64

/-- A page that has been reached carries the LSN of its last edit. -/
theorem Reached.pageLsn_lt (ord : Ordered d edits) {i lsn : Nat} {edit : Edit fmt}
    (reached : Reached d edits fileId pageNum records k p) (bound : k ≤ edits.length)
    (at_ : edits[i]? = some (lsn, edit)) : (i < k → lsn ≤ pageLsn p) ∧
    (k ≤ i → pageLsn p < lsn) := by
  obtain ⟨lt, found⟩ := List.getElem?_eq_some_iff.mp at_
  cases k with
  | zero =>
    obtain ⟨-, rfl⟩ := reached
    exact ⟨nofun, fun _ => ord.newer _ (found ▸ getElem_mem lt)⟩
  | succ k =>
    have here : edits[k]? = some (edits[k].1, edits[k].2) := List.getElem?_eq_getElem bound
    obtain ⟨p', kind, q, -, step, -, after⟩ := Reached.next ran here
    obtain rfl : q = p := by
      unfold Reached at after reached
      rw [after] at reached
      cases reached
      rfl
    have stamped : pageLsn q = edits[k].1 := pageLsn_run (ord.fits _ (getElem_mem bound)) step
    have sorted := pairwise_iff_getElem.mp ord.sorted
    rw [stamped, ← show edits[i].1 = lsn from congrArg Prod.fst found]
    constructor
    · intro le
      rcases lt_or_eq_of_le (Nat.le_of_lt_succ le) with less | rfl
      · exact (sorted i k lt bound less).le
      · exact le_rfl
    · exact fun less => sorted k i bound lt less

/-- Replaying a record on a page that has all the edits before it: the record is skipped or
makes its edit again. -/
theorem Reached.redo (ord : Ordered d edits) {i lsn : Nat} {kind : WalRecordKind χ}
    (reached : Reached d edits fileId pageNum records k p) (bound : k ≤ edits.length) (caught : i ≤ k)
    (at_ : records[i]? = some (lsn, kind)) :
    ∃ q, Storage.redo p lsn kind = .ok q ∧ Reached d edits fileId pageNum records (max k (i + 1)) q := by
  have lt : i < edits.length := length_records ran ▸ (List.getElem?_eq_some_iff.mp at_).1
  have here : edits[i]? = some (edits[i].1, edits[i].2) := List.getElem?_eq_getElem lt
  obtain ⟨p', kind', q, prior, step, record, after⟩ := Reached.next ran here
  cases record.symm.trans at_
  obtain ⟨older, newer⟩ := Reached.pageLsn_lt ran ord reached bound here
  rcases lt_or_eq_of_le caught with less | rfl
  · obtain ⟨plain, norm⟩ := normalizeFpi_run step
    rw [max_eq_left less]
    exact ⟨p, redo_of_le norm (older less), reached⟩
  · obtain rfl : p' = p := (Prod.mk.inj (Except.ok.inj (prior.symm.trans reached))).2
    rw [max_eq_right (Nat.le_succ i)]
    exact ⟨q, redo_run (newer le_rfl) step, after⟩

/-- A replay that stops after `m` records. -/
theorem Reached.replay (ord : Ordered d edits) {m : Nat}
    (reached : Reached d edits fileId pageNum records k p) (bound : k ≤ edits.length)
    (inside : m ≤ edits.length) : ∃ q, Storage.replay p (records.take m) = .ok q ∧
      Reached d edits fileId pageNum records (max k m) q := by
  induction m with
  | zero => exact ⟨p, rfl, by rwa [max_eq_left (Nat.zero_le k)]⟩
  | succ m ih =>
    obtain ⟨q, replayed, at_⟩ := ih (Nat.le_of_succ_le inside)
    have lt : m < records.length := length_records ran ▸ inside
    have record : records[m]? = some (records[m].1, records[m].2) := getElem?_eq_getElem lt
    obtain ⟨q', redone, after⟩ :=
      Reached.redo ran ord at_ (max_le bound (Nat.le_of_succ_le inside)) (le_max_right k m) record
    refine ⟨q', ?_, ?_⟩
    · rw [take_succ_eq_append_getElem lt, replay_append, replayed]
      simp only [Except.bind, Storage.replay, redone]
      rfl
    · rwa [max_assoc, max_eq_right (Nat.le_succ m)] at after

/-- Any number of replays that stop somewhere. -/
theorem Reached.restarts (ord : Ordered d edits) (stops : List Nat)
    (reached : Reached d edits fileId pageNum records k p) (bound : k ≤ edits.length) :
    ∃ q j, stops.foldlM (fun p m => Storage.replay p (records.take m)) p = .ok q ∧ j ≤ edits.length ∧
      Reached d edits fileId pageNum records j q := by
  induction stops generalizing k p with
  | nil => exact ⟨p, k, rfl, bound, reached⟩
  | cons m rest ih =>
    have cut : records.take m = records.take (min m edits.length) := by
      rw [← length_records ran]
      exact take_eq_take_min
    obtain ⟨q, redone, at_⟩ := Reached.replay ran ord reached bound (min_le_right m edits.length)
    obtain ⟨q', j, others, le, final⟩ := ih at_ (max_le bound (min_le_right m edits.length))
    refine ⟨q', j, ?_, le, final⟩
    rw [foldlM_cons, cut, redone]
    exact others

end

end Run

/-- **Page redo is exact and restartable.** Take a run of edits of a page, with their
records, and the page as it was after the first `k` of them. After any number of replays
from the first record that stop anywhere, a replay of all records succeeds and gives the
page that the edits made. -/
theorem replay_exact_and_restartable {fileId pageNum : UInt32} {d last p : Page fmt}
    {edits : List (Nat × Edit fmt)} {records before : List (Nat × WalRecordKind χ)}
    (ordered : Ordered d edits) (ran : runEdits fileId pageNum d edits = .ok (records, last)) (k : Nat)
    (onDisk : runEdits fileId pageNum d (edits.take k) = .ok (before, p)) (stops : List Nat) :
    ∃ q, stops.foldlM (fun p m => replay p (records.take m)) p = .ok q ∧
      replay q records = .ok last := by
  have cut : edits.take k = edits.take (min k edits.length) := take_eq_take_min
  obtain ⟨p', reached⟩ := Reached.exists ran (min_le_right k edits.length)
  obtain rfl : p = p' := by
    rw [cut] at onDisk
    exact (Prod.mk.inj (Except.ok.inj (onDisk.symm.trans reached))).2
  obtain ⟨q, j, stopped, le, again⟩ :=
    Reached.restarts ran ordered stops reached (min_le_right k edits.length)
  obtain ⟨q', replayed, done⟩ := Reached.replay ran ordered again le le_rfl
  rw [max_eq_right le] at done
  obtain rfl := Reached.whole ran done
  rw [← length_records ran, take_length] at replayed
  exact ⟨q, stopped, replayed⟩

/-- Pages of 64 bytes that the library does not compress, with this checksum. -/
def PageFormat.short (crc32 : Bytes → UInt32) : PageFormat where
  pageSize := 64
  header_le := by decide
  pageSize_lt := by decide
  zstd := ⟨fun _ _ _ => .error "", fun _ _ _ => .error "", crc32, nofun⟩
  registry := ⟨[], []⟩

abbrev PageFormat.small : PageFormat := .short fun _ => 0

/-- A new page gets a row, its row is stamped, and another row is logged with an image. -/
def someEdits : List (Nat × Edit PageFormat.small) :=
  [(10, .init), (20, .insert (2 :: replicate 24 0) false), (30, .stamp 0 7 (0, 1) 0 false),
    (40, .insert [1, 2, 3] true)]

theorem replay_exact_and_restartable_small :
    ∃ (records : List (Nat × WalRecordKind Empty)) (last p q : Page PageFormat.small),
      runEdits 1 0 (Block.zero 64) someEdits = .ok (records, last) ∧
      runEdits 1 0 (Block.zero 64) (someEdits.take 2) = .ok (records.take 2, p) ∧
      [3, 1].foldlM (fun p m => replay p (records.take m)) p = .ok q ∧
      replay q records = .ok last := by
  have done : (runEdits (χ := Empty) 1 0 (Block.zero 64) someEdits).isOk = true := by decide +kernel
  cases ran : runEdits 1 0 (Block.zero 64) someEdits with
  | error e =>
    rw [ran] at done
    cases done
  | ok result =>
    obtain ⟨records, last⟩ := result
    have ordered : Ordered (Block.zero PageFormat.small.pageSize) someEdits :=
      ⟨by decide, by decide, by decide⟩
    obtain ⟨p, reached⟩ := Reached.exists ran (show 2 ≤ someEdits.length by decide)
    obtain ⟨q, stopped, replayed⟩ := replay_exact_and_restartable ordered ran 2 reached [3, 1]
    exact ⟨records, last, p, q, rfl, reached, stopped, replayed⟩

end Saguaro.Storage
