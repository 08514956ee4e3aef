/-
Pages between the buffer pool, the log and the disk: how changes are logged and flushed,
what a checkpoint stores, and how recovery redoes the log after a crash (`pool.rs` of the
buffer crate; `checkpoint.rs` and `recovery.rs` of the server).

An event is one step of one thread. A write of a page can be torn until the file is
synced; until then a crash leaves the old image, any of the images written since the last
sync, or a page that does not pass validation. A crash keeps the log up to some position
at or after the last flush.

The pins that guards hold are left out: they only make a frame busy, and here a frame may
be picked whenever its flags allow it. The sizes of the log records, and when a thread
reads the bytes that it later puts into the pool, are left to the events.
-/

import Saguaro.Buffer.Frame
import Saguaro.Lib.Transition
import Saguaro.Storage.Redo

namespace Saguaro.Recovery

open Storage Buffer Wal

variable {fmt : PageFormat} {χ : Type}

/-- The page of a physical record. -/
def pageKey : WalRecordKind χ → Option PageKey
  | .heapInit fileId pageNum | .heapInsert fileId pageNum _ _ | .heapDelete fileId pageNum _
  | .heapUpdateHeader fileId pageNum _ _ _ _ | .fullPageImage fileId pageNum _
  | .fullPageImageCompressed fileId pageNum _ _ _ => some (fileId, pageNum)
  | _ => none

/-- A record whose redo does not read the page. -/
def isBase : WalRecordKind χ → Bool
  | .heapInit .. | .fullPageImage .. | .fullPageImageCompressed .. => true
  | _ => false

abbrev Frames (fmt : PageFormat) := AList fun _ : PageKey => Frame (Page fmt)

/-- Where the thread that flushes a page is. -/
inductive Flight (fmt : PageFormat) where
  | reserved
  | stolen
  | captured (image : Page fmt)
  | flushed (image : Page fmt)

structure World (fmt : PageFormat) (χ : Type) where
  log : List (WalEntry χ)
  writtenLsn : Nat
  durableLsn : Nat
  frames : Frames fmt
  flights : PageKey → Option (Flight fmt)
  disk : PageKey → Option (Page fmt)
  /-- The images written since the last sync, newest first. -/
  writes : PageKey → List (Page fmt)
  /-- `page_redo_lsn` of the stored control record. -/
  pageRedoLsn : Nat
  /-- `page_redo_lsn` of the checkpoint that is under way. -/
  nextRedoLsn : Option Nat

def World.fresh : World fmt χ := ⟨[], 0, 0, ∅, fun _ => none, fun _ => none, fun _ => [], 0, none⟩

/-! ### The dirty-page table -/

/-- `dirty_page_table`. -/
def dirtyPageTable : List (Sigma fun _ : PageKey => Frame (Page fmt)) → Result (List (PageKey × Nat))
  | [] => .ok []
  | ⟨key, f⟩ :: rest =>
    if f.dirty then
      match f.dirtyMeta.recLsn with
      | none => .error (.storage .internalError "dirty frame has no published WAL redo boundary")
      | some recLsn => do
          let entries ← dirtyPageTable rest
          return (key, recLsn) :: entries
    else dirtyPageTable rest

/-- `page_redo_lsn` in `run_checkpoint`. -/
def World.redoBoundary (w : World fmt χ) : Result Nat := do
  let dirtyPages ← dirtyPageTable w.frames.entries
  return (dirtyPages.map (·.2)).min?.getD w.writtenLsn

/-! ### Redo -/

/-- `fetch_for_redo`. -/
def fetchForRedo (disk : PageKey → Option (Page fmt)) (frames : Frames fmt) (key : PageKey) :
    Frame (Page fmt) := (frames.lookup key).getD (.new ((disk key).getD (Block.zero _)) false true)

/-- `apply_redo` of a physical record. -/
def applyRedo (disk : PageKey → Option (Page fmt)) (frames : Frames fmt) (key : PageKey)
    (entry : WalEntry χ) : Result (Frames fmt) := do
  let kind ← normalizeFpi fmt entry.record.kind
  let f := fetchForRedo disk frames key
  let data := if isValid f.data then f.data else Block.zero _
  let (applied, data) ← applyPhysicalRedo data entry.record.lsn kind
  if applied then
    let f ← { f with data }.publishMutation ⟨entry.replayFrom, entry.record.lsn⟩
    return frames.insert key f
  else .ok (frames.insert key { f with data })

/-- The redo loop of `open_app`, for the physical records. -/
def redoLoop (disk : PageKey → Option (Page fmt)) (pageRedoLsn : Nat) (frames : Frames fmt) :
    List (WalEntry χ) → Result (Frames fmt)
  | [] => .ok frames
  | entry :: rest =>
    match pageKey entry.record.kind with
    | none => redoLoop disk pageRedoLsn frames rest
    | some key =>
      if entry.replayFrom < pageRedoLsn then redoLoop disk pageRedoLsn frames rest
      else do
        let frames ← applyRedo disk frames key entry
        redoLoop disk pageRedoLsn frames rest

/-! ### Crashes -/

/-- What a crash leaves of the writes to a page. -/
inductive Leftover (fmt : PageFormat) where
  | landed (image : Page fmt)
  | torn (page : Page fmt)

structure Crash (fmt : PageFormat) where
  endLsn : Nat
  left : List (PageKey × Leftover fmt)

def Leftover.page : Leftover fmt → Page fmt
  | .landed image => image
  | .torn page => page

/-- The disk that a crash leaves. -/
def World.crashDisk (w : World fmt χ) (crash : Crash fmt) (key : PageKey) : Option (Page fmt) :=
  match crash.left.find? (·.1 = key) with
  | none => w.disk key
  | some (_, left) => some left.page

/-- The log that a crash leaves. -/
def World.kept (w : World fmt χ) (crash : Crash fmt) : List (WalEntry χ) :=
  w.log.filter (·.record.lsn ≤ crash.endLsn)

/-- What can happen: no flushed record is lost, and a page keeps its synced image unless it
has been written since. -/
structure World.CanCrash (w : World fmt χ) (crash : Crash fmt) : Prop where
  durable : w.durableLsn ≤ crash.endLsn
  written : crash.endLsn ≤ w.writtenLsn
  landed : ∀ {key image}, (key, .landed image) ∈ crash.left → image ∈ w.writes key
  torn : ∀ {key page}, (key, .torn page) ∈ crash.left → w.writes key ≠ [] ∧ isValid page = false

/-- Recovery: the redo of the kept log from the stored redo boundary. -/
def World.recover (w : World fmt χ) (crash : Crash fmt) : Result (Frames fmt) :=
  redoLoop (w.crashDisk crash) w.pageRedoLsn ∅ (w.kept crash)

/-- The server after recovery. -/
def World.restarted (w : World fmt χ) (crash : Crash fmt) (frames : Frames fmt) : World fmt χ where
  log := w.kept crash
  writtenLsn := crash.endLsn
  durableLsn := crash.endLsn
  frames := frames
  flights := fun _ => none
  disk := w.crashDisk crash
  writes := fun _ => []
  pageRedoLsn := w.pageRedoLsn
  nextRedoLsn := none

/-! ### Changes -/

/-- The edits that the engine makes on a frame. Rows and headers are those of heap pages,
the flag is what `take_needs_fpi` gives, and an image that is logged is that of a page. -/
def canEdit (f : Frame (Page fmt)) : Edit fmt → Bool
  | .init => true
  | .insert rowBytes needsFpi =>
    needsFpi == f.needsFpi && f.data.byte PAGE_TYPE_OFFSET == PAGE_TYPE_DATA && !rowBytes.isEmpty
  | .stamp _ _ _ _ needsFpi =>
    needsFpi == f.needsFpi && f.data.byte PAGE_TYPE_OFFSET == PAGE_TYPE_DATA
  | .delete _ => false
  | .fullImage image => isValid image

/-- The flag after the edit: rows and headers take it. -/
def fpiAfter (f : Frame (Page fmt)) : Edit fmt → Bool
  | .insert .. | .stamp .. => false
  | _ => f.needsFpi

inductive Event (fmt : PageFormat) (χ : Type) where
  | load (key : PageKey) (data : Page fmt)
  | newPage (key : PageKey)
  | change (key : PageKey) (edit : Edit fmt) (txnId : UInt64) (size : Nat)
  | append (txnId : UInt64) (kind : WalRecordKind χ) (size : Nat)
  | flushWal
  | dropClean (key : PageKey)
  | reserve (key : PageKey)
  | stealWrite (key : PageKey)
  | finishSteal (key : PageKey)
  | abortSteal (key : PageKey)
  | capture (key : PageKey)
  | writeCaptured (key : PageKey)
  | finishCheckpoint (key : PageKey)
  | abortCheckpoint (key : PageKey)
  | sync (key : PageKey)
  | takeBoundary
  | storeControl
  | restart (crash : Crash fmt)

namespace World

/-- Append a record of `size` bytes. -/
def appended (w : World fmt χ) (txnId : UInt64) (kind : WalRecordKind χ) (size : Nat) : World fmt χ :=
  { w with
    log := w.log ++ [⟨w.writtenLsn, w.writtenLsn + size, txnId, kind⟩]
    writtenLsn := w.writtenLsn + size }

def setFrame (w : World fmt χ) (key : PageKey) (f : Frame (Page fmt)) : World fmt χ :=
  { w with frames := w.frames.insert key f }

def setFlight (w : World fmt χ) (key : PageKey) (flight : Option (Flight fmt)) : World fmt χ :=
  { w with flights := Function.update w.flights key flight }

/-- `ensure_durable`, then `write_page`. -/
def wrote (w : World fmt χ) (key : PageKey) (image : Page fmt) : World fmt χ := { w with
    durableLsn := w.writtenLsn
    writes := Function.update w.writes key (image :: w.writes key) }

def change (w : World fmt χ) (key : PageKey) (edit : Edit fmt) (txnId : UInt64) (size : Nat) :
    Option (World fmt χ) := do
  let f ← w.frames.lookup key
  let lsn := w.writtenLsn + size
  if f.evicting = false ∧ canEdit f edit ∧ 0 < size ∧ lsn < 2 ^ 64 then
    let (kind, data) ← (edit.run key.1 key.2 f.data lsn).toOption
    let f ← ({ f with data, needsFpi := fpiAfter f edit }.publishMutation
      ⟨w.writtenLsn, lsn⟩).toOption
    return (w.appended txnId kind size).setFrame key f
  else none

end World

/-- One step of the server. -/
def World.step (w : World fmt χ) : Event fmt χ → Option (World fmt χ)
  | .load key data =>
    -- the bytes may have been read long before: another thread can have changed,
    -- flushed and dropped the page since
    if w.frames.lookup key = none ∧ isValid data then
      some (w.setFrame key (.new data false true))
    else none
  | .newPage key =>
    if w.frames.lookup key = none ∧ ∀ entry ∈ w.log, pageKey entry.record.kind ≠ some key then
      some (w.setFrame key (.new (Block.zero _) false false))
    else none
  | .change key edit txnId size => w.change key edit txnId size
  | .append txnId kind size =>
    if pageKey kind = none ∧ 0 < size ∧ w.writtenLsn + size < 2 ^ 64 then
      some (w.appended txnId kind size)
    else none
  | .flushWal => some { w with durableLsn := w.writtenLsn }
  | .dropClean key => do
      let f ← w.frames.lookup key
      if f.dirty = false ∧ f.checkpointFlushing = false then
        return { w with frames := w.frames.erase key }
      else none
  | .reserve key => do
      let f ← w.frames.lookup key
      if f.dirty = true ∧ f.checkpointFlushing = false ∧ f.evicting = false then
        return (w.setFrame key { f with evicting := true }).setFlight key (some .reserved)
      else none
  | .stealWrite key => do
      let f ← w.frames.lookup key
      match w.flights key with
      | some .reserved => some ((w.wrote key f.data).setFlight key (some .stolen))
      | _ => none
  | .finishSteal key =>
    match w.flights key, w.writes key with
    | some .stolen, [] => some ({ w with frames := w.frames.erase key }.setFlight key none)
    | _, _ => none
  | .abortSteal key => do
      let f ← w.frames.lookup key
      match w.flights key with
      | some .reserved | some .stolen =>
        some ((w.setFrame key { f with evicting := false }).setFlight key none)
      | _ => none
  | .capture key => do
      let f ← w.frames.lookup key
      if f.dirty = true ∧ f.checkpointFlushing = false ∧ f.evicting = false then
        let g ← f.captureCheckpoint.toOption
        return (w.setFrame key { g with checkpointFlushing := true }).setFlight key
          (some (.captured f.data))
      else none
  | .writeCaptured key =>
    match w.flights key with
    | some (.captured image) => some ((w.wrote key image).setFlight key (some (.flushed image)))
    | _ => none
  | .finishCheckpoint key => do
      let f ← w.frames.lookup key
      match w.flights key, w.writes key with
      | some (.flushed _), [] => do
          let f ← f.finishCheckpoint.toOption
          return (w.setFrame key f).setFlight key none
      | _, _ => none
  | .abortCheckpoint key => do
      let f ← w.frames.lookup key
      match w.flights key with
      | some (.captured _) | some (.flushed _) =>
        some ((w.setFrame key f.clearCheckpoint).setFlight key none)
      | _ => none
  | .sync key =>
    match w.writes key with
    | image :: _ => some { w with
        disk := Function.update w.disk key (some image)
        writes := Function.update w.writes key [] }
    | [] => none
  | .takeBoundary => do
      let boundary ← w.redoBoundary.toOption
      return { w with nextRedoLsn := some boundary }
  | .storeControl => do
      let boundary ← w.nextRedoLsn
      return { w with durableLsn := w.writtenLsn, pageRedoLsn := boundary, nextRedoLsn := none }
  | .restart crash => do
      let frames ← (w.recover crash).toOption
      return w.restarted crash frames

/-! ### What is to be proved -/

/-- The records of a page. -/
def records (key : PageKey) (log : List (WalEntry χ)) : List (WalEntry χ) :=
  log.filter fun entry => pageKey entry.record.kind = some key

/-- The content that the records of a log produce. -/
def logged (fmt : PageFormat) (key : PageKey) (log : List (WalEntry χ)) : Result (Page fmt) :=
  replay (Block.zero fmt.pageSize) ((records key log).map fun e => (e.record.lsn, e.record.kind))

/-- The content of a page as the pool hands it out. -/
def World.page (w : World fmt χ) (key : PageKey) : Page fmt :=
  (fetchForRedo w.disk w.frames key).data

/-- Every page that the crash leaves torn is redone from a full image or a `HeapInit`: the
first of its records that recovery replays is one. -/
def World.Mended (w : World fmt χ) (crash : Crash fmt) : Prop :=
  ∀ key page, w.crashDisk crash key = some page → isValid page = false →
    ∀ entry, (records key ((w.kept crash).filter (w.pageRedoLsn ≤ ·.replayFrom))).head? = some entry →
      isBase entry.record.kind = true

/-- The crashes of a run. -/
def World.Crashes (guarded : World fmt χ → Crash fmt → Prop) (w : World fmt χ) : Event fmt χ → Prop
  | .restart crash => w.CanCrash crash ∧ guarded w crash
  | _ => True

end Saguaro.Recovery
