/-
What holds of every page while the server runs.

A page without a dirty frame is on disk as all its records built it. A page with one is
there as some of its records built it: none of the records that the disk lacks lies before
the frame's `rec_lsn`, and no redo boundary, stored or about to be stored, lies behind it.

All that concerns one page is put together in its `View`. A step changes the view of one
page and may make more of the log durable for the others.
-/

import Saguaro.Recovery.Built

namespace Saguaro.Recovery

open Storage Buffer Wal Result List Option Function AList World

variable {fmt : PageFormat} {χ : Type} {e' : WalEntry χ}

/-! ### Views -/

structure View (fmt : PageFormat) (χ : Type) where
  records : List (WalEntry χ)
  durableLsn : Nat
  frame : Option (Frame (Page fmt))
  flight : Option (Flight fmt)
  disk : Option (Page fmt)
  writes : List (Page fmt)
  pageRedoLsn : Nat
  nextRedoLsn : Option Nat

def World.view (w : World fmt χ) (key : PageKey) : View fmt χ :=
  ⟨records key w.log, w.durableLsn, w.frames.lookup key, w.flights key, w.disk key, w.writes key,
    w.pageRedoLsn, w.nextRedoLsn⟩

/-- `image` is the page after the first `j` of the records, and these are durable. -/
structure Landed (rs : List (WalEntry χ)) (durableLsn j : Nat) (image : Page fmt) : Prop where
  le : j ≤ rs.length
  built : Built (rs.take j) image
  durable : ∀ e ∈ rs.take j, e.record.lsn ≤ durableLsn

/-- What the file holds once it is synced. -/
def View.lastWritten (v : View fmt χ) : Option (Page fmt) := v.writes.head?.or v.disk

/-- A checkpoint has taken the image of the frame after its first `c` records, and its first
record since then is the one that the reservation remembers. -/
structure Captured (v : View fmt χ) (f : Frame (Page fmt)) (b c : Nat) (image : Page fmt) : Prop where
  newer : b < c
  le : c ≤ v.records.length
  built : Built (v.records.take c) image
  state : ∃ flush, f.dirtyMeta.checkpointFlush = some flush ∧
    (flush.firstRedirtyLsn = none → c = v.records.length ∧ f.needsFpi = true) ∧
    ∀ lsn, flush.firstRedirtyLsn = some lsn → ∃ e, v.records[c]? = some e ∧ e.replayFrom = lsn

def Flying (v : View fmt χ) (f : Frame (Page fmt)) (b : Nat) : Option (Flight fmt) → Prop
  | none => True
  | some .reserved => f.evicting = true
  | some .stolen => f.evicting = true ∧ v.lastWritten = some f.data ∧
      ∀ e ∈ v.records, e.record.lsn ≤ v.durableLsn
  | some (.captured image) => ∃ c, Captured v f b c image
  | some (.flushed image) => ∃ c, Captured v f b c image ∧ v.lastWritten = some image ∧
      ∀ e ∈ v.records.take c, e.record.lsn ≤ v.durableLsn

/-- A dirty frame: `e`, the record number `b`, is the first that the disk may lack. -/
structure Dirty (v : View fmt χ) (f : Frame (Page fmt)) (b : Nat) (e : WalEntry χ) : Prop where
  current : Built v.records f.data
  first : v.records[b]? = some e
  recLsn : f.dirtyMeta.recLsn = some e.replayFrom
  stored : v.pageRedoLsn ≤ e.replayFrom
  next : ∀ lsn, v.nextRedoLsn = some lsn → lsn ≤ e.replayFrom
  disk : (∃ j, b ≤ j ∧ Landed v.records v.durableLsn j (v.disk.getD (Block.zero _))) ∨
    ∃ page, v.disk = some page ∧ isValid page = false ∧ e.record.lsn ≤ v.durableLsn
  writes : ∀ image ∈ v.writes, ∃ j, b < j ∧ Landed v.records v.durableLsn j image
  flight : Flying v f b v.flight

structure Clean (v : View fmt χ) : Prop where
  disk : Landed v.records v.durableLsn v.records.length (v.disk.getD (Block.zero _))
  writes : v.writes = []
  flight : v.flight = none

inductive View.Inv (v : View fmt χ) : Prop where
  | absent : v.frame = none → Clean v → View.Inv v
  | clean (f : Frame (Page fmt)) : v.frame = some f → f.dirty = false ∧ f.dirtyMeta.recLsn = none →
      (f.needsFpi = true ∨ v.records = [] ∧ f.data = Block.zero _) → Clean v → View.Inv v
  | dirty (f : Frame (Page fmt)) (b : Nat) (e : WalEntry χ) : v.frame = some f → f.dirty = true →
      Dirty v f b e → View.Inv v

structure World.Inv (w : World fmt χ) : Prop where
  ordered : w.log.Pairwise (·.record.lsn ≤ ·.replayFrom)
  inside : ∀ e ∈ w.log, e.replayFrom < e.record.lsn ∧ e.record.lsn ≤ w.writtenLsn
  bounded : w.writtenLsn < 2 ^ 64
  durable : w.durableLsn ≤ w.writtenLsn
  stored : w.pageRedoLsn ≤ w.durableLsn
  next : ∀ lsn, w.nextRedoLsn = some lsn → lsn ≤ w.writtenLsn
  pages : ∀ key, (w.view key).Inv

/-! ### More of the log becomes durable, or a record is added -/

section Views

variable {v v' : View fmt χ} {f : Frame (Page fmt)} {b j : Nat} {e : WalEntry χ} {image : Page fmt}
  {rs : List (WalEntry χ)} {durableLsn durableLsn' : Nat}

theorem Landed.mono (landed : Landed rs durableLsn j image) (le : durableLsn ≤ durableLsn') :
    Landed rs durableLsn' j image :=
  ⟨landed.le, landed.built, fun e mem => (landed.durable e mem).trans le⟩

theorem Landed.append (landed : Landed rs durableLsn j image) (new : List (WalEntry χ)) :
    Landed (rs ++ new) durableLsn j image := by
  have same : (rs ++ new).take j = rs.take j := take_append_of_le_length landed.le
  exact ⟨landed.le.trans (by simp), same ▸ landed.built, same ▸ landed.durable⟩

theorem Landed.whole (built : Built rs image) (dur : ∀ e ∈ rs, e.record.lsn ≤ durableLsn) :
    Landed rs durableLsn rs.length image := ⟨le_rfl, by rwa [take_length], by rwa [take_length]⟩

/-- The views that differ from `v` by what is durable. -/
def View.withDurable (v : View fmt χ) (durableLsn : Nat) : View fmt χ := { v with durableLsn }

theorem Flying.congr {flight : Option (Flight fmt)} (flying : Flying v f b flight)
    (records : v'.records = v.records) (last : v'.lastWritten = v.lastWritten)
    (le : v.durableLsn ≤ v'.durableLsn) : Flying v' f b flight := by
  unfold Flying at flying ⊢
  split
  · trivial
  · exact flying
  · exact ⟨flying.1, last ▸ flying.2.1, fun e mem => (flying.2.2 e (records ▸ mem)).trans le⟩
  · obtain ⟨c, cap⟩ := flying
    exact ⟨c, cap.1, records ▸ cap.2, records ▸ cap.3, records ▸ cap.4⟩
  obtain ⟨c, cap, wrote, dur⟩ := flying
  exact ⟨c, ⟨cap.1, records ▸ cap.2, records ▸ cap.3, records ▸ cap.4⟩,
    last ▸ wrote, fun e mem => (dur e (records ▸ mem)).trans le⟩

theorem Dirty.mono (dirty : Dirty v f b e) (le : v.durableLsn ≤ durableLsn) :
    Dirty (v.withDurable durableLsn) f b e where
  current := dirty.current
  first := dirty.first
  recLsn := dirty.recLsn
  stored := dirty.stored
  next := dirty.next
  disk := by
    rcases dirty.disk with ⟨j, from_, landed⟩ | ⟨page, torn, invalid, lsn⟩
    · exact .inl ⟨j, from_, landed.mono le⟩
    · exact .inr ⟨page, torn, invalid, lsn.trans le⟩
  writes := fun image mem => by
    obtain ⟨j, newer, landed⟩ := dirty.writes image mem
    exact ⟨j, newer, landed.mono le⟩
  flight := dirty.flight.congr rfl rfl le

theorem Clean.mono (clean : Clean v) (le : v.durableLsn ≤ durableLsn) :
    Clean (v.withDurable durableLsn) := ⟨clean.disk.mono le, clean.writes, clean.flight⟩

theorem View.Inv.mono (inv : v.Inv) (le : v.durableLsn ≤ durableLsn) :
    (v.withDurable durableLsn).Inv := by
  cases inv with
  | absent gone clean => exact .absent gone (clean.mono le)
  | clean f here notDirty fpi clean => exact .clean f here notDirty fpi (clean.mono le)
  | dirty f b e here isDirty dirty => exact .dirty f b e here isDirty (dirty.mono le)

/-- The views that a step leaves alone when it moves the redo boundaries. -/
theorem View.Inv.boundaries (inv : v.Inv) {kept : Nat} {next : Option Nat}
    (below : ∀ f lsn, v.frame = some f → f.dirty = true → f.dirtyMeta.recLsn = some lsn →
      kept ≤ lsn ∧ ∀ r, next = some r → r ≤ lsn) :
    View.Inv { v with pageRedoLsn := kept, nextRedoLsn := next } := by
  cases inv with
  | absent gone clean => exact .absent gone ⟨clean.disk, clean.writes, clean.flight⟩
  | clean f here notDirty fpi clean =>
    exact .clean f here notDirty fpi ⟨clean.disk, clean.writes, clean.flight⟩
  | dirty f b e here isDirty dirty =>
    obtain ⟨kept, next⟩ := below f e.replayFrom here isDirty dirty.recLsn
    exact .dirty f b e here isDirty
      { dirty with stored := kept, next := next, flight := dirty.flight.congr rfl rfl le_rfl }

end Views

/-! ### Steps of the flushing threads -/

section Steps

variable {w w' : World fmt χ} {key : PageKey} {f g : Frame (Page fmt)}

/-- A step that changes one page and may make more of the log durable. -/
theorem World.Inv.update (inv : w.Inv) (key : PageKey) (log : w'.log = w.log)
    (written : w'.writtenLsn = w.writtenLsn) (grows : w.durableLsn ≤ w'.durableLsn)
    (durable : w'.durableLsn ≤ w.writtenLsn) (stored : w'.pageRedoLsn = w.pageRedoLsn)
    (next : w'.nextRedoLsn = w.nextRedoLsn)
    (others : ∀ k, k ≠ key → w'.view k = (w.view k).withDurable w'.durableLsn)
    (here : (w'.view key).Inv) : w'.Inv where
  ordered := log ▸ inv.ordered
  inside := log ▸ written ▸ inv.inside
  bounded := written ▸ inv.bounded
  durable := written ▸ durable
  stored := stored ▸ inv.stored.trans grows
  next := next ▸ written ▸ inv.next
  pages k := by
    by_cases same : k = key
    · exact same ▸ here
    · exact others k same ▸ (inv.pages k).mono grows

variable {flight : Option (Flight fmt)}

theorem view_of_ne {k : PageKey} (other : k ≠ key) :
    ((w.setFrame key f).setFlight key flight).view k = w.view k := by
  simp [view, setFrame, setFlight, lookup_insert_ne other, update_of_ne other]

/-- A step on the frame and the flight of one page. -/
theorem World.Inv.setFlight (inv : w.Inv)
    (here : View.Inv { w.view key with frame := some f, flight := flight }) :
    ((w.setFrame key f).setFlight key flight).Inv := by
  refine inv.update key rfl rfl le_rfl inv.durable rfl rfl (fun k other => view_of_ne other) ?_
  have same : ((w.setFrame key f).setFlight key flight).view key =
      { w.view key with frame := some f, flight := flight } := by
    simp [World.view, World.setFrame, World.setFlight]
  exact same ▸ here

/-- A frame that is dirty. -/
theorem View.Inv.of_dirty {v : View fmt χ} (inv : v.Inv) (here : v.frame = some f)
    (isDirty : f.dirty = true) : ∃ b e, Dirty v f b e := by
  cases inv with
  | absent gone => cases gone.symm.trans here
  | clean f' here' notDirty =>
    cases here.symm.trans here'
    cases notDirty.1.symm.trans isDirty
  | dirty f' b e here' _ dirty =>
    cases here.symm.trans here'
    exact ⟨b, e, dirty⟩

/-- A page that is being flushed has a dirty frame. -/
theorem View.Inv.of_flight {v : View fmt χ} (inv : v.Inv) (flying : v.flight ≠ none) :
    ∃ f b e, v.frame = some f ∧ f.dirty = true ∧ Dirty v f b e := by
  cases inv with
  | absent _ clean => exact absurd clean.flight flying
  | clean _ _ _ _ clean => exact absurd clean.flight flying
  | dirty f b e here isDirty dirty => exact ⟨f, b, e, here, isDirty, dirty⟩

theorem View.Inv.of_clean {v : View fmt χ} (inv : v.Inv) (clean : v.frame = none ∨
    ∃ f, v.frame = some f ∧ f.dirty = false) : Clean v := by
  cases inv with
  | absent _ clean => exact clean
  | clean _ _ _ _ clean => exact clean
  | dirty f b e here isDirty =>
    rcases clean with gone | ⟨f', here', notDirty⟩
    · cases gone.symm.trans here
    · cases here.symm.trans here'
      cases notDirty.symm.trans isDirty

theorem World.Inv.setFrame (inv : w.Inv) (here : View.Inv { w.view key with frame := some f }) :
    (w.setFrame key f).Inv := by
  have same : w.setFrame key f = (w.setFrame key f).setFlight key (w.flights key) := by
    simp [World.setFlight, World.setFrame]
  rw [same]
  exact inv.setFlight here

theorem World.Inv.load (inv : w.Inv) {data : Page fmt} (gone : w.frames.lookup key = none) :
    (w.setFrame key (.new data false true)).Inv := by
  have clean := (inv.pages key).of_clean (.inl gone)
  exact inv.setFrame (.clean _ rfl ⟨rfl, rfl⟩ (.inl rfl) ⟨clean.disk, clean.writes, clean.flight⟩)

theorem World.Inv.newPage (inv : w.Inv) (gone : w.frames.lookup key = none)
    (unlogged : ∀ entry ∈ w.log, pageKey entry.record.kind ≠ some key) :
    (w.setFrame key (.new (Block.zero _) false false)).Inv := by
  have clean := (inv.pages key).of_clean (.inl gone)
  have none : records key w.log = [] := by
    refine filter_eq_nil_iff.mpr fun entry mem => ?_
    simpa using unlogged entry mem
  exact inv.setFrame (.clean _ rfl ⟨rfl, rfl⟩ (.inr ⟨none, rfl⟩) ⟨clean.disk, clean.writes, clean.flight⟩)

theorem World.Inv.flushWal (inv : w.Inv) : Inv { w with durableLsn := w.writtenLsn } :=
  inv.update (0, 0) rfl rfl inv.durable le_rfl rfl rfl (fun _ _ => rfl)
    ((inv.pages (0, 0)).mono inv.durable)

/-- A page whose frame is dropped is on disk. -/
theorem World.Inv.erase (inv : w.Inv) (clean : Clean { w.view key with flight := none }) :
    World.Inv ({ w with frames := w.frames.erase key }.setFlight key none) := by
  refine inv.update key rfl rfl le_rfl inv.durable rfl rfl (fun k other => ?_) (.absent ?_ ?_)
  · simp only [World.view, World.setFlight, lookup_erase_ne other, update_of_ne other]
    rfl
  · exact lookup_erase key w.frames
  · exact ⟨clean.disk, clean.writes, update_self ..⟩

theorem World.Inv.dropClean (inv : w.Inv) (found : w.frames.lookup key = some f)
    (notDirty : f.dirty = false) : World.Inv { w with frames := w.frames.erase key } := by
  have clean := (inv.pages key).of_clean (.inr ⟨f, found, notDirty⟩)
  have same : { w with frames := w.frames.erase key } =
      { w with frames := w.frames.erase key }.setFlight key none := by
    simp [World.setFlight, ← show w.flights key = none from clean.flight]
  rw [same]
  exact inv.erase ⟨clean.disk, clean.writes, rfl⟩

/-- The frame of a page changes in what `Dirty` does not look at. -/
theorem Dirty.congr {v : View fmt χ} {b : Nat} {e : WalEntry χ}
    (dirty : Dirty v f b e) (data : g.data = f.data)
    (recLsn : g.dirtyMeta.recLsn = f.dirtyMeta.recLsn) (flying : Flying v g b flight) :
    Dirty { v with frame := some g, flight := flight } g b e where
  current := data ▸ dirty.current
  first := dirty.first
  recLsn := recLsn ▸ dirty.recLsn
  stored := dirty.stored
  next := dirty.next
  disk := dirty.disk
  writes := dirty.writes
  flight := flying.congr rfl rfl le_rfl

section

variable (inv : w.Inv)

include inv

section

variable (found : w.frames.lookup key = some f)

include found

theorem World.Inv.reserve (isDirty : f.dirty = true) :
    ((w.setFrame key { f with evicting := true }).setFlight key (some .reserved)).Inv := by
  obtain ⟨b, e, dirty⟩ := (inv.pages key).of_dirty found isDirty
  exact inv.setFlight (.dirty _ b e rfl isDirty (dirty.congr rfl rfl rfl))

theorem World.Inv.abortSteal (flying : w.flights key ≠ none) :
    ((w.setFrame key { f with evicting := false }).setFlight key none).Inv := by
  obtain ⟨f', b, e, found', isDirty, dirty⟩ := (inv.pages key).of_flight flying
  cases found.symm.trans found'
  exact inv.setFlight (.dirty _ b e rfl isDirty (dirty.congr rfl rfl trivial))

theorem World.Inv.abortCheckpoint (flying : w.flights key ≠ none) :
    ((w.setFrame key f.clearCheckpoint).setFlight key none).Inv := by
  obtain ⟨f', b, e, found', isDirty, dirty⟩ := (inv.pages key).of_flight flying
  cases found.symm.trans found'
  exact inv.setFlight (.dirty _ b e rfl isDirty (dirty.congr rfl rfl trivial))

theorem World.Inv.capture (isDirty : f.dirty = true) (cap : f.captureCheckpoint = .ok g) :
    ((w.setFrame key { g with checkpointFlushing := true }).setFlight key
      (some (.captured f.data))).Inv := by
  obtain ⟨b, e, dirty⟩ := (inv.pages key).of_dirty found isDirty
  unfold Frame.captureCheckpoint at cap
  split at cap
  · cases cap
  cases cap
  refine inv.setFlight (.dirty _ b e rfl isDirty (dirty.congr rfl rfl ?_))
  obtain ⟨lt, -⟩ := List.getElem?_eq_some_iff.mp dirty.first
  exact ⟨_, lt, le_rfl, by rw [take_length]; exact dirty.current, _, rfl, fun _ => ⟨rfl, rfl⟩, nofun⟩

/-- The image that a thread writes, with all its records durable. -/
theorem World.Inv.wrote {flight : Flight fmt} {b c : Nat} {e : WalEntry χ}
    {image : Page fmt} (isDirty : f.dirty = true)
    (dirty : Dirty (w.view key) f b e) (newer : b < c) (le : c ≤ (records key w.log).length)
    (built : Built ((records key w.log).take c) image)
    (flying : Flying { (w.view key).withDurable w.writtenLsn with writes := image :: w.writes key } f b
      (some flight)) : ((w.wrote key image).setFlight key (some flight)).Inv := by
  have all : ∀ e ∈ records key w.log, e.record.lsn ≤ w.writtenLsn := fun e mem =>
    (inv.inside e (mem_of_mem_filter mem)).2
  refine inv.update key rfl rfl inv.durable le_rfl rfl rfl (fun k other => ?_)
    (.dirty f b e found isDirty ?_)
  · simp only [World.view, World.setFlight, World.wrote, update_of_ne other]
    rfl
  have grown := dirty.mono inv.durable
  exact
    { current := grown.current
      first := grown.first
      recLsn := grown.recLsn
      stored := grown.stored
      next := grown.next
      disk := grown.disk
      writes := by
        intro image' mem
        simp only [World.view, World.setFlight, World.wrote, update_self, mem_cons] at mem
        rcases mem with rfl | old
        · exact ⟨c, newer, le, built, fun e mem => all e (mem_of_mem_take mem)⟩
        · exact grown.writes image' old
      flight := by
        simp only [World.view, World.setFlight, World.wrote, update_self]
        exact flying.congr rfl rfl le_rfl }

theorem World.Inv.stealWrite (flying : w.flights key = some .reserved) :
    ((w.wrote key f.data).setFlight key (some .stolen)).Inv := by
  obtain ⟨f', b, e, found', isDirty, dirty⟩ :=
    (inv.pages key).of_flight (show w.flights key ≠ none by rw [flying]; nofun)
  cases found.symm.trans found'
  have evicting : f.evicting = true := by
    have reserved := dirty.flight
    simp only [view, flying] at reserved
    exact reserved
  obtain ⟨lt, -⟩ := List.getElem?_eq_some_iff.mp dirty.first
  have whole : Built ((records key w.log).take (records key w.log).length) f.data := by
    rw [take_length]
    exact dirty.current
  exact inv.wrote found isDirty dirty lt le_rfl whole
    ⟨evicting, rfl, fun e mem => (inv.inside e (mem_of_mem_filter mem)).2⟩

end

theorem World.Inv.writeCaptured {image : Page fmt}
    (flying : w.flights key = some (.captured image)) :
    ((w.wrote key image).setFlight key (some (.flushed image))).Inv := by
  obtain ⟨f, b, e, found, isDirty, dirty⟩ :=
    (inv.pages key).of_flight (show w.flights key ≠ none by rw [flying]; nofun)
  have cap := dirty.flight
  simp only [view, flying] at cap
  obtain ⟨c, cap⟩ := cap
  refine inv.wrote found isDirty dirty cap.newer cap.le cap.built
    ⟨c, ⟨cap.newer, cap.le, cap.built, cap.state⟩, rfl, fun e mem => ?_⟩
  exact (inv.inside e (mem_of_mem_filter (mem_of_mem_take mem))).2

theorem World.Inv.finishSteal (flying : w.flights key = some .stolen) (synced : w.writes key = []) :
    Inv ({ w with frames := w.frames.erase key }.setFlight key none) := by
  obtain ⟨f, b, e, found, isDirty, dirty⟩ :=
    (inv.pages key).of_flight (show w.flights key ≠ none by rw [flying]; nofun)
  have stolen := dirty.flight
  simp only [view, flying] at stolen
  obtain ⟨-, last, dur⟩ := stolen
  have home : w.disk key = some f.data := by
    simpa only [View.lastWritten, synced, head?_nil, none_or] using last
  refine inv.erase ⟨?_, synced, rfl⟩
  simp only [view, home, getD_some]
  exact .whole dirty.current dur

theorem World.Inv.sync {image : Page fmt} {older : List (Page fmt)}
    (due : w.writes key = image :: older) : Inv { w with
      disk := Function.update w.disk key (some image)
      writes := Function.update w.writes key [] } := by
  refine inv.update key rfl rfl le_rfl inv.durable rfl rfl (fun k other => ?_) ?_
  · simp only [view, update_of_ne other]
    rfl
  simp only [view, update_self]
  rcases inv.pages key with ⟨-, clean⟩ | ⟨_, -, -, -, clean⟩ | ⟨f, b, e, found, isDirty, dirty⟩
  · cases clean.writes.symm.trans due
  · cases clean.writes.symm.trans due
  obtain ⟨j, newer, landed⟩ := dirty.writes image (by simp only [view, due]; exact .head _)
  refine .dirty f b e found isDirty
    { dirty with
      disk := .inl ⟨j, newer.le, landed⟩
      writes := nofun
      flight := dirty.flight.congr rfl ?_ le_rfl }
  simp only [View.lastWritten, view, due]
  rfl

/-- The records of a page follow each other. -/
theorem World.Inv.records_ordered {i j : Nat} {e : WalEntry χ}
    (first : (records key w.log)[i]? = some e) (snd : (records key w.log)[j]? = some e')
    (less : i < j) : e.record.lsn ≤ e'.replayFrom := by
  obtain ⟨lt, rfl⟩ := List.getElem?_eq_some_iff.mp first
  obtain ⟨lt', rfl⟩ := List.getElem?_eq_some_iff.mp snd
  exact pairwise_iff_getElem.mp (inv.ordered.sublist filter_sublist) i j lt lt' less

theorem World.Inv.replayFrom_le {i j : Nat} {e : WalEntry χ}
    (first : (records key w.log)[i]? = some e) (snd : (records key w.log)[j]? = some e')
    (le : i ≤ j) : e.replayFrom ≤ e'.replayFrom := by
  rcases lt_or_eq_of_le le with less | rfl
  · have inside := inv.inside e (mem_of_mem_filter (mem_of_getElem? first))
    exact inside.1.le.trans (inv.records_ordered first snd less)
  · rw [some.inj (first.symm.trans snd)]

theorem World.Inv.finishCheckpoint {image : Page fmt}
    (found : w.frames.lookup key = some f) (flying : w.flights key = some (.flushed image))
    (synced : w.writes key = []) (fin : f.finishCheckpoint = .ok g) :
    ((w.setFrame key g).setFlight key none).Inv := by
  obtain ⟨f', b, e, found', isDirty, dirty⟩ :=
    (inv.pages key).of_flight (show w.flights key ≠ none by rw [flying]; nofun)
  cases found.symm.trans found'
  have flushed := dirty.flight
  simp only [view, flying] at flushed
  obtain ⟨c, cap, last, dur⟩ := flushed
  have home : w.disk key = some image := by
    simpa only [View.lastWritten, synced, head?_nil, none_or] using last
  have landed : Landed (records key w.log) w.durableLsn c ((w.disk key).getD (Block.zero _)) := by
    rw [home]
    exact ⟨cap.le, cap.built, dur⟩
  obtain ⟨flush, state, same, redirtied⟩ := cap.state
  simp only [Frame.finishCheckpoint, state] at fin
  split at fin
  · rename_i clean
    cases fin
    obtain ⟨rfl, fpi⟩ := same clean.2.2
    exact inv.setFlight (.clean _ rfl ⟨rfl, rfl⟩ (.inl fpi) ⟨landed, synced, rfl⟩)
  split at fin
  · cases fin
  rename_i redirtyLsn redirty
  cases fin
  obtain ⟨e', at_, rfl⟩ := redirtied redirtyLsn redirty
  have later : e.replayFrom ≤ e'.replayFrom := inv.replayFrom_le dirty.first at_ cap.newer.le
  refine inv.setFlight (.dirty _ c e' rfl isDirty ?_)
  exact
    { current := dirty.current
      first := at_
      recLsn := rfl
      stored := dirty.stored.trans later
      next := fun lsn due => (dirty.next lsn due).trans later
      disk := .inl ⟨c, le_rfl, landed⟩
      writes := fun image' mem => by
        simp only [view, synced, not_mem_nil] at mem
      flight := trivial }

end

/-! ### Redo boundaries -/

theorem mem_dirtyPageTable {ents : List (Sigma fun _ : PageKey => Frame (Page fmt))}
    {table : List (PageKey × Nat)} (made : dirtyPageTable ents = .ok table) {lsn : Nat} :
    (key, lsn) ∈ table ↔ ∃ f, ⟨key, f⟩ ∈ ents ∧ f.dirty = true ∧ f.dirtyMeta.recLsn = some lsn := by
  induction ents generalizing table with
  | nil =>
    cases made
    simp
  | cons entry rest ih =>
    obtain ⟨key', f'⟩ := entry
    simp only [dirtyPageTable] at made
    split at made
    · rename_i isDirty
      split at made
      · cases made
      rename_i recLsn known
      obtain ⟨table', restMade, ⟨⟩⟩ := bind_eq_ok.mp made
      rw [mem_cons, ih restMade]
      constructor
      · rintro (same | ⟨f, mem, facts⟩)
        · cases same
          exact ⟨f', .head _, isDirty, known⟩
        · exact ⟨f, .tail _ mem, facts⟩
      rintro ⟨f, mem, dirty', known'⟩
      rcases mem_cons.mp mem with same | later
      · cases same
        cases known.symm.trans known'
        exact .inl rfl
      · exact .inr ⟨f, later, dirty', known'⟩
    · rename_i notDirty
      rw [ih made]
      constructor
      · rintro ⟨f, mem, facts⟩
        exact ⟨f, .tail _ mem, facts⟩
      rintro ⟨f, mem, isDirty, known⟩
      rcases mem_cons.mp mem with same | later
      · cases same
        exact absurd isDirty notDirty
      · exact ⟨f, later, isDirty, known⟩

variable {boundary : Nat}

/-- The boundary that a checkpoint takes is not behind the first record that the disk may
lack of any page. -/
theorem World.Inv.redoBoundary_le (inv : w.Inv)
    (made : w.redoBoundary = .ok boundary) : boundary ≤ w.writtenLsn ∧
      ∀ key f lsn, w.frames.lookup key = some f → f.dirty = true → f.dirtyMeta.recLsn = some lsn →
        boundary ≤ lsn := by
  obtain ⟨table, listed, same⟩ := bind_eq_ok.mp made
  have member {key f lsn} (found : w.frames.lookup key = some f) (isDirty : f.dirty = true)
      (known : f.dirtyMeta.recLsn = some lsn) : lsn ∈ table.map (·.2) := mem_map.mpr ⟨(key, lsn),
      (mem_dirtyPageTable listed).mpr ⟨f, mem_lookup_iff.mp found, isDirty, known⟩, rfl⟩
  cases least : (table.map (·.2)).min? with
  | none =>
    rw [least] at same
    cases same
    refine ⟨le_rfl, fun key f lsn found isDirty known => ?_⟩
    rw [min?_eq_none_iff.mp least] at member
    cases member found isDirty known
  | some lsn =>
    rw [least] at same
    cases same
    obtain ⟨mem, lower⟩ := min?_eq_some_iff.mp least
    refine ⟨?_, fun key f lsn found isDirty known => lower _ (member found isDirty known)⟩
    obtain ⟨⟨key, _⟩, row, rfl⟩ := mem_map.mp mem
    obtain ⟨f, here, isDirty, known⟩ := (mem_dirtyPageTable listed).mp row
    obtain ⟨b, e, dirty⟩ := (inv.pages key).of_dirty (mem_lookup_iff.mpr here) isDirty
    cases known.symm.trans dirty.recLsn
    have inside := inv.inside e (mem_of_mem_filter (mem_of_getElem? dirty.first))
    exact inside.1.le.trans inside.2

theorem World.Inv.takeBoundary (inv : w.Inv) (made : w.redoBoundary = .ok boundary) :
    Inv { w with nextRedoLsn := some boundary } where
  ordered := inv.ordered
  inside := inv.inside
  bounded := inv.bounded
  durable := inv.durable
  stored := inv.stored
  next := by
    rintro _ ⟨⟩
    exact (inv.redoBoundary_le made).1
  pages key := by
    refine (inv.pages key).boundaries fun f lsn found isDirty known => ?_
    obtain ⟨b, e, dirty⟩ := (inv.pages key).of_dirty found isDirty
    cases known.symm.trans dirty.recLsn
    refine ⟨dirty.stored, ?_⟩
    rintro _ ⟨⟩
    exact (inv.redoBoundary_le made).2 key f _ found isDirty known

theorem World.Inv.storeControl (inv : w.Inv) (taken : w.nextRedoLsn = some boundary) :
    Inv { w with durableLsn := w.writtenLsn, pageRedoLsn := boundary, nextRedoLsn := none } where
  ordered := inv.ordered
  inside := inv.inside
  bounded := inv.bounded
  durable := le_rfl
  stored := inv.next boundary taken
  next := nofun
  pages key := by
    refine ((inv.pages key).mono inv.durable).boundaries fun f lsn found isDirty known => ?_
    obtain ⟨b, e, dirty⟩ := (inv.pages key).of_dirty found isDirty
    cases known.symm.trans dirty.recLsn
    exact ⟨dirty.next boundary taken, nofun⟩

/-! ### Records -/

variable {txnId : UInt64} {kind : WalRecordKind χ} {size : Nat}

theorem records_appended_of_ne (other : pageKey kind ≠ some key) :
    records key (w.appended txnId kind size).log = records key w.log := by
  simp [appended, records, filter_append, other]

/-- The log after a record, with the pages still to be looked at. -/
theorem World.Inv.appended (inv : w.Inv) (positive : 0 < size) (fits : w.writtenLsn + size < 2 ^ 64)
    (frames : Frames fmt)
    (pages : ∀ key, (view { w.appended txnId kind size with frames := frames } key).Inv) :
    Inv { w.appended txnId kind size with frames := frames } where
  ordered := by
    refine pairwise_append.mpr ⟨inv.ordered, pairwise_singleton .., ?_⟩
    intro e mem e' new
    obtain rfl := mem_singleton.mp new
    exact (inv.inside e mem).2
  inside e mem := by
    rcases mem_append.mp mem with old | new
    · exact ⟨(inv.inside e old).1, (inv.inside e old).2.trans (Nat.le_add_right ..)⟩
    · obtain rfl := mem_singleton.mp new
      exact ⟨Nat.lt_add_of_pos_right positive, le_rfl⟩
  bounded := fits
  durable := inv.durable.trans (Nat.le_add_right ..)
  stored := inv.stored
  next lsn taken := (inv.next lsn taken).trans (Nat.le_add_right ..)
  pages := pages

theorem World.Inv.append (inv : w.Inv) (pos : 0 < size) (fits : w.writtenLsn + size < 2 ^ 64)
    (notPage : pageKey kind = none) : (w.appended txnId kind size).Inv := by
  refine inv.appended pos fits w.frames fun key => ?_
  have same : view { w.appended txnId kind size with frames := w.frames } key = w.view key := by
    simp only [view, records_appended_of_ne (show pageKey kind ≠ some key by rw [notPage]; nofun)]
    rfl
  exact same ▸ inv.pages key

theorem Built.pageLsn_le {rs : List (WalEntry χ)} {p : Page fmt} {bound : Nat} (built : Built rs p)
    (old : ∀ e ∈ rs, e.record.lsn ≤ bound) : pageLsn p ≤ bound := by
  cases built with
  | nil => exact pageLsn_zero.trans_le (Nat.zero_le _)
  | snoc _ _ _ _ stamped => exact stamped.trans_le (old _ (mem_append_right _ (.head _)))

/-- The checkpoint that is under way for a page remembers a change of it. -/
theorem Flying.publish {v : View fmt χ} {b : Nat}
    {pos : WalPosition} (flying : Flying v f b flight) (free : f.evicting = false)
    (from_ : pos.replayFrom = e'.replayFrom)
    (later : ∀ e ∈ v.records, e.replayFrom ≤ e'.replayFrom)
    (state : g.dirtyMeta = Frame.publishMeta f.dirtyMeta pos) :
    Flying { v with records := v.records ++ [e'], frame := some g } g b flight := by
  have cap {image : Page fmt} {c : Nat} (cap : Captured v f b c image) :
      Captured { v with records := v.records ++ [e'], frame := some g } g b c image := by
    refine ⟨cap.newer, cap.le.trans (by simp), ?_, ?_⟩
    · rw [take_append_of_le_length cap.le]
      exact cap.built
    obtain ⟨flush, reserved, unchanged, redirtied⟩ := cap.state
    refine ⟨_, by rw [state, Frame.publishMeta, reserved, map_some],
      fun none => absurd none (some_ne_none _), ?_⟩
    rintro lsn ⟨⟩
    simp only [from_]
    cases first : flush.firstRedirtyLsn with
    | none =>
      obtain ⟨rfl, -⟩ := unchanged first
      exact ⟨e', by simp, rfl⟩
    | some redirtyLsn =>
      obtain ⟨e, at_, rfl⟩ := redirtied redirtyLsn first
      obtain ⟨lt, same⟩ := List.getElem?_eq_some_iff.mp at_
      refine ⟨e, by rw [List.getElem?_append_left lt]; exact at_, ?_⟩
      have le := later e (same ▸ getElem_mem lt)
      simp [min_eq_left le]
  unfold Flying at flying ⊢
  split
  · trivial
  · cases free.symm.trans flying
  · cases free.symm.trans flying.1
  · obtain ⟨c, taken⟩ := flying
    exact ⟨c, cap taken⟩
  obtain ⟨c, taken, last, dur⟩ := flying
  refine ⟨c, cap taken, last, ?_⟩
  rw [take_append_of_le_length taken.le]
  exact dur

/-- A change of a page. -/
theorem View.Inv.publish {v : View fmt χ} (inv : v.Inv) (here : v.frame = some f)
    {edit : Edit fmt} {q : Page fmt} {pos : WalPosition} (free : f.evicting = false)
    (can : canEdit f edit = true) (from_ : pos.replayFrom = e'.replayFrom)
    (positive : e'.replayFrom < e'.record.lsn) (fits : e'.record.lsn < 2 ^ 64)
    (ran : edit.run key.1 key.2 f.data e'.record.lsn = .ok (e'.record.kind, q))
    (kept : v.pageRedoLsn ≤ e'.replayFrom) (next : ∀ lsn, v.nextRedoLsn = some lsn → lsn ≤ e'.replayFrom)
    (older : ∀ e ∈ v.records, e.replayFrom < e.record.lsn ∧ e.record.lsn ≤ e'.replayFrom)
    (data : g.data = q) (isDirty : g.dirty = true)
    (state : g.dirtyMeta = Frame.publishMeta f.dirtyMeta pos) :
    View.Inv { v with records := v.records ++ [e'], frame := some g } := by
  have newer {p : Page fmt} (built : Built v.records p) : pageLsn p < e'.record.lsn :=
    (built.pageLsn_le fun e mem => (older e mem).2).trans_lt positive
  have grown {p : Page fmt} (built : Built v.records p)
      (redone : redo p e'.record.lsn e'.record.kind = .ok q) : Built (v.records ++ [e']) g.data :=
    data ▸ built.snoc (newer built) redone (valid_run can ran) (pageLsn_run fits ran)
  cases inv with
  | absent gone => cases gone.symm.trans here
  | clean f' here' notDirty fpi clean =>
    cases here.symm.trans here'
    have all : Built v.records (v.disk.getD (Block.zero _)) := by
      have built := clean.disk.built
      rwa [take_length] at built
    have now : Built (v.records ++ [e']) g.data := by
      rcases fpi with fpi | ⟨none, zero⟩
      · exact grown all (redo_run_of_needsFpi can fpi ran (newer all))
      have built : Built v.records f.data := by
        rw [none, zero]
        exact .nil
      exact grown built (redo_run (newer built) ran)
    refine .dirty g v.records.length e' rfl isDirty
      { current := now
        first := by simp
        recLsn := ?_
        stored := kept
        next := next
        disk := .inl ⟨_, le_rfl, clean.disk.append _⟩
        writes := fun image mem => ?_
        flight := ?_ }
    · rw [state, Frame.publishMeta, notDirty.2, from_]
      rfl
    · simp only [clean.writes, not_mem_nil] at mem
    · simp only [clean.flight]
      trivial
  | dirty f' b e here' _ dirty =>
    cases here.symm.trans here'
    obtain ⟨lt, -⟩ := List.getElem?_eq_some_iff.mp dirty.first
    refine .dirty g b e rfl isDirty
      { current := grown dirty.current (redo_run (newer dirty.current) ran)
        first := ?_
        recLsn := ?_
        stored := dirty.stored
        next := dirty.next
        disk := ?_
        writes := fun image mem => ?_
        flight := ?_ }
    · rw [List.getElem?_append_left lt]
      exact dirty.first
    · rw [state, Frame.publishMeta, dirty.recLsn]
      rfl
    · rcases dirty.disk with ⟨j, from_, landed⟩ | torn
      · exact .inl ⟨j, from_, landed.append _⟩
      · exact .inr torn
    · obtain ⟨j, newer, landed⟩ := dirty.writes image mem
      exact ⟨j, newer, landed.append _⟩
    · exact dirty.flight.publish free from_ (fun e mem => (older e mem).1.le.trans (older e mem).2) state

theorem World.Inv.change (inv : w.Inv) {edit : Edit fmt}
    (diff : w.change key edit txnId size = some w') : w'.Inv := by
  simp only [World.change, bind_eq_bind, bind_eq_some_iff] at diff
  obtain ⟨f, found, diff⟩ := diff
  split at diff
  · rename_i guard
    obtain ⟨free, can, pos, fits⟩ := guard
    obtain ⟨⟨kind, data⟩, ran, diff⟩ := bind_eq_some_iff.mp diff
    obtain ⟨g, pub, ⟨⟩⟩ := bind_eq_some_iff.mp diff
    have ran := toOption_eq_some.mp ran
    obtain rfl := Frame.eq_of_publishMutation (toOption_eq_some.mp pub)
    have page : pageKey kind = some key := pageKey_run ran
    refine inv.appended pos fits _ fun k => ?_
    by_cases other : k = key
    · subst other
      have grown : View.Inv { w.view k with
          records := records k w.log ++ [⟨w.writtenLsn, w.writtenLsn + size, txnId, kind⟩]
          frame := some { f with
            data, needsFpi := fpiAfter f edit, dirty := true
            dirtyMeta := Frame.publishMeta f.dirtyMeta ⟨w.writtenLsn, w.writtenLsn + size⟩ } } :=
        (inv.pages k).publish found free can rfl (Nat.lt_add_of_pos_right pos) fits ran
          (inv.stored.trans inv.durable) inv.next
          (fun e mem => inv.inside e (mem_of_mem_filter mem)) rfl rfl rfl
      convert grown using 1
      simp [World.view, World.appended, records, filter_append, page]
    · have notHere : pageKey kind ≠ some k := fun same =>
        other (some.inj (same.symm.trans page))
      convert inv.pages k using 1
      simp only [World.view, lookup_insert_ne other, records_appended_of_ne notHere]
      rfl
  · cases diff

end Steps

end Saguaro.Recovery
