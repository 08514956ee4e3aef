/-
The buffer pool is a coherent page map.

`pool_coherent`: in every run whose steps are `careful`, a guard shows the latest published
content of its page, a clean frame is on disk, and so is a page without a frame. What
`careful` excludes breaks it, each on its own (`gaps_break_coherence`):

* a page is loaded, and inserted only after it has been changed, flushed and evicted;
* a writer that had the page pinned publishes between a file flush's copy of the page and
  its note of the generation;
* a frame that a file flush has reserved is stolen, and changes before the flush writes it;
* a file flush ends while another has noted a generation and not yet written the page;
* the sync of a file flush fails while a steal has reserved a frame of the file.

Every call of the store may fail otherwise, and a failed write may leave anything on disk.
-/

import Saguaro.Buffer.Steps

namespace Saguaro.Buffer

open List Option World

open Wal (WalPosition)

variable {π : Type}

/-- A step that keeps the pool coherent. Only six kinds of steps may fail to. -/
def World.careful [DecidableEq π] (config : PoolConfig) (w : World π) : Event π → Bool
  | .advance i =>
    match w.tasks[i]? with
    | some (.withRoom (.insert _ key data)) =>
      (w.pool.frames.lookup key).isSome || w.disk key == some data
    | some (.withRoom (.allocate fileId)) => (w.pool.nextPageNum fileId).toNat + 1 < 2 ^ 32
    | some (.makeRoom _) =>
      match (w.pool.reclaimVictim config).1 with
      | .reservedDirty id => !(w.pool.frame id).any (·.evicting)
      | _ => true
    | some (.record _ id image _ _) => (w.pool.frame id).any (·.data == image)
    | some (.finishFiles fileIds written) =>
      w.pool.frames.entries.all fun e =>
        !(e.1.1 ∈ fileIds && (w.pool.frame e.2).any (·.dirtyMeta.bulkFlush.isSome)) ||
          e.2 ∈ written.map (·.1)
    | _ => true
  | .fail i _ =>
    match w.tasks[i]? with
    | some (.copy fileIds [] written) =>
      w.pool.frames.entries.all fun e =>
        !(e.1.1 ∈ fileIds && (w.pool.frame e.2).any fun f =>
          f.evicting || f.dirtyMeta.bulkFlush.isSome) || e.2 ∈ written.map (·.1)
    | _ => true
  | _ => true

/-- A task goes on, without a change to what it has under way. -/
theorem World.Inv.goOn {empty : π} {w : World π} {i : Nat} {t t' : Task π} (inv : w.Inv empty)
    (task : w.tasks[i]? = some t) (pin : t'.pin = t.pin) (jobs : t'.jobs = t.jobs)
    (seeded : ∀ fileId, t'.seeded = some fileId → t.seeded = some fileId) : (w.become i t').Inv empty :=
  inv.become task pin (fun job mem => ⟨job, jobs ▸ mem, rfl, fun _ _ _ holds => holds⟩)
    (jobs ▸ inv.nodup task) fun fileId seed => inv.allocating task (seeded fileId seed)

section Steps

variable {config : PoolConfig} {empty : π} {w w' : World π} {i id : Nat} {t : Task π} {key : PageKey}
  {f : Frame π}

theorem frame_eq_some : w.pool.frame id = some f ↔ ∃ key, w.pool.heap[id]? = some (key, f) := by
  simp [PoolState.frame, Prod.exists]

/-- A frame of the page table is handed out, unless it is being written. -/
theorem World.Inv.hand (inv : w.Inv empty) (task : w.tasks[i]? = some t) (prior : t.pin = none)
    (res : w.pool.frames.lookup key = some id)
    (free : ¬((w.pool.frame id).any (·.evicting)) = true) {access : Access} {bit : Bool}
    {change : Frame π → Frame π}
    (diff : ∀ f : Frame π, change f = { f with pinCount := f.pinCount + 1, referenceBit := bit }) :
    ((w.updateFrame id change).become i (.pinned access id)).Inv empty := by
  obtain ⟨f, here, -⟩ := inv.table res
  rw [frame_eq_some.mpr ⟨key, here⟩, any_some, Bool.not_eq_true] at free
  exact inv.handOut task here res free prior (diff f)

/-- A reclaimed victim, as `make_room` goes on with it. -/
theorem World.Inv.makeRoom (inv : w.Inv empty) {attempt : Attempt π}
    (task : w.tasks[i]? = some (.makeRoom attempt)) {out : ReclaimOutcome} {pool : PoolState π}
    (reclaimed : Reclaimed w.pool out pool)
    (free : ∀ id, out = .reservedDirty id → (w.pool.frame id).any (·.evicting) = false) :
    match out with
    | .freedClean => ((w.withPool pool).become i (.withRoom attempt)).Inv empty
    | .reservedDirty id => ((w.withPool pool).become i (.steal attempt id)).Inv empty
    | .noVictim => ((w.withPool pool).become i .finished).Inv empty := by
  cases reclaimed with
  | noVictim same => exact (inv.sameFrames same).become task rfl nofun .nil nofun
  | freedClean same victim clean =>
    obtain ⟨f, here, -⟩ := (inv.sameFrames same).table victim.resident
    cases victim.frame.symm.trans (frame_eq_some.mpr ⟨_, here⟩)
    refine (inv.sameFrames same).freeClean task rfl here victim.resident victim.unpinned
      victim.notFlushing clean ⟨rfl, rfl⟩ fun fileId seed => ?_
    exact (inv.sameFrames same).allocating task (by cases attempt <;> exact seed)
  | reservedDirty same victim dirty =>
    obtain ⟨f, here, -⟩ := (inv.sameFrames same).table victim.resident
    cases victim.frame.symm.trans (frame_eq_some.mpr ⟨_, here⟩)
    refine (inv.sameFrames same).reserveDirty task here victim.resident victim.unpinned ?_
      victim.notFlushing dirty
    -- the clock changes reference bits only
    obtain ⟨g, here', -⟩ := inv.table (same.frames ▸ victim.resident)
    obtain ⟨bit, there⟩ := same.heap here'
    cases there.symm.trans here
    have notEvicting := free _ rfl
    rw [frame_eq_some.mpr ⟨_, here'⟩] at notEvicting
    exact notEvicting

theorem World.Inv.files (inv : w.Inv empty) {fileIds : List FileId}
    (task : w.tasks[i]? = some (.files fileIds))
    (free : ¬((w.dirtyOf fileIds).any fun id =>
      (w.pool.frame id).any fun f => f.evicting || f.checkpointFlushing) = true) :
    ((w.updateFrames (w.dirtyOf fileIds) fun f => { f with evicting := true }).become i
      (.copy fileIds (w.dirtyOf fileIds) [])).Inv empty := by
  obtain ⟨lt, -⟩ := List.getElem?_eq_some_iff.mp task
  have begun : (w.become i (.copy fileIds [] [])).Inv empty := inv.become task rfl nofun .nil nofun
  have listed {e : Sigma fun _ : PageKey => Nat} (mem : e ∈ w.pool.frames.entries) :
      w.pool.frames.lookup e.1 = some e.2 := AList.mem_lookup_iff.mpr mem
  have uniq : (w.dirtyOf fileIds).Nodup := by
    refine List.Nodup.map_on ?_ (w.pool.frames.nodupKeys.nodup.filter _)
    rintro ⟨key, id⟩ mem ⟨key', id'⟩ mem' same
    obtain ⟨f, here, -⟩ := inv.table (listed (mem_of_mem_filter mem))
    obtain ⟨f', here', -⟩ := inv.table (listed (mem_of_mem_filter mem'))
    cases same
    cases here.symm.trans here'
    rfl
  have all := begun.reserveFiles [] (List.getElem?_set_self lt) (w.dirtyOf fileIds) uniq fun id mem => by
    rw [Bool.not_eq_true, List.any_eq_false] at free
    have idle := free id mem
    obtain ⟨e, dirtyEntry, rfl⟩ := mem_map.mp mem
    obtain ⟨entry, inFiles⟩ := mem_filter.mp dirtyEntry
    obtain ⟨f, here, -⟩ := inv.table (listed entry)
    rw [frame_eq_some.mpr ⟨_, here⟩, any_some] at idle
    rw [frame_eq_some.mpr ⟨_, here⟩, any_some, Bool.and_eq_true] at inFiles
    simp only [Bool.or_eq_true, not_or, Bool.not_eq_true] at idle
    exact ⟨e.1, f, here, listed entry, inFiles.2, idle⟩
  simpa only [updateFrames_eq, World.become, World.withPool, set_set, nil_append] using all

theorem Alloc.ensure (alloc : Alloc w) (fileId : FileId) (next : UInt32) :
    Alloc (w.withPool (w.pool.ensureNextPageAtLeast fileId next)) where
  seeded mem used := (alloc.seeded mem used).trans_le (le_nextPageNum_ensure ..)
  unseeded := alloc.unseeded
  extent := alloc.extent

theorem updateFrame_updateFrame (pool : PoolState π) (id : Nat) (change change' : Frame π → Frame π) :
    (pool.updateFrame id change).updateFrame id change' = pool.updateFrame id fun f => change' (change f) := by
  simp only [PoolState.updateFrame, modify_modify_eq]
  rfl

/-- A page is loaded or found, and handed out. -/
theorem World.Inv.insertClean [DecidableEq π] (inv : w.Inv empty) {access : Access} {data : π}
    (task : w.tasks[i]? = some (.withRoom (.insert access key data)))
    (now : w.pool.frames.lookup key = none → w.disk key = some data) {pool : PoolState π}
    (ins : w.pool.getOrInsertClean config.frameCount key data = some (id, pool)) :
    (((w.withPool (pool.advanceNextPageNum key.1 key.2)).updateFrame id (·.pin)).become i
      (.pinned access id)).Inv empty := by
  unfold PoolState.getOrInsertClean at ins
  split at ins
  · rename_i id' res
    split_ifs at ins with free
    cases ins
    have advanced : (w.withPool (w.pool.advanceNextPageNum key.1 key.2)).Inv empty :=
      inv.reseed rfl rfl (fun _ mem => mem) (inv.alloc.ensure ..)
    have handed : (((w.withPool (w.pool.advanceNextPageNum key.1 key.2)).updateFrame id
        fun f => { f with referenceBit := true }.pin).become i (.pinned access id)).Inv empty :=
      advanced.hand task rfl res free fun _ => rfl
    unfold updateFrame at handed
    rw [← updateFrame_updateFrame] at handed
    exact handed
  · rename_i gone
    split_ifs at ins with room
    cases ins
    exact inv.insertLoaded task gone (now gone)

theorem World.Inv.advance [DecidableEq π] (inv : w.Inv empty)
    (careful : w.careful config (.advance i) = true) (taken : w.advance config empty i = some w') :
    w'.Inv empty := by
  obtain ⟨t, task, taken⟩ := bind_eq_some_iff.mp taken
  simp only [World.careful, task] at careful
  cases t with
  | finished | reading | writing => cases taken
  | lookup access key =>
    dsimp only at taken
    split at taken
    · cases taken
      exact inv.goOn task rfl rfl nofun
    rename_i id res
    split_ifs at taken with free
    cases taken
    exact inv.hand task rfl res free fun _ => rfl
  | load access key =>
    dsimp only at taken
    split at taken <;> cases taken <;> exact inv.goOn task rfl rfl nofun
  | seed fileId =>
    cases taken
    exact inv.seed task
  | withRoom attempt =>
    cases attempt with
    | insert access key data =>
      dsimp only at taken
      split at taken
      · cases taken
        exact inv.goOn task rfl rfl nofun
      rename_i id pool ins
      cases taken
      refine inv.insertClean task (fun gone => ?_) ins
      simpa [gone] using careful
    | allocate fileId =>
      dsimp only at taken
      split_ifs at taken with full
      · cases taken
        exact inv.goOn task rfl rfl fun _ seed => seed
      obtain ⟨gone, inv'⟩ := inv.insertFresh task (of_decide_eq_true careful)
      simp only [PoolState.insertFreshFrame, gone, isSome_none] at taken
      cases taken
      exact inv'
  | makeRoom attempt =>
    dsimp only at taken
    split_ifs at taken with room
    · cases taken
      exact inv.goOn task rfl rfl fun _ seed => by cases attempt <;> exact seed
    have reclaimed : Reclaimed w.pool (w.pool.reclaimVictim config).1
        (w.pool.reclaimVictim config).2 := reclaimed_sweep config _ w.pool
    have after := inv.makeRoom task reclaimed fun id reserved => by
      rw [reserved] at careful
      simpa using careful
    generalize w.pool.reclaimVictim config = reclaim at taken after
    obtain ⟨out, pool⟩ := reclaim
    cases out <;> cases taken <;> exact after
  | steal attempt id =>
    obtain ⟨f, there, taken⟩ := bind_eq_some_iff.mp taken
    split_ifs at taken with latched
    cases taken
    refine inv.become task rfl (fun job mem => ?_) (nodup_singleton _) fun fileId seed => ?_
    · obtain rfl := mem_singleton.mp mem
      refine ⟨_, .head _, rfl, fun key g here holds => ⟨holds, ?_⟩⟩
      cases there.symm.trans (frame_eq_some.mpr ⟨key, here⟩)
      rfl
    · exact inv.allocating task (by cases attempt <;> exact seed)
  | stealWrite attempt id image =>
    obtain ⟨⟨key, f⟩, here, ⟨⟩⟩ := bind_eq_some_iff.mp taken
    exact inv.stealWrite task here
  | stealFinish attempt id =>
    obtain ⟨⟨key, f⟩, here, taken⟩ := bind_eq_some_iff.mp taken
    obtain ⟨unpinned, inv'⟩ := inv.stealFinish task here rfl
    simp only [unpinned, if_true] at taken
    cases taken
    exact inv'
  | stealAbort id =>
    cases taken
    exact inv.dropPin task rfl
  | pinned access id =>
    cases access <;> dsimp only at taken <;> split_ifs at taken <;> cases taken <;>
      exact inv.goOn task rfl rfl nofun
  | batch cands =>
    cases taken
    obtain ⟨lt, -⟩ := List.getElem?_eq_some_iff.mp task
    have begun : (w.become i (.capture [] [])).Inv empty := inv.goOn task rfl rfl nofun
    exact begun.reserveCandidates (List.getElem?_set_self lt) cands
  | capture reserved cap =>
    cases reserved with
    | nil =>
      cases taken
      exact inv.goOn task rfl (append_nil _) nofun
    | cons id reserved =>
      obtain ⟨f, there, taken⟩ := bind_eq_some_iff.mp taken
      obtain ⟨key, here⟩ := frame_eq_some.mp there
      split_ifs at taken with busy
      · cases taken
        exact inv.release task here
      obtain ⟨g, captures, inv'⟩ := inv.capture task here
        (Bool.not_eq_false _ ▸ fun clean => busy (.inr clean))
      rw [captures] at taken
      cases taken
      exact inv'
  | flush due wrote =>
    cases due with
    | nil =>
      cases taken
      exact inv.goOn task rfl rfl nofun
    | cons image due =>
      obtain ⟨⟨key, f⟩, here, ⟨⟩⟩ := bind_eq_some_iff.mp taken
      exact inv.flush task here
  | settle todo cap =>
    cases todo with
    | nil =>
      cases taken
      exact inv.goOn task rfl rfl nofun
    | cons image todo =>
      obtain ⟨f, there, taken⟩ := bind_eq_some_iff.mp taken
      obtain ⟨key, here⟩ := frame_eq_some.mp there
      obtain ⟨g, fin, inv'⟩ := inv.settle task here
      rw [fin] at taken
      cases taken
      exact inv'
  | files fileIds =>
    dsimp only at taken
    split_ifs at taken with free
    cases taken
    exact inv.files task free
  | copy fileIds todo wrote =>
    cases todo with
    | nil =>
      cases taken
      exact inv.goOn task rfl rfl nofun
    | cons id todo =>
      obtain ⟨f, there, taken⟩ := bind_eq_some_iff.mp taken
      split_ifs at taken with policy latched
      · cases taken
        refine inv.giveUp task rfl (fun id mem => .inr ?_) FrameOk.clearBulk
        rw [ids_copy]
        exact mem
      · cases taken
        exact inv.goOn task rfl rfl nofun
  | record fileIds id image todo wrote =>
    cases taken
    cases there : w.pool.frame id with
    | none => simp [there] at careful
    | some f =>
      obtain ⟨key, here⟩ := frame_eq_some.mp there
      exact inv.record task here (by simpa [there] using careful)
  | writeHome fileIds id image todo wrote =>
    obtain ⟨⟨key, f⟩, here, ⟨⟩⟩ := bind_eq_some_iff.mp taken
    exact inv.writeHome task here
  | finishFiles fileIds wrote =>
    cases taken
    refine inv.finishFiles task fun e mem inFile ⟨f, there, noted⟩ => ?_
    have own := all_eq_true.mp careful e mem
    simp only [there, inFile, any_some, isSome_iff_ne_none.mpr noted, decide_true, Bool.and_self,
      Bool.not_true, Bool.false_or, decide_eq_true_eq] at own
    exact own

theorem clearBulk_eq_self (idle : (f.evicting || f.dirtyMeta.bulkFlush.isSome) = false) :
    f.clearBulk = f := by
  obtain ⟨notEvicting, notNoted⟩ := Bool.or_eq_false_iff.mp idle
  obtain ⟨_, _, _, ⟨_, _, _, _, noted⟩, _, _, evicting, _⟩ := f
  cases notEvicting
  cases isNone_iff_eq_none.mp (by simpa using notNoted)
  rfl

/-- A file flush whose sync fails, when the frames of its files are its own or not reserved. -/
theorem World.Inv.abortFiles (inv : w.Inv empty) {fileIds : List FileId}
    {written : List (Nat × π)} (task : w.tasks[i]? = some (.copy fileIds [] written))
    (own : ∀ e ∈ w.pool.frames.entries, e.1.1 ∈ fileIds → ∀ f, w.pool.frame e.2 = some f →
      (f.evicting || f.dirtyMeta.bulkFlush.isSome) = true → e.2 ∈ written.map (·.1)) :
    ((w.abortFiles fileIds).become i .finished).Inv empty := by
  refine inv.giveUp task rfl (fun id mem => ?_) FrameOk.clearBulk
  obtain ⟨e, listed, rfl⟩ := mem_map.mp mem
  obtain ⟨entry, inFile⟩ := mem_filter.mp listed
  obtain ⟨f, here, -⟩ := inv.table (AList.mem_lookup_iff.mpr entry)
  cases reserved : f.evicting || f.dirtyMeta.bulkFlush.isSome with
  | true =>
    right
    rw [ids_copy]
    exact own e entry (of_decide_eq_true inFile) f (frame_eq_some.mpr ⟨_, here⟩) reserved
  | false =>
    exact .inl (updateFrame_self here (clearBulk_eq_self reserved))

theorem World.Inv.fail [DecidableEq π] (inv : w.Inv empty) {left : Option π}
    (careful : w.careful config (.fail i left) = true) (taken : w.fail i left = some w') :
    w'.Inv empty := by
  obtain ⟨t, task, taken⟩ := bind_eq_some_iff.mp taken
  simp only [World.careful, task] at careful
  split at taken
  · cases taken
    exact inv.goOn task rfl rfl nofun
  · split_ifs at taken
    cases taken
    exact inv.goOn task rfl rfl nofun
  · cases taken
    exact inv.stealAbort task rfl (.steal _) (.head _) rfl
  · cases taken
    exact inv.stealAbort task rfl (.stealFinish _) (.head _) rfl
  · rename_i attempt id image
    obtain ⟨⟨key, f⟩, here, ⟨⟩⟩ := bind_eq_some_iff.mp taken
    obtain ⟨-, holds, -⟩ := inv.job task (.stealWrite id image) (.head _) here
    have after := inv.leavePage task (.stealWrite id image) (.head _) here holds.1.2.1
      (fun _ => holds) left
    rw [← (leavePage_frame w key left).1] at task
    exact after.stealAbort task rfl (.stealWrite id image) (.head _) rfl
  · rename_i written
    cases taken
    refine inv.giveUp task rfl (fun id mem => .inr ?_) FrameOk.clearCheckpoint
    simpa [Task.jobs, Function.comp_def] using mem
  · rename_i id image pending written
    obtain ⟨⟨key, f⟩, here, ⟨⟩⟩ := bind_eq_some_iff.mp taken
    obtain ⟨-, holds, -⟩ := inv.job task (.captured id image) (.head _) here
    have after := inv.leavePage task (.captured id image) (.head _) here holds.2.1
      (fun _ => holds) left
    rw [← (leavePage_frame w key left).1] at task
    refine after.giveUp task rfl (fun id mem => .inr ?_) FrameOk.clearCheckpoint
    simpa [Task.jobs, Function.comp_def] using mem
  · rename_i fileIds written
    cases taken
    refine inv.abortFiles task fun e mem inFile f there reserved => ?_
    have own := all_eq_true.mp careful e mem
    simp only [there, inFile, any_some, reserved, decide_true, Bool.and_self, Bool.not_true,
      Bool.false_or, decide_eq_true_eq] at own
    exact own
  · cases taken
    refine inv.giveUp task rfl (fun id mem => .inr ?_) FrameOk.clearBulk
    rw [ids_copy, map_nil, append_nil]
    exact mem
  · rename_i id image todo written
    obtain ⟨⟨key, f⟩, here, ⟨⟩⟩ := bind_eq_some_iff.mp taken
    obtain ⟨-, holds, -⟩ := inv.job task (.recorded id image) (.head _) here
    have after := inv.leavePage task (.recorded id image) (.head _) here holds.2.1
      (fun _ => holds) left
    rw [← (leavePage_frame w key left).1] at task
    refine after.giveUp task rfl (fun id mem => .inr ?_) FrameOk.clearBulk
    rw [ids_writeHome]
    exact mem
  · cases taken

/-- An operation that begins holds nothing. -/
theorem World.Inv.start (inv : w.Inv empty) (operation : Operation) :
    Inv empty { w with tasks := w.tasks ++ [operation.task] } := by
  have idle : (operation.task : Task π).pin = none ∧ (operation.task : Task π).jobs = [] ∧
      (operation.task : Task π).seeded = none := by
    cases operation <;> exact ⟨rfl, rfl, rfl⟩
  have old {j : Nat} {u : Task π} (found : (w.tasks ++ [operation.task])[j]? = some u) :
      w.tasks[j]? = some u ∨ u = operation.task := by
    rw [getElem?_append] at found
    split_ifs at found with lt
    · exact .inl found
    · exact .inr (mem_singleton.mp (mem_of_getElem? found))
  have working {j : Nat} {u : Task π} {job : Job π} (found : (w.tasks ++ [operation.task])[j]? = some u)
      (mem : job ∈ u.jobs) : w.tasks[j]? = some u := by
    rcases old found with found | rfl
    · exact found
    · rw [idle.2.1] at mem
      cases mem
  refine ⟨inv.table, inv.absent, fun here => ?_, fun found pin => ?_, fun found mem => ?_, fun found => ?_,
    fun found found' mem mem' => ?_, fun found seed => ?_, ⟨inv.alloc.seeded, inv.alloc.unseeded,
      inv.alloc.extent⟩⟩
  · simp only [countP_append, countP_singleton, idle.1]
    exact inv.pins here
  · rcases old found with found | rfl
    · exact inv.pinned found pin
    · cases idle.1.symm.trans pin
  · exact inv.jobs (working found mem) mem
  · rcases old found with found | rfl
    · exact inv.nodup found
    · rw [idle.2.1]
      exact .nil
  · exact inv.apart (working found mem) (working found' mem') mem mem'
  · rcases old found with found | rfl
    · exact inv.allocating found seed
    · cases idle.2.2.symm.trans seed

theorem World.Inv.step [DecidableEq π] (inv : w.Inv empty) {event : Event π}
    (careful : w.careful config event = true) (taken : w.step config empty event = some w') :
    w'.Inv empty := by
  cases event with
  | start operation =>
    cases taken
    exact inv.start operation
  | advance i => exact inv.advance careful taken
  | fail i left => exact inv.fail careful taken
  | publish i data pos =>
    obtain ⟨t, task, taken⟩ := bind_eq_some_iff.mp taken
    split at taken
    · rename_i id
      obtain ⟨⟨key, f⟩, here, taken⟩ := bind_eq_some_iff.mp taken
      obtain ⟨g, pub, ⟨⟩⟩ := bind_eq_some_iff.mp taken
      exact inv.publish task here (Result.toOption_eq_some.mp pub)
    · cases taken
  | dropGuard i =>
    obtain ⟨t, task, taken⟩ := bind_eq_some_iff.mp taken
    split at taken
    · cases taken
      exact inv.dropPin task rfl
    · cases taken
      exact inv.dropPin task rfl
    · cases taken

end Steps

/-! ### Runs -/

/-- Every page of the store lies within the length of its file. -/
def Covers (extent : FileId → UInt32) (disk : PageKey → Option π) : Prop :=
  ∀ fileId p, disk (fileId, p) ≠ none → p.toNat < (extent fileId).toNat

theorem World.Inv.booted (empty : π) {disk : PageKey → Option π} {extent : FileId → UInt32}
    (covers : Covers extent disk) : (booted disk extent).Inv empty where
  table := nofun
  absent _ := rfl
  pins := nofun
  pinned := nofun
  jobs := nofun
  nodup := nofun
  apart := nofun
  allocating := nofun
  alloc := ⟨nofun, fun _ used => used.elim id fun absent => absurd rfl absent, fun stored => covers _ _ stored⟩

/-- What the callers of the pool rely on. -/
structure Coherent (empty : π) (w : World π) : Prop where
  guards : ∀ {id : Nat}, .reading id ∈ w.tasks ∨ .writing id ∈ w.tasks →
    ∃ key f, w.entry id = some (key, f) ∧ f.data = (w.latest key).getD empty
  clean : ∀ {key : PageKey} {id : Nat} {f : Frame π}, w.pool.frames.lookup key = some id →
    w.pool.frame id = some f → f.dirty = false → w.disk key = w.latest key
  kept : ∀ {key : PageKey} {data : π}, w.latest key = some data →
    (∃ id, w.pool.frames.lookup key = some id ∧ (w.pool.frame id).map (·.data) = some data) ∨
      w.pool.frames.lookup key = none ∧ w.disk key = some data

theorem World.Inv.coherent {empty : π} {w : World π} (inv : w.Inv empty) : Coherent empty w where
  guards guard := by
    have shows {t : Task π} (mem : t ∈ w.tasks) {id : Nat} (pin : t.pin = some id) :
        ∃ key f, w.entry id = some (key, f) ∧ f.data = (w.latest key).getD empty := by
      obtain ⟨i, task⟩ := mem_iff_getElem?.mp mem
      obtain ⟨key, f, here, resident⟩ := inv.pinned task pin
      obtain ⟨f', here', ok⟩ := inv.table resident
      cases here.symm.trans here'
      exact ⟨key, f, here, ok.data⟩
    rcases guard with mem | mem
    · exact shows mem rfl
    · exact shows mem rfl
  clean resident there isClean := by
    obtain ⟨f, here, ok⟩ := inv.table resident
    cases there.symm.trans (frame_eq_some.mpr ⟨_, here⟩)
    exact ok.clean isClean
  kept {key data} published := by
    cases found : w.pool.frames.lookup key with
    | none => exact .inr ⟨rfl, (inv.absent found).trans published⟩
    | some id =>
      obtain ⟨f, here, ok⟩ := inv.table found
      refine .inl ⟨id, rfl, ?_⟩
      rw [frame_eq_some.mpr ⟨_, here⟩, map_some, ok.data, published, getD_some]

/-- **The pool is a coherent page map.** After every run of careful steps, whatever the tasks
do and however they interleave, a guard shows the latest published content of its page (an
empty page if there is none), a clean frame's content is on disk, and what was published last
is in the page's frame, or on disk if the page has none. -/
theorem pool_coherent [DecidableEq π] (config : PoolConfig) (empty : π) {disk : PageKey → Option π}
    {extent : FileId → UInt32} (covers : Covers extent disk) {events : List (Event π)} {w : World π}
    (run : Transition.Run (World.step config empty) (fun w event => w.careful config event = true)
      (World.booted disk extent) events w) : Coherent empty w := by
  have inv : w.Inv empty :=
    run.invariant (fun _ _ _ inv careful taken => inv.step careful taken) (.booted empty covers)
  exact inv.coherent

/-- **Pinned frames stay, and a frame has one writer.** After every run of careful steps, a frame
that a task has pinned is its page's in the table, with a pin for each such task. A steal that
ends has the only pin and removes what is on disk. No two tasks flush or steal one frame. -/
theorem pinned_frames_stay [DecidableEq π] (config : PoolConfig) (empty : π) {disk : PageKey → Option π}
    {extent : FileId → UInt32} (covers : Covers extent disk) {events : List (Event π)} {w : World π}
    (run : Transition.Run (World.step config empty) (fun w event => w.careful config event = true)
      (World.booted disk extent) events w) {i : Nat} {t : Task π} (task : w.tasks[i]? = some t) :
    (∀ id, t.pin = some id → ∃ key f, w.pool.heap[id]? = some (key, f) ∧
      w.pool.frames.lookup key = some id ∧ f.pinCount = w.tasks.countP (·.pin == some id)) ∧
      (∀ attempt id, t = .stealFinish attempt id → ∃ key f, w.pool.heap[id]? = some (key, f) ∧
        f.pinCount = 1 ∧ w.disk key = w.latest key) ∧
      ∀ job ∈ t.jobs, ∀ j u, w.tasks[j]? = some u → ∀ job' ∈ u.jobs, job.id = job'.id → i = j := by
  have inv : w.Inv empty :=
    run.invariant (fun _ _ _ inv careful taken => inv.step careful taken) (.booted empty covers)
  refine ⟨fun id pin => ?_, ?_, fun _ mem _ _ task' _ mem' => inv.apart task task' mem mem'⟩
  · obtain ⟨key, f, here, found⟩ := inv.pinned task pin
    exact ⟨key, f, here, found, inv.pins here⟩
  · rintro attempt id rfl
    obtain ⟨key, f, here, -, ⟨-, -, one⟩, kept⟩ := inv.jobs task (.head _)
    exact ⟨key, f, here, one, kept⟩

/-! ### Runs on one frame -/

/-- A pool of one frame that may steal. -/
def oneFrame : PoolConfig := ⟨1, true, fun _ => true⟩

def twoPages : PageKey → Option Nat
  | (1, 0) => some 10
  | (1, 1) => some 20
  | _ => none

def twoPagesExtent : FileId → UInt32
  | 1 => 2
  | _ => 0

theorem covers_twoPages : Covers twoPagesExtent twoPages := by
  intro fileId p kept
  unfold twoPages at kept
  split at kept
  · rename_i same
    cases same
    decide
  · rename_i same
    cases same
    decide
  · exact absurd rfl kept

def reached (ok : World Nat → Event Nat → Bool) (events : List (Event Nat)) : Option (World Nat) :=
  Transition.exec (step oneFrame 0) ok (.booted twoPages twoPagesExtent) events

/-- Some steps of one task. -/
def advances (i n : Nat) : List (Event Nat) := replicate n (.advance i)

/-- Page (1, 0) is changed. The first steal of its frame fails and leaves 99 on disk, and the
second one, for page (1, 1), has written the page. -/
def stealing : List (Event Nat) :=
  [.start (.writePage (1, 0))] ++ advances 0 4 ++ [.publish 0 11 ⟨0, 5⟩, .dropGuard 0,
    .start (.readPage (1, 1))] ++ advances 1 5 ++ [.fail 1 (some 99), .advance 1,
    .start (.readPage (1, 1))] ++ advances 2 6

/-- The steal ends, and page (1, 0) is read again. -/
def stolen : List (Event Nat) :=
  stealing ++ advances 2 3 ++ [.dropGuard 2, .start (.readPage (1, 0))] ++ advances 3 6

theorem pool_coherent_stolen : ∃ w, reached (World.careful oneFrame) stolen = some w ∧
    w.tasks.any (·.reads 2) = true ∧ w.latest (1, 0) = some 11 ∧ Covers twoPagesExtent twoPages ∧
    Coherent 0 w := by
  have done : (reached (World.careful oneFrame) stolen).map (fun w =>
      (w.tasks.any (·.reads 2), w.latest (1, 0))) = some (true, some 11) := by
    decide +kernel
  obtain ⟨w, here, facts⟩ := map_eq_some_iff.mp done
  obtain ⟨guard, latest⟩ := Prod.mk.inj facts
  exact ⟨w, here, guard, latest, covers_twoPages,
    pool_coherent oneFrame 0 covers_twoPages (Transition.Run.of_exec here)⟩

theorem pinned_frames_stay_stealing : ∃ w attempt, reached (World.careful oneFrame) stealing = some w ∧
    w.tasks[2]? = some (.stealFinish attempt 0) ∧
    (∃ key f, w.pool.heap[0]? = some (key, f) ∧ w.pool.frames.lookup key = some 0 ∧
      f.pinCount = w.tasks.countP (·.pin == some 0)) ∧
    (∃ key f, w.pool.heap[0]? = some (key, f) ∧ f.pinCount = 1 ∧ w.disk key = w.latest key) ∧
    ∀ j u, w.tasks[j]? = some u → ∀ job ∈ u.jobs, job.id = 0 → j = 2 := by
  have done : (reached (World.careful oneFrame) stealing).map (fun w => w.tasks[2]?.any fun
      | .stealFinish _ id => id == 0
      | _ => false) = some true := by
    decide +kernel
  obtain ⟨w, here, facts⟩ := map_eq_some_iff.mp done
  obtain ⟨t, task, steals⟩ := (any_eq_true _ _).mp facts
  split at steals
  · rename_i attempt id
    cases beq_iff_eq.mp steals
    obtain ⟨pinned, ends, one⟩ := pinned_frames_stay oneFrame 0 covers_twoPages
      (Transition.Run.of_exec here) task
    refine ⟨w, attempt, here, task, pinned 0 rfl, ends attempt 0 rfl, ?_⟩
    intro j u found job mem at_
    exact (one (.stealFinish 0) (.head _) j u found job mem at_.symm).symm
  · cases steals

/-- A reader finds no frame for page (1, 0) and loads it. Before it inserts the page, another
task changes it, and a third one steals its frame. -/
def staleLoad : List (Event Nat) :=
  [.start (.readPage (1, 0))] ++ advances 0 2 ++ [.start (.writePage (1, 0))] ++ advances 1 4 ++
    [.publish 1 11 ⟨0, 5⟩, .dropGuard 1, .start (.readPage (1, 1))] ++ advances 2 9 ++
    [.dropGuard 2] ++ advances 0 4

/-- A writer has pinned page (1, 0) when a file flush reserves the page. It publishes after the
flush has copied the page and before the flush notes its generation. -/
def lateNote : List (Event Nat) :=
  [.start (.writePage (1, 0))] ++ advances 0 4 ++ [.publish 0 11 ⟨0, 5⟩, .dropGuard 0,
    .start (.writePage (1, 0)), .advance 1, .start (.flushDirtyPagesForFiles [1])] ++ advances 2 2 ++
    [.advance 1, .publish 1 12 ⟨5, 9⟩, .dropGuard 1] ++ advances 2 4

/-- A file flush has copied page (1, 0), whose frame is then stolen for page (1, 1). The page is
loaded and changed again, and stolen again, and only then does the flush write its copy. -/
def stolenReserved : List (Event Nat) :=
  [.start (.writePage (1, 0))] ++ advances 0 4 ++ [.publish 0 11 ⟨0, 5⟩, .dropGuard 0,
    .start (.flushDirtyPagesForFiles [1])] ++ advances 1 3 ++ [.start (.readPage (1, 1))] ++
    advances 2 9 ++ [.dropGuard 2, .start (.writePage (1, 0))] ++ advances 3 6 ++
    [.publish 3 12 ⟨5, 9⟩, .dropGuard 3, .start (.readPage (1, 1))] ++ advances 4 9 ++
    [.dropGuard 4] ++ advances 1 1 ++ [.start (.readPage (1, 0))] ++ advances 5 6

/-- A file flush with nothing to write ends after another has noted the generation of page
(1, 0) and before it writes the page. -/
def overlapping : List (Event Nat) :=
  [.start (.flushDirtyPagesForFiles [1])] ++ advances 0 2 ++ [.start (.writePage (1, 0))] ++
    advances 1 4 ++ [.publish 1 11 ⟨0, 5⟩, .dropGuard 1, .start (.flushDirtyPagesForFiles [1])] ++
    advances 2 3 ++ advances 0 1

/-- A steal has copied page (1, 0) when the sync of a file flush fails, which clears the mark of
the frame. The page is changed once more before the steal writes its copy and removes the
frame. -/
def failedSync : List (Event Nat) :=
  [.start (.flushDirtyPagesForFiles [1]), .advance 0, .start (.writePage (1, 0))] ++ advances 1 4 ++
    [.publish 1 11 ⟨0, 5⟩, .dropGuard 1, .start (.readPage (1, 1))] ++ advances 2 6 ++
    [.fail 0 none, .start (.writePage (1, 0))] ++ advances 3 2 ++
    [.publish 3 12 ⟨5, 9⟩, .dropGuard 3] ++ advances 2 2

/-- Two guards show an older content than the latest, two frames are clean with a content
that is not on disk, and a page without a frame has lost its latest content. -/
theorem gaps_break_coherence :
    (∃ w, reached (fun _ _ => true) staleLoad = some w ∧ w.tasks[0]?.any (·.reads 2) = true ∧
      (∃ e, w.entry 2 = some e ∧ e.1 = (1, 0) ∧ e.2.data = 10) ∧ w.latest (1, 0) = some 11) ∧
    (∃ w, reached (fun _ _ => true) lateNote = some w ∧ w.pool.frames.lookup (1, 0) = some 0 ∧
      (∃ f, w.pool.frame 0 = some f ∧ f.data = 12 ∧ f.dirty = false) ∧ w.disk (1, 0) = some 11) ∧
    (∃ w, reached (fun _ _ => true) stolenReserved = some w ∧ w.tasks[5]?.any (·.reads 4) = true ∧
      (∃ e, w.entry 4 = some e ∧ e.1 = (1, 0) ∧ e.2.data = 11) ∧ w.latest (1, 0) = some 12) ∧
    (∃ w, reached (fun _ _ => true) overlapping = some w ∧ w.pool.frames.lookup (1, 0) = some 0 ∧
      (∃ f, w.pool.frame 0 = some f ∧ f.data = 11 ∧ f.dirty = false) ∧ w.disk (1, 0) = some 10) ∧
    ∃ w, reached (fun _ _ => true) failedSync = some w ∧ w.pool.frames.lookup (1, 0) = none ∧
      w.disk (1, 0) = some 11 ∧ w.latest (1, 0) = some 12 := by
  have stale : (reached (fun _ _ => true) staleLoad).map (fun w => (w.tasks[0]?.any (·.reads 2),
      (w.entry 2).map (fun e => (e.1, e.2.data)), w.latest (1, 0))) =
      some (true, some ((1, 0), 10), some 11) := by
    decide +kernel
  have late : (reached (fun _ _ => true) lateNote).map (fun w => (w.pool.frames.lookup (1, 0),
      (w.pool.frame 0).map (fun f => (f.data, f.dirty)), w.disk (1, 0))) =
      some (some 0, some (12, false), some 11) := by
    decide +kernel
  have again : (reached (fun _ _ => true) stolenReserved).map (fun w => (w.tasks[5]?.any (·.reads 4),
      (w.entry 4).map (fun e => (e.1, e.2.data)), w.latest (1, 0))) =
      some (true, some ((1, 0), 11), some 12) := by
    decide +kernel
  have overlap : (reached (fun _ _ => true) overlapping).map (fun w => (w.pool.frames.lookup (1, 0),
      (w.pool.frame 0).map (fun f => (f.data, f.dirty)), w.disk (1, 0))) =
      some (some 0, some (11, false), some 10) := by
    decide +kernel
  have lost : (reached (fun _ _ => true) failedSync).map (fun w => (w.pool.frames.lookup (1, 0),
      w.disk (1, 0), w.latest (1, 0))) = some (none, some 11, some 12) := by
    decide +kernel
  simp only [map_eq_some_iff, Prod.mk.injEq] at stale late again overlap lost
  exact ⟨stale, late, again, overlap, lost⟩

end Saguaro.Buffer
