/-
The steps of the buffer pool's tasks.

Each keeps the invariant. Four of them need more than the invariant gives: the insertion of
a loaded page needs its bytes to be those on disk, the note that a file flush makes of a
page's generation needs its copy to be current, a stolen frame must not be reserved by a
file flush, and a file flush may only end or abort the flushes of its own pages.
-/

import Saguaro.Buffer.Coherence

namespace Saguaro.Buffer

open List Option Function World

open Wal (WalPosition)

variable {π : Type} {captured : List (Nat × π)}

section Steps

variable {empty : π} {w w' : World π} {i id : Nat} {t t' : Task π} {key : PageKey} {f f' : Frame π}
  {change : Frame π → Frame π}

theorem acts_updateFrame (alloc : Alloc w) (here : w.pool.heap[id]? = some (key, f)) (t' : Task π) :
    Acts w ((w.updateFrame id change).become i t') i id key t' (change f) where
  tasks := rfl
  frames := rfl
  seeded := rfl
  here := heap_updateFrame_self here
  others _ other := heap_updateFrame_of_ne other
  latest _ _ := rfl
  disk _ _ := rfl
  alloc := alloc.congr rfl rfl rfl rfl rfl rfl

/-- A frame that one task has a job for, no other has. -/
theorem World.Inv.alone (inv : w.Inv empty) (task : w.tasks[i]? = some t) {mine : Job π}
    (mem : mine ∈ t.jobs) {j : Nat} {u : Task π} {job : Job π} (found : w.tasks[j]? = some u)
    (other : j ≠ i) (mem' : job ∈ u.jobs) : job.id ≠ mine.id :=
  fun same => other (inv.apart found task mem' mem same)

theorem World.Inv.frameOk (inv : w.Inv empty) (here : w.pool.heap[id]? = some (key, f))
    (res : w.pool.frames.lookup key = some id) : FrameOk empty (w.latest key) (w.disk key) f := by
  obtain ⟨g, there, ok⟩ := inv.table res
  cases there.symm.trans here
  exact ok

/-- The frame of a job. -/
theorem World.Inv.job (inv : w.Inv empty) (task : w.tasks[i]? = some t) (job : Job π)
    (mem : job ∈ t.jobs) (here : w.pool.heap[job.id]? = some (key, f)) :
    w.pool.frames.lookup key = some job.id ∧ job.Holds (w.latest key) (w.disk key) f ∧
      FrameOk empty (w.latest key) (w.disk key) f := by
  obtain ⟨k, g, there, res, holds⟩ := inv.jobs task mem
  cases there.symm.trans here
  exact ⟨res, holds, inv.frameOk here res⟩

variable {latest disk : Option π}

/-- A job that is not a checkpoint's has the frame marked as being evicted. -/
theorem Job.Holds.reserved_or {job : Job π} (holds : job.Holds latest disk f) :
    f.evicting = true ∨ f.checkpointFlushing = true := by
  cases job with
  | steal => exact .inl holds.1
  | stealWrite | stealFinish => exact .inl holds.1.1
  | reserved => exact .inr holds
  | captured | flushed => exact .inr holds.1
  | marked | recorded | home => exact .inl holds.1

/-- The jobs of a thief. -/
def Job.steals : Job π → Bool
  | .steal _ | .stealWrite _ _ | .stealFinish _ => true
  | _ => false

theorem Job.Holds.stealHolds {job : Job π} (holds : job.Holds latest disk f)
    (steals : job.steals = true) : StealHolds f := by
  cases job with
  | steal => exact holds
  | stealWrite | stealFinish => exact holds.1
  | _ => cases steals

/-- A thief has its frame pinned. -/
theorem pin_of_steals {job : Job π} (mem : job ∈ t.jobs) (steals : job.steals = true) :
    t.pin = some job.id := by
  cases t with
  | steal | stealWrite | stealFinish =>
    simp only [Task.jobs, mem_singleton] at mem
    rw [mem]
    rfl
  | capture | flush | copy =>
    simp only [Task.jobs, List.mem_append, List.mem_map] at mem
    rcases mem with ⟨_, -, rfl⟩ | ⟨_, -, rfl⟩ <;> cases steals
  | settle | finishFiles =>
    simp only [Task.jobs, List.mem_map] at mem
    obtain ⟨_, -, rfl⟩ := mem
    cases steals
  | record | writeHome =>
    simp only [Task.jobs, map_cons, cons_append, mem_cons, mem_append, List.mem_map] at mem
    rcases mem with rfl | ⟨_, -, rfl⟩ | ⟨_, -, rfl⟩ <;> cases steals
  | _ => cases mem

variable {bit : Bool}

/-- Other jobs do not look at pins. -/
theorem Job.Holds.of_pins {job : Job π} {pins : Nat}
    (holds : job.Holds latest disk f) (notSteal : job.steals = false) :
    job.Holds latest disk { f with pinCount := pins, referenceBit := bit } := by
  cases job with
  | steal | stealWrite | stealFinish => cases notSteal
  | reserved | captured | flushed | marked | recorded | home => exact holds

theorem FrameOk.of_pins {pins : Nat} (ok : FrameOk empty latest disk f) :
    FrameOk empty latest disk { f with pinCount := pins, referenceBit := bit } :=
  ⟨ok.data, ok.clean, ok.dirty⟩

variable {access : Access}

/-- A frame that is not being evicted is handed out. -/
theorem World.Inv.handOut (inv : w.Inv empty) (task : w.tasks[i]? = some t)
    (here : w.pool.heap[id]? = some (key, f)) (res : w.pool.frames.lookup key = some id)
    (free : f.evicting = false) (prior : t.pin = none)
    (diff : change f = { f with pinCount := f.pinCount + 1, referenceBit := bit }) :
    ((w.updateFrame id change).become i (.pinned access id)).Inv empty := by
  have ok := inv.frameOk here res
  refine inv.act task here res (acts_updateFrame inv.alloc here _) ?_ ?_ ?_ ?_ nofun .nil ?_ nofun
  · rw [diff]
    exact ok.of_pins
  · rw [diff, prior]
    simp [Task.pin]
  · intro id' other pin
    exact absurd (some.inj pin).symm other
  · intro id' _ pin
    cases prior.symm.trans pin
  intro j u job _ _ _ _ holds
  refine ⟨?_, nofun⟩
  rw [diff]
  refine holds.of_pins (Bool.eq_false_iff.mpr fun steals => ?_)
  exact absurd (free.symm.trans (holds.stealHolds steals).1) nofun

/-- A guard is dropped, or the pin of a steal that has failed. -/
theorem World.Inv.dropPin (inv : w.Inv empty) (task : w.tasks[i]? = some t)
    (pin : t.pin = some id) : ((w.updateFrame id (·.unpin)).become i .finished).Inv empty := by
  obtain ⟨key, f, here, res⟩ := inv.pinned task pin
  have ok := inv.frameOk here res
  have pins := inv.pins here
  have pos : 0 < w.tasks.countP (·.pin == some id) :=
    countP_pos_iff.mpr ⟨t, mem_of_getElem? task, by simpa using pin⟩
  refine inv.act task here res (acts_updateFrame inv.alloc here _) ok.of_pins ?_ nofun ?_ nofun
    .nil ?_ nofun
  · rw [if_pos pin, if_neg (by exact nofun)]
    simp only [Frame.unpin]
    omega
  · intro id' other pin'
    exact absurd (some.inj (pin.symm.trans pin')).symm other
  intro j u job found other mem same holds
  refine ⟨holds.of_pins (Bool.eq_false_iff.mpr fun steals => ?_), nofun⟩
  -- the thief would be the second task that pins the frame
  have two := two_le_countP task found other.symm pin (same ▸ pin_of_steals mem steals)
  have one := (holds.stealHolds steals).2.2
  omega

theorem tasks_set_self (task : w.tasks[i]? = some t) : w.tasks.set i t = w.tasks := by
  obtain ⟨lt, rfl⟩ := List.getElem?_eq_some_iff.mp task
  exact set_getElem_self lt

theorem Alloc.publish (alloc : Alloc w) (resident : w.pool.frames.lookup key ≠ none)
    (latest : ∀ k, k ≠ key → w'.latest k = w.latest k) (disk : w'.disk = w.disk)
    (extent : w'.extent = w.extent) (frames : w'.pool.frames = w.pool.frames)
    (next : w'.pool.nextPageNumByFile = w.pool.nextPageNumByFile)
    (seeds : w'.pool.extentSeeded = w.pool.extentSeeded) : Alloc w' where
  seeded {fileId p} mem used := by
    simp only [PoolState.nextPageNum, next]
    rw [seeds] at mem
    rw [disk, frames] at used
    refine alloc.seeded mem ?_
    by_cases same : (fileId, p) = key
    · exact .inr (.inr (same ▸ resident))
    · rwa [latest _ same] at used
  unseeded {fileId p} notMem used := by
    rw [seeds] at notMem
    rw [frames] at used
    rw [disk]
    refine alloc.unseeded notMem ?_
    by_cases same : (fileId, p) = key
    · exact .inr (same ▸ resident)
    · rwa [latest _ same] at used
  extent stored := by
    rw [disk] at stored
    rw [extent]
    exact alloc.extent stored

variable {data : π}

/-- A writer publishes. -/
theorem World.Inv.publish (inv : w.Inv empty) (task : w.tasks[i]? = some (.writing id))
    (here : w.pool.heap[id]? = some (key, f)) {pos : WalPosition}
    (pub : { f with data }.publishMutation pos = .ok f') :
    Inv empty { w.updateFrame id fun _ => f' with
      latest := update w.latest key (some data) } := by
  obtain ⟨k, g, there, res⟩ := inv.pinned task rfl
  obtain ⟨rfl, rfl⟩ := Prod.mk.inj (some.inj (there.symm.trans here))
  have kept : w.pool.frames.lookup k ≠ none := by
    rw [res]
    nofun
  have acts : Acts w { w.updateFrame id fun _ => f' with
      latest := update w.latest k (some data) } i id k (.writing id) f' :=
    { tasks := (tasks_set_self task).symm
      frames := rfl
      seeded := rfl
      here := heap_updateFrame_self here
      others := fun _ other => heap_updateFrame_of_ne other
      latest := fun _ other => update_of_ne other ..
      disk := fun _ _ => rfl
      alloc := inv.alloc.publish kept (fun _ other => update_of_ne other ..) rfl rfl rfl rfl rfl }
  obtain rfl := Frame.eq_of_publishMutation pub
  refine inv.act task here res acts ?_ rfl (fun _ _ pin => pin) (fun _ _ pin => pin) nofun .nil ?_
    nofun
  · simp only [update_self]
    exact ⟨rfl, nofun, fun _ => ⟨rfl, nofun⟩⟩
  intro j u job found other mem same holds
  refine ⟨?_, nofun⟩
  cases job with
  | steal | stealWrite | stealFinish =>
    have two := two_le_countP task found other.symm rfl (same ▸ pin_of_steals mem rfl)
    have one := (holds.stealHolds rfl).2.2
    have pins := inv.pins here
    omega
  | reserved => exact holds
  | captured | flushed =>
    obtain ⟨reserved, -, flush, state, -⟩ := holds
    refine ⟨reserved, rfl, _, by rw [Frame.publishMeta, state, map_some], ?_⟩
    exact fun none => absurd none (some_ne_none _)
  | marked => exact ⟨holds.1, rfl⟩
  | recorded | home =>
    obtain ⟨evicting, -, flush, state, le, -⟩ := holds
    exact ⟨evicting, rfl, flush, state, Nat.le_succ_of_le le,
      fun same => absurd same (ne_of_gt (Nat.lt_succ_of_le le))⟩

/-! ### Steals -/

/-- A victim has no job. -/
theorem World.Inv.jobless (inv : w.Inv empty) (here : w.pool.heap[id]? = some (key, f))
    (free : f.evicting = false) (idle : f.checkpointFlushing = false) {j : Nat} {u : Task π}
    {job : Job π} (found : w.tasks[j]? = some u) (mem : job ∈ u.jobs) : job.id ≠ id := by
  rintro rfl
  rcases (inv.job found _ mem here).2.1.reserved_or with evicting | flushing
  · cases free.symm.trans evicting
  · cases idle.symm.trans flushing

/-- A frame without a job is reserved for one. -/
theorem World.Inv.reserve (inv : w.Inv empty) (task : w.tasks[i]? = some t)
    (here : w.pool.heap[id]? = some (key, f)) (res : w.pool.frames.lookup key = some id)
    (free : f.evicting = false) (idle : f.checkpointFlushing = false) (new : Job π)
    (at_ : new.id = id) (jobs : t'.jobs = t.jobs ++ [new]) (pin : t'.pin = t.pin)
    (seeded : t'.seeded = none) (ok : FrameOk empty (w.latest key) (w.disk key) (change f))
    (pins : (change f).pinCount = f.pinCount)
    (holds : new.Holds (w.latest key) (w.disk key) (change f)) :
    ((w.updateFrame id change).become i t').Inv empty := by
  refine inv.act task here res (acts_updateFrame inv.alloc here _) ok (by rw [pins, pin])
    (fun _ _ p => pin ▸ p) (fun _ _ p => pin ▸ p) (fun job mem => ?_) ?_
    (fun j u job found _ mem same => absurd same (inv.jobless here free idle found mem))
    fun _ seed => nomatch seeded.symm.trans seed
  · rcases mem_append.mp (jobs ▸ mem) with old | added
    · exact .inl ⟨old, inv.jobless here free idle task old⟩
    · obtain rfl := mem_singleton.mp added
      exact .inr ⟨at_, holds⟩
  rw [jobs, map_append]
  refine (perm_append_singleton ..).nodup_iff.mpr (nodup_cons.mpr ⟨fun mem => ?_, inv.nodup task⟩)
  obtain ⟨job, old, same⟩ := mem_map.mp mem
  exact inv.jobless here free idle task old (same.trans at_)

variable {attempt : Attempt π}

theorem World.Inv.reserveDirty (inv : w.Inv empty)
    (task : w.tasks[i]? = some (.makeRoom attempt)) (here : w.pool.heap[id]? = some (key, f))
    (res : w.pool.frames.lookup key = some id) (unpinned : f.pinCount = 0)
    (free : f.evicting = false) (idle : f.checkpointFlushing = false) (isDirty : f.dirty = true) :
    ((w.updateFrame id fun f => { f with evicting := true }.pin).become i (.steal attempt id)).Inv
      empty := by
  have ok := inv.frameOk here res
  refine inv.act task here res (acts_updateFrame inv.alloc here _) ⟨ok.data, ok.clean, ok.dirty⟩
    ?_ ?_ nofun ?_ (nodup_singleton _) ?_ ?_
  · simp [Task.pin, Frame.pin]
  · intro id' other pin
    exact absurd (some.inj pin).symm other
  · intro job mem
    obtain rfl := mem_singleton.mp mem
    exact .inr ⟨rfl, rfl, isDirty, congrArg (· + 1) unpinned⟩
  · intro j u job found _ mem same
    exact absurd same (inv.jobless here free idle found mem)
  · intro fileId seed
    refine inv.allocating task ?_
    cases attempt <;> exact seed

theorem Alloc.bound (alloc : Alloc w) (res : w.pool.frames.lookup key ≠ none) :
    key.2.toNat + 1 < 2 ^ 32 := by
  obtain ⟨fileId, p⟩ := key
  by_cases seeded : fileId ∈ w.pool.extentSeeded
  · have lt := alloc.seeded seeded (.inr (.inr res))
    have small := (w.pool.nextPageNum fileId).toNat_lt
    simp only
    omega
  have lt := alloc.extent (alloc.unseeded seeded (.inr res))
  have small := (w.extent fileId).toNat_lt
  simp only
  omega

theorem toNat_max (a b : UInt32) : (max a b).toNat = max a.toNat b.toNat := by
  rw [UInt32.max_def]
  split <;> rename_i le <;> rw [UInt32.le_iff_toNat_le] at le <;> omega

theorem toNat_saturatingSucc {p : UInt32} (small : p.toNat + 1 < 2 ^ 32) :
    (PoolState.saturatingSucc p).toNat = p.toNat + 1 := by
  rw [PoolState.saturatingSucc, if_pos small, UInt32.toNat_add]
  exact Nat.mod_eq_of_lt small

/-- A page that is in the pool is written to disk. -/
theorem Alloc.writePage (alloc : Alloc w) (resident : w.pool.frames.lookup key ≠ none) (image : π)
    (t' : Task π) : Alloc ((w.writePage key image).become i t') where
  seeded {fileId p} mem used := by
    refine alloc.seeded mem ?_
    by_cases same : (fileId, p) = key
    · exact .inr (.inr (same ▸ resident))
    · simpa only [World.become, World.writePage, update_of_ne same] using used
  unseeded {fileId p} notMem used := by
    by_cases same : (fileId, p) = key
    · subst same
      simp [World.become, World.writePage]
    · simp only [World.become, World.writePage, update_of_ne same]
      exact alloc.unseeded notMem used
  extent {fileId p} stored := by
    have grows : (w.extent fileId).toNat ≤
        (((w.writePage key image).become i t').extent fileId).toNat := by
      simp only [World.become, World.writePage]
      by_cases same : fileId = key.1
      · subst same
        rw [update_self, toNat_max]
        exact le_max_left ..
      · rw [update_of_ne same]
    by_cases same : (fileId, p) = key
    · subst same
      simp only [World.become, World.writePage, update_self, toNat_max,
        toNat_saturatingSucc (alloc.bound resident)]
      omega
    · simp only [World.become, World.writePage, update_of_ne same] at stored
      exact (alloc.extent stored).trans_le grows

theorem acts_writePage (alloc : Alloc w) (here : w.pool.heap[id]? = some (key, f))
    (resident : w.pool.frames.lookup key = some id) (image : π) (t' : Task π) :
    Acts w ((w.writePage key image).become i t') i id key t' f where
  tasks := rfl
  frames := rfl
  seeded := rfl
  here := here
  others _ _ := rfl
  latest _ _ := rfl
  disk _ other := update_of_ne other ..
  alloc := alloc.writePage (by rw [resident]; nofun) image t'

/-- A task writes the page that it has a job for. -/
theorem World.Inv.writePage (inv : w.Inv empty) (task : w.tasks[i]? = some t) (mine : Job π)
    (mem : mine ∈ t.jobs) (here : w.pool.heap[mine.id]? = some (key, f)) (isDirty : f.dirty = true)
    {image : π} (pin : t'.pin = t.pin) (nodup : (t'.jobs.map Job.id).Nodup)
    (seeded : t'.seeded = t.seeded)
    (jobs : ∀ job ∈ t'.jobs, job ∈ t.jobs ∧ job.id ≠ mine.id ∨
      job.id = mine.id ∧ job.Holds (w.latest key) (some image) f) :
    ((w.writePage key image).become i t').Inv empty := by
  obtain ⟨res, -, ok⟩ := inv.job task _ mem here
  have home : ((w.writePage key image).become i t').disk key = some image := update_self ..
  refine inv.act task here res (acts_writePage inv.alloc here res image t')
    ⟨ok.data, fun clean => absurd (clean.symm.trans isDirty) nofun, ok.dirty⟩ (by rw [pin])
    (fun _ _ p => pin ▸ p) (fun _ _ p => pin ▸ p) ?_ nodup ?_ (fun fileId seed => ?_)
  · rw [home]
    exact jobs
  · intro j u job found other mem' same
    exact absurd same (inv.alone task mem found other mem')
  · exact inv.allocating task (seeded ▸ seed)

theorem World.Inv.stealWrite (inv : w.Inv empty) {image : π}
    (task : w.tasks[i]? = some (.stealWrite attempt id image))
    (here : w.pool.heap[id]? = some (key, f)) :
    ((w.writePage key image).become i (.stealFinish attempt id)).Inv empty := by
  obtain ⟨-, ⟨steals, rfl⟩, ok⟩ := inv.job task (.stealWrite id image) (.head _) here
  refine inv.writePage task (.stealWrite id f.data) (.head _) here steals.2.1 rfl
    (nodup_singleton _) ?_ ?_
  · cases attempt <;> rfl
  intro job mem
  obtain rfl := mem_singleton.mp mem
  exact .inr ⟨rfl, steals, (ok.dirty steals.2.1).1.symm⟩

variable {pool : PoolState π}

theorem World.Inv.stealFinish (inv : w.Inv empty)
    (task : w.tasks[i]? = some (.stealFinish attempt id))
    (here : w.pool.heap[id]? = some (key, f))
    (rem : pool = ((w.updateFrame id (·.unpin)).updateFrame id (·.markClean)).pool.removeFrame key) :
    f.unpin.pinCount = 0 ∧ ((w.withPool pool).become i (.withRoom attempt)).Inv empty := by
  subst rem
  obtain ⟨res, ⟨steals, home⟩, ok⟩ := inv.job task (.stealFinish id) (.head _) here
  have free : f.unpin.pinCount = 0 := by simp [Frame.unpin, steals.2.2]
  have gone : ((w.updateFrame id (·.unpin)).updateFrame id (·.markClean)).pool.heap[id]? =
      some (key, f.unpin.markClean) := heap_updateFrame_self (heap_updateFrame_self here)
  refine ⟨free, inv.remove task here res rfl rfl rfl rfl gone (fun id' other => ?_) rfl rfl rfl
    home ⟨rfl, rfl⟩ free ?_ ?_ ?_ ?_⟩
  · exact (heap_updateFrame_of_ne other).trans (heap_updateFrame_of_ne other)
  · intro id' pin
    exact (some.inj pin).symm
  · intro j u found other pin
    have two := two_le_countP task found other.symm rfl pin
    have pins := inv.pins here
    have one := steals.2.2
    omega
  · intro j u job found other mem
    exact inv.alone task (.head _) found other mem
  · intro fileId seed
    refine inv.allocating task ?_
    cases attempt <;> exact seed

/-- A clean frame is dropped. -/
theorem World.Inv.freeClean (inv : w.Inv empty) (task : w.tasks[i]? = some t) (prior : t.pin = none)
    (here : w.pool.heap[id]? = some (key, f)) (res : w.pool.frames.lookup key = some id)
    (free : f.pinCount = 0) (notFlushing : f.checkpointFlushing = false) (clean : f.dirty = false)
    (idle : t'.pin = none ∧ t'.jobs = [])
    (seeded : ∀ fileId, t'.seeded = some fileId → fileId ∈ w.pool.extentSeeded) :
    ((w.withPool (w.pool.removeFrame key)).become i t').Inv empty := by
  have ok := inv.frameOk here res
  refine inv.remove task here res rfl rfl rfl rfl here (fun _ _ => rfl) rfl rfl rfl (ok.clean clean)
    idle free (fun _ pin => nomatch prior.symm.trans pin) ?_ ?_ seeded
  · intro j u found _ pin
    have none := (inv.pins here).symm.trans free
    exact countP_eq_zero.mp none u (mem_of_getElem? found) (by simpa using pin)
  rintro j u job found - mem rfl
  -- a frame with a job is dirty, or reserved for a checkpoint
  obtain ⟨-, holds, -⟩ := inv.job found job mem here
  have dirty : f.dirty = true := by
    cases job with
    | steal => exact holds.2.1
    | stealWrite | stealFinish => exact holds.1.2.1
    | reserved => cases notFlushing.symm.trans holds
    | captured | flushed | recorded | home => exact holds.2.1
    | marked => exact holds.2
  cases clean.symm.trans dirty

/-! ### Checkpoint batches -/

section Ids

variable (fileIds : List FileId) (ids : List Nat) (images : List (Nat × π)) (image : π)

theorem ids_copy : (Task.copy fileIds ids images).jobs.map Job.id = ids ++ images.map (·.1) := by
  simp [Task.jobs, comp_def]

theorem ids_record : (Task.record fileIds id image ids images).jobs.map Job.id =
    id :: ids ++ images.map (·.1) := by
  simp [Task.jobs, comp_def]

theorem ids_writeHome : (Task.writeHome fileIds id image ids images).jobs.map Job.id =
    id :: ids ++ images.map (·.1) := by
  simp [Task.jobs, comp_def]

end Ids

section First

variable {first last : Job π} {rest : List (Job π)}

/-- The jobs after the first one of a task are at other frames. -/
theorem World.Inv.others (inv : w.Inv empty) (task : w.tasks[i]? = some t)
    (jobs : t.jobs = first :: rest) :
    (rest.map Job.id).Nodup ∧ ∀ job ∈ rest, job ∈ t.jobs ∧ job.id ≠ first.id := by
  have uniq := inv.nodup task
  rw [jobs, map_cons, nodup_cons] at uniq
  refine ⟨uniq.2, fun job mem => ⟨jobs ▸ .tail _ mem, fun same => ?_⟩⟩
  exact uniq.1 (same ▸ mem_map_of_mem mem)

/-- The first job of a task goes on as the last one. -/
theorem World.Inv.moved (inv : w.Inv empty) (task : w.tasks[i]? = some t)
    (jobs : t.jobs = first :: rest) (after : t'.jobs = rest ++ [last]) (same : last.id = first.id) :
    (t'.jobs.map Job.id).Nodup ∧
      ∀ job ∈ t'.jobs, job ∈ t.jobs ∧ job.id ≠ first.id ∨ job = last := by
  constructor
  · have uniq := inv.nodup task
    rw [jobs, map_cons, ← same] at uniq
    rw [after, map_append]
    exact (perm_append_singleton ..).nodup_iff.mpr uniq
  intro job mem
  rcases mem_append.mp (after ▸ mem) with old | new
  · exact .inl ((inv.others task jobs).2 job old)
  · exact .inr (mem_singleton.mp new)

end First

/-- A task that does something to the frame of one of its jobs. -/
theorem World.Inv.work (inv : w.Inv empty) (task : w.tasks[i]? = some t) (mine : Job π)
    (mem : mine ∈ t.jobs) (here : w.pool.heap[mine.id]? = some (key, f))
    (ok : FrameOk empty (w.latest key) (w.disk key) (change f)) (pins : (change f).pinCount = f.pinCount)
    (pin : t'.pin = t.pin) (seeded : t'.seeded = none)
    (jobs : ∀ job ∈ t'.jobs, job ∈ t.jobs ∧ job.id ≠ mine.id ∨
      job.id = mine.id ∧ job.Holds (w.latest key) (w.disk key) (change f))
    (nodup : (t'.jobs.map Job.id).Nodup) :
    ((w.updateFrame mine.id change).become i t').Inv empty := by
  obtain ⟨res, -, -⟩ := inv.job task _ mem here
  refine inv.act task here res (acts_updateFrame inv.alloc here _) ok (by rw [pins, pin])
    (fun _ _ p => pin ▸ p) (fun _ _ p => pin ▸ p) jobs nodup ?_ (fun _ seed => ?_)
  · intro j u job found other mem' same
    exact absurd same (inv.alone task mem found other mem')
  · cases seeded.symm.trans seed

variable {reserved : List Nat}

theorem World.Inv.reserveCandidate (inv : w.Inv empty)
    (task : w.tasks[i]? = some (.capture reserved [])) (k : PageKey) :
    (w.reserveCandidate i reserved k).2.Inv empty ∧ (w.reserveCandidate i reserved k).2.tasks[i]? =
        some (.capture (w.reserveCandidate i reserved k).1 []) := by
  unfold World.reserveCandidate
  split
  · exact ⟨inv, task⟩
  rename_i id res
  split_ifs with busy
  · exact ⟨inv, task⟩
  obtain ⟨f, here, ok⟩ := inv.table res
  simp only [PoolState.frame, here, map_some, any_some, Bool.or_eq_true,
    not_or, Bool.not_eq_true] at busy
  obtain ⟨free, idle⟩ := busy
  obtain ⟨lt, -⟩ := List.getElem?_eq_some_iff.mp task
  exact ⟨inv.reserve task here res free idle (.reserved id) rfl
    (by simp [Task.jobs]) rfl rfl ⟨ok.data, ok.clean, ok.dirty⟩ rfl rfl, List.getElem?_set_self lt⟩

theorem World.Inv.reserveCandidates (inv : w.Inv empty)
    (task : w.tasks[i]? = some (.capture reserved [])) (cands : List PageKey) :
    (reserveCandidates i reserved cands w).Inv empty := by
  induction cands generalizing w reserved with
  | nil => exact inv
  | cons k rest ih =>
    obtain ⟨inv', task'⟩ := inv.reserveCandidate task k
    exact ih inv' task'

/-- A reserved frame that is busy or clean is let go. -/
theorem World.Inv.release (inv : w.Inv empty)
    (task : w.tasks[i]? = some (.capture (id :: reserved) captured)) (here : w.pool.heap[id]? = some (key, f)) :
    ((w.updateFrame id fun f => { f with checkpointFlushing := false }).become i
      (.capture reserved captured)).Inv empty := by
  obtain ⟨-, -, ok⟩ := inv.job task (.reserved id) (.head _) here
  obtain ⟨uniq, others⟩ := inv.others task rfl
  exact inv.work task (.reserved id) (.head _) here ⟨ok.data, ok.clean, ok.dirty⟩ rfl rfl rfl
    (fun job mem => .inl (others job mem)) uniq

theorem World.Inv.capture (inv : w.Inv empty)
    (task : w.tasks[i]? = some (.capture (id :: reserved) captured))
    (here : w.pool.heap[id]? = some (key, f)) (isDirty : f.dirty = true) :
    ∃ g, f.captureCheckpoint = .ok g ∧ ((w.updateFrame id fun _ => g).become i
      (.capture reserved (captured ++ [(id, f.data)]))).Inv empty := by
  obtain ⟨-, flushing, ok⟩ := inv.job task (.reserved id) (.head _) here
  have after : (Task.capture reserved (captured ++ [(id, f.data)])).jobs =
      (Task.capture reserved captured).jobs ++ [.captured id f.data] := by
    simp [Task.jobs]
  obtain ⟨uniq, jobs⟩ := inv.moved task rfl after rfl
  obtain ⟨pageLsn, known⟩ := ne_none_iff_exists'.mp (ok.dirty isDirty).2
  simp only [Frame.captureCheckpoint, known]
  refine ⟨_, rfl, inv.work task (.reserved id) (.head _) here
    ⟨ok.data, ok.clean, fun _ => ⟨(ok.dirty isDirty).1, nofun⟩⟩ rfl rfl rfl ?_ uniq⟩
  intro job mem
  rcases jobs job mem with old | rfl
  · exact .inl old
  · exact .inr ⟨rfl, flushing, isDirty, _, rfl, fun _ => ⟨rfl, rfl, rfl⟩⟩

theorem CheckpointHolds.imp {a b : Prop} (holds : CheckpointHolds f a) (imp : a → b) :
    CheckpointHolds f b := by
  obtain ⟨flushing, dirty, flush, state, same⟩ := holds
  exact ⟨flushing, dirty, flush, state, fun none => ⟨imp (same none).1, (same none).2⟩⟩

theorem BulkHolds.imp {a b : Prop} (holds : BulkHolds f a) (imp : a → b) : BulkHolds f b := by
  obtain ⟨evicting, dirty, flush, state, le, unchanged⟩ := holds
  exact ⟨evicting, dirty, flush, state, le, fun same => imp (unchanged same)⟩

/-- A captured page is written. -/
theorem World.Inv.flush (inv : w.Inv empty) {image : π} {due written : List (Nat × π)}
    (task : w.tasks[i]? = some (.flush ((id, image) :: due) written))
    (here : w.pool.heap[id]? = some (key, f)) :
    ((w.writePage key image).become i (.flush due (written ++ [(id, image)]))).Inv empty := by
  obtain ⟨-, captured, ok⟩ := inv.job task (.captured id image) (.head _) here
  have after : (Task.flush due (written ++ [(id, image)])).jobs =
      (Task.flush due written).jobs ++ [.flushed id] := by
    simp [Task.jobs]
  obtain ⟨uniq, jobs⟩ := inv.moved task rfl after rfl
  refine inv.writePage task (.captured id image) (.head _) here captured.2.1 rfl uniq rfl ?_
  intro job mem
  rcases jobs job mem with old | rfl
  · exact .inl old
  · refine .inr ⟨rfl, captured.imp fun same => ?_⟩
    rw [same, (ok.dirty captured.2.1).1]

/-- A flushed frame is settled: it is clean if nothing was published since its capture. -/
theorem World.Inv.settle (inv : w.Inv empty) {image : π} {todo : List (Nat × π)}
    (task : w.tasks[i]? = some (.settle ((id, image) :: todo) captured))
    (here : w.pool.heap[id]? = some (key, f)) : ∃ g, f.finishCheckpoint = .ok g ∧
      ((w.updateFrame id fun _ => g).become i (.settle todo captured)).Inv empty := by
  obtain ⟨-, ⟨-, isDirty, flush, state, same⟩, ok⟩ := inv.job task (.flushed id) (.head _) here
  obtain ⟨uniq, others⟩ := inv.others task rfl
  have work (g : Frame π) (ok : FrameOk empty (w.latest key) (w.disk key) g)
      (pins : g.pinCount = f.pinCount) :
      ((w.updateFrame id fun _ => g).become i (.settle todo captured)).Inv empty :=
    inv.work task (.flushed id) (.head _) here ok pins rfl rfl
      (fun job mem => .inl (others job mem)) uniq
  simp only [Frame.finishCheckpoint, state]
  split_ifs with clean
  · exact ⟨_, rfl, work _ ⟨ok.data, fun _ => (same clean.2.2).1, nofun⟩ rfl⟩
  cases redirty : flush.firstRedirtyLsn with
  | none => exact absurd ⟨(same redirty).2.1, (same redirty).2.2, redirty⟩ clean
  | some redirtyLsn =>
    exact ⟨_, rfl, work _ ⟨ok.data, fun notDirty => absurd (notDirty.symm.trans isDirty) nofun,
      fun _ => ok.dirty isDirty⟩ rfl⟩

/-! ### File flushes -/

/-- A frame without a job changes in what guards do not see. -/
theorem World.Inv.updateFree (inv : w.Inv empty) (task : w.tasks[i]? = some .finished)
    (here : w.pool.heap[id]? = some (key, f)) (res : w.pool.frames.lookup key = some id)
    (ok : FrameOk empty (w.latest key) (w.disk key) (change f)) (pins : (change f).pinCount = f.pinCount)
    (jobless : ∀ {j : Nat} {u : Task π} {job : Job π}, w.tasks[j]? = some u → job ∈ u.jobs → job.id ≠ id) :
    (w.updateFrame id change).Inv empty := by
  have same : w.updateFrame id change = (w.updateFrame id change).become i .finished := by
    simp [World.become, World.updateFrame, World.withPool, tasks_set_self task]
  rw [same]
  exact inv.act task here res (acts_updateFrame inv.alloc here _) ok (by rw [pins])
    (fun _ _ pin => pin) (fun _ _ pin => pin) nofun .nil
    (fun j u job found _ mem at_ => absurd at_ (jobless found mem)) nofun

theorem updateFrames_eq (ids : List Nat) (w : World π) : w.updateFrames ids change =
    w.withPool (ids.foldl (fun pool id => pool.updateFrame id change) w.pool) := by
  induction ids generalizing w with
  | nil => rfl
  | cons id rest ih => exact ih (w.updateFrame id change)

/-- The reservations of the dirty frames of some files, one after another. -/
theorem World.Inv.reserveFiles (inv : w.Inv empty) {fileIds : List FileId} (done : List Nat)
    (task : w.tasks[i]? = some (.copy fileIds done [])) (ids : List Nat) (uniq : ids.Nodup)
    (free : ∀ id ∈ ids, ∃ key f, w.pool.heap[id]? = some (key, f) ∧
      w.pool.frames.lookup key = some id ∧ f.dirty = true ∧ f.evicting = false ∧
      f.checkpointFlushing = false) :
    ((w.updateFrames ids fun f => { f with evicting := true }).become i
      (.copy fileIds (done ++ ids) [])).Inv empty := by
  obtain ⟨lt, -⟩ := List.getElem?_eq_some_iff.mp task
  induction ids generalizing w done with
  | nil =>
    have same : w.become i (.copy fileIds (done ++ []) []) = w := by
      simp [World.become, tasks_set_self task]
    show (w.become i (.copy fileIds (done ++ []) [])).Inv empty
    rw [same]
    exact inv
  | cons id rest ih =>
    obtain ⟨fresh, uniq⟩ := nodup_cons.mp uniq
    obtain ⟨key, f, here, res, isDirty, notEvicting, idle⟩ := free id (.head _)
    have ok := inv.frameOk here res
    have next : ((w.updateFrame id fun f => { f with evicting := true }).become i
        (.copy fileIds (done ++ [id]) [])).Inv empty :=
      inv.reserve task here res notEvicting idle (.marked id) rfl
        (by simp [Task.jobs]) rfl rfl ⟨ok.data, ok.clean, ok.dirty⟩ rfl ⟨rfl, isDirty⟩
    have rested := ih next (done ++ [id]) (List.getElem?_set_self lt) uniq (fun id' mem => ?_)
      (by simpa [World.become, World.updateFrame, World.withPool] using lt)
    · have same : ((w.updateFrames (id :: rest) fun f => { f with evicting := true }).become i
          (.copy fileIds (done ++ id :: rest) [])) =
          (((w.updateFrame id fun f => { f with evicting := true }).become i
            (.copy fileIds (done ++ [id]) [])).updateFrames rest fun f =>
              { f with evicting := true }).become i (.copy fileIds (done ++ [id] ++ rest) []) := by
        simp [updateFrames_eq, World.become, World.updateFrame, World.withPool]
      exact same ▸ rested
    obtain ⟨key', f', here', facts⟩ := free id' (.tail _ mem)
    have other : id' ≠ id := by
      rintro rfl
      exact fresh mem
    exact ⟨key', f', (heap_updateFrame_of_ne other).trans here', facts⟩

theorem updateFrame_comm (w : World π) (id id' : Nat) :
    (w.updateFrame id change).updateFrame id' change =
      (w.updateFrame id' change).updateFrame id change := by
  by_cases same : id' = id
  · rw [same]
  have heaps : ((w.updateFrame id change).updateFrame id' change).pool.heap =
      ((w.updateFrame id' change).updateFrame id change).pool.heap := by
    refine ext_getElem? fun at_ => ?_
    simp only [World.updateFrame, World.withPool, heap_updateFrame]
    cases w.pool.heap[at_]? with
    | none => rfl
    | some entry =>
      simp only [map_some]
      split_ifs <;> rfl
  simp only [World.updateFrame, World.withPool, PoolState.updateFrame] at heaps ⊢
  rw [heaps]

/-- Frames without jobs change in what guards do not see, and other frames not at all. -/
theorem World.Inv.updateFrames (inv : w.Inv empty) (task : w.tasks[i]? = some .finished)
    (ids : List Nat)
    (free : ∀ id ∈ ids, w.updateFrame id change = w ∨ w.Resident id ∧
      ∀ {j : Nat} {u : Task π} {job : Job π}, w.tasks[j]? = some u → job ∈ u.jobs → job.id ≠ id)
    (harmless : ∀ (latest disk : Option π) (f : Frame π), FrameOk empty latest disk f →
      FrameOk empty latest disk (change f) ∧ (change f).pinCount = f.pinCount) :
    (w.updateFrames ids change).Inv empty := by
  induction ids generalizing w with
  | nil => exact inv
  | cons id rest ih =>
    have later (id' : Nat) (mem : id' ∈ rest) := free id' (.tail _ mem)
    show ((w.updateFrame id change).updateFrames rest change).Inv empty
    rcases free id (.head _) with same | ⟨⟨key, f, here, found⟩, jobless⟩
    · rw [same]
      exact ih inv task later
    obtain ⟨okay, pins⟩ := harmless _ _ f (inv.frameOk here found)
    refine ih (inv.updateFree task here found okay pins jobless) task fun id' mem => ?_
    rcases later id' mem with same | ⟨⟨key', f', here', found'⟩, jobless'⟩
    · rw [updateFrame_comm, same]
      exact .inl rfl
    · refine .inr ⟨?_, jobless'⟩
      by_cases same : id' = id
      · subst same
        exact ⟨key, _, heap_updateFrame_self here, found⟩
      · exact ⟨key', f', (heap_updateFrame_of_ne same).trans here', found'⟩

/-- A task ends and changes frames that it had jobs for. -/
theorem World.Inv.giveUp (inv : w.Inv empty) (task : w.tasks[i]? = some t) (pin : t.pin = none)
    {ids : List Nat} (free : ∀ id ∈ ids, w.updateFrame id change = w ∨ id ∈ t.jobs.map Job.id)
    (harmless : ∀ (latest disk : Option π) (f : Frame π), FrameOk empty latest disk f →
      FrameOk empty latest disk (change f) ∧ (change f).pinCount = f.pinCount) :
    ((w.updateFrames ids change).become i .finished).Inv empty := by
  obtain ⟨lt, -⟩ := List.getElem?_eq_some_iff.mp task
  have done : (w.become i .finished).Inv empty := inv.become task pin.symm nofun .nil nofun
  have same : (w.updateFrames ids change).become i .finished =
      (w.become i .finished).updateFrames ids change := by
    simp [updateFrames_eq, World.become, World.withPool]
  rw [same]
  refine done.updateFrames (List.getElem?_set_self lt) _ (fun id mem => ?_) harmless
  rcases free id mem with same | mine
  · exact .inl (congrArg (World.become · i .finished) same)
  obtain ⟨job, listed, rfl⟩ := mem_map.mp mine
  obtain ⟨key, f, here, res, -⟩ := inv.jobs task listed
  refine .inr ⟨⟨key, f, here, res⟩, fun {j u job'} found mem' => ?_⟩
  rcases getElem?_set_cases found with ⟨rfl, rfl⟩ | ⟨other, found⟩
  · cases mem'
  · exact inv.alone task listed found other mem'

theorem FrameOk.clearBulk (latest disk : Option π) (f : Frame π)
    (ok : FrameOk empty latest disk f) :
    FrameOk empty latest disk f.clearBulk ∧ f.clearBulk.pinCount = f.pinCount :=
  ⟨⟨ok.data, ok.clean, ok.dirty⟩, rfl⟩

theorem FrameOk.clearCheckpoint (latest disk : Option π) (f : Frame π)
    (ok : FrameOk empty latest disk f) :
    FrameOk empty latest disk f.clearCheckpoint ∧ f.clearCheckpoint.pinCount = f.pinCount :=
  ⟨⟨ok.data, ok.clean, ok.dirty⟩, rfl⟩

/-! ### Failures -/

theorem leavePage_frame (w : World π) (key : PageKey) (left : Option π) :
    (w.leavePage key left).tasks = w.tasks ∧ (w.leavePage key left).pool = w.pool := by
  cases left <;> exact ⟨rfl, rfl⟩

/-- A write that fails changes the page on disk only, and the frame stays dirty. -/
theorem World.Inv.leavePage (inv : w.Inv empty) (task : w.tasks[i]? = some t) (mine : Job π)
    (mem : mine ∈ t.jobs) (here : w.pool.heap[mine.id]? = some (key, f)) (isDirty : f.dirty = true)
    (blind : ∀ disk, mine.Holds (w.latest key) disk f) (left : Option π) :
    (w.leavePage key left).Inv empty := by
  cases left with
  | none => exact inv
  | some bytes =>
    have same : (w.writePage key bytes).become i t = w.writePage key bytes := by
      have tasks := tasks_set_self task
      simp only [World.become, World.writePage, tasks]
    show (w.writePage key bytes).Inv empty
    rw [← same]
    refine inv.writePage task mine mem here isDirty rfl (inv.nodup task) rfl fun job listed => ?_
    by_cases at_ : job.id = mine.id
    · cases inj_on_of_nodup_map (inv.nodup task) listed mem at_
      exact .inr ⟨rfl, blind _⟩
    · exact .inl ⟨listed, at_⟩

/-- A steal that fails makes its victim usable again. -/
theorem World.Inv.stealAbort (inv : w.Inv empty) (task : w.tasks[i]? = some t)
    (pin : t.pin = some id) (mine : Job π) (mem : mine ∈ t.jobs) (same : mine.id = id) :
    ((w.updateFrame id fun f => { f with evicting := false }).become i (.stealAbort id)).Inv
      empty := by
  subst same
  obtain ⟨key, f, here, res, -⟩ := inv.jobs task mem
  have ok := inv.frameOk here res
  refine inv.act task here res (acts_updateFrame inv.alloc here _) ⟨ok.data, ok.clean, ok.dirty⟩
    (by rw [pin]; rfl) ?_ ?_ nofun .nil ?_ nofun
  · intro id' _ pin'
    exact pin.trans pin'
  · intro id' _ pin'
    exact pin.symm.trans pin'
  · intro j u job found other mem' at_
    exact absurd at_ (inv.alone task mem found other mem')

variable {written : List (Nat × π)}

theorem World.Inv.record (inv : w.Inv empty) {fileIds : List FileId} {image : π} {todo : List Nat}
    (task : w.tasks[i]? = some (.record fileIds id image todo written))
    (here : w.pool.heap[id]? = some (key, f)) (now : f.data = image) :
    ((w.updateFrame id (·.captureBulk)).become i (.writeHome fileIds id image todo written)).Inv
      empty := by
  obtain ⟨-, ⟨evicting, isDirty⟩, ok⟩ := inv.job task (.marked id) (.head _) here
  obtain ⟨-, others⟩ := inv.others task rfl
  refine inv.work task (.marked id) (.head _) here ⟨ok.data, ok.clean, ok.dirty⟩ rfl rfl rfl ?_ ?_
  · intro job mem
    rcases mem with _ | ⟨_, old⟩
    · exact .inr ⟨rfl, evicting, isDirty, _, rfl, le_rfl, fun _ => now.symm⟩
    · exact .inl (others job old)
  · rw [ids_writeHome]
    exact ids_record .. ▸ inv.nodup task

theorem World.Inv.writeHome (inv : w.Inv empty) {fileIds : List FileId} {image : π}
    {todo : List Nat} (task : w.tasks[i]? = some (.writeHome fileIds id image todo written))
    (here : w.pool.heap[id]? = some (key, f)) :
    ((w.writePage key image).become i (.copy fileIds todo (written ++ [(id, image)]))).Inv empty := by
  obtain ⟨-, noted, ok⟩ := inv.job task (.recorded id image) (.head _) here
  have after : (Task.copy fileIds todo (written ++ [(id, image)])).jobs =
      (Task.copy fileIds todo written).jobs ++ [.home id] := by
    simp [Task.jobs]
  obtain ⟨uniq, jobs⟩ := inv.moved task rfl after rfl
  refine inv.writePage task (.recorded id image) (.head _) here noted.2.1 rfl uniq rfl ?_
  intro job mem
  rcases jobs job mem with old | rfl
  · exact .inl old
  · refine .inr ⟨rfl, noted.imp fun same => ?_⟩
    rw [same, (ok.dirty noted.2.1).1]

theorem updateFrame_self (here : w.pool.heap[id]? = some (key, f)) (fixed : change f = f) :
    w.updateFrame id change = w := by
  have same : (w.pool.updateFrame id change).heap = w.pool.heap := by
    refine ext_getElem? fun id' => ?_
    by_cases at_ : id' = id
    · rw [at_, heap_updateFrame_self here, here, fixed]
    · exact heap_updateFrame_of_ne at_
  simp only [PoolState.updateFrame] at same
  simp [updateFrame, withPool, PoolState.updateFrame, same]

theorem finishFiles_become (fileIds : List FileId) (ents : List (Sigma fun _ : PageKey => Nat))
    (w : World π) (t' : Task π) : (finishFiles fileIds ents w).become i t' =
      finishFiles fileIds ents (w.become i t') := by
  induction ents generalizing w with
  | nil => rfl
  | cons entry rest ih =>
    obtain ⟨key, id⟩ := entry
    simp only [finishFiles, become]
    split
    · cases w.pool.frame id with
      | none => rfl
      | some f =>
        simp only
        cases f.finishBulkFlush with
        | error => rfl
        | ok g => exact ih _
    · exact ih w

/-- A frame that a file flush may mark clean once its page is written. -/
def Finishable (w : World π) (key : PageKey) (id : Nat) : Prop :=
  w.pool.frames.lookup key = some id ∧ ∀ f flush, w.pool.heap[id]? = some (key, f) →
    f.dirtyMeta.bulkFlush = some flush →
      (f.dirtyMeta.generation = flush.capturedGeneration → w.disk key = w.latest key) ∧
      ∀ {j : Nat} {u : Task π} {job : Job π}, w.tasks[j]? = some u → job ∈ u.jobs → job.id ≠ id

theorem World.Inv.finishFile (inv : w.Inv empty) (task : w.tasks[i]? = some .finished)
    (here : w.pool.heap[id]? = some (key, f)) (finishable : Finishable w key id)
    (fin : f.finishBulkFlush = .ok f') : (w.updateFrame id fun _ => f').Inv empty := by
  obtain ⟨res, facts⟩ := finishable
  have ok := inv.frameOk here res
  simp only [Frame.finishBulkFlush] at fin
  split at fin
  · cases fin
  split at fin
  · cases fin
    rw [updateFrame_self here rfl]
    exact inv
  rename_i flush noted
  obtain ⟨home, jobless⟩ := facts f flush here noted
  split at fin
  · rename_i same
    cases fin
    exact inv.updateFree task here res ⟨ok.data, fun _ => home same.1, nofun⟩ rfl jobless
  · cases fin
    exact inv.updateFree task here res ⟨ok.data, ok.clean, ok.dirty⟩ rfl jobless

theorem World.Inv.finishEntries (inv : w.Inv empty) (task : w.tasks[i]? = some .finished)
    {fileIds : List FileId} (ents : List (Sigma fun _ : PageKey => Nat)) (nodup : ents.NodupKeys)
    (finishable : ∀ e ∈ ents, e.1.1 ∈ fileIds → Finishable w e.1 e.2) :
    (finishFiles fileIds ents w).Inv empty := by
  induction ents generalizing w with
  | nil => exact inv
  | cons entry rest ih =>
    obtain ⟨key, id⟩ := entry
    obtain ⟨notMem, nodup⟩ := nodupKeys_cons.mp nodup
    unfold finishFiles
    split_ifs with mem
    · have mine := finishable _ (.head _) mem
      obtain ⟨f, here, -⟩ := inv.table mine.1
      simp only [PoolState.frame, here, map_some]
      cases done : f.finishBulkFlush with
      | error => exact inv
      | ok g =>
        refine ih (inv.finishFile task here mine done) task nodup fun e later inFile => ?_
        obtain ⟨res, facts⟩ := finishable e (.tail _ later) inFile
        have other : e.2 ≠ id := by
          rintro same
          obtain ⟨_, there, -⟩ := inv.table res
          rw [same, here] at there
          obtain ⟨sameKey, -⟩ := Prod.mk.inj (some.inj there)
          exact notMem (sameKey ▸ mem_keys_of_mem later)
        refine ⟨res, fun f' flush there noted => facts f' flush ?_ noted⟩
        exact (heap_updateFrame_of_ne other).symm.trans there
    · exact ih inv task nodup fun e later => finishable e (.tail _ later)

theorem World.Inv.finishFiles (inv : w.Inv empty) {fileIds : List FileId}
    (task : w.tasks[i]? = some (.finishFiles fileIds written))
    (own : ∀ e ∈ w.pool.frames.entries, e.1.1 ∈ fileIds →
      (∃ f, w.pool.frame e.2 = some f ∧ f.dirtyMeta.bulkFlush ≠ none) → e.2 ∈ written.map (·.1)) :
    ((finishFiles fileIds w.pool.frames.entries w).become i .finished).Inv empty := by
  obtain ⟨lt, -⟩ := List.getElem?_eq_some_iff.mp task
  have done : (w.become i .finished).Inv empty := inv.become task rfl nofun .nil nofun
  rw [finishFiles_become]
  refine done.finishEntries (List.getElem?_set_self lt) _
    w.pool.frames.nodupKeys fun e mem inFile => ?_
  obtain ⟨key, id⟩ := e
  refine ⟨AList.mem_lookup_iff.mpr mem, fun f flush here noted => ?_⟩
  have mine : id ∈ written.map (·.1) := by
    refine own _ mem inFile ⟨f, ?_, by rw [noted]; nofun⟩
    exact congrArg (Option.map Prod.snd) here
  obtain ⟨image, listed, rfl⟩ := mem_map.mp mine
  have job : .home image.1 ∈ (Task.finishFiles fileIds written).jobs :=
    mem_map.mpr ⟨image, listed, rfl⟩
  obtain ⟨-, holds, -⟩ := inv.job task _ job here
  obtain ⟨-, -, flush', noted', -, home⟩ := holds
  cases noted.symm.trans noted'
  refine ⟨home, fun {j u job'} found mem' => ?_⟩
  rcases getElem?_set_cases found with ⟨rfl, rfl⟩ | ⟨other, found⟩
  · cases mem'
  · exact inv.alone task job found other mem'

/-! ### Page numbers -/

theorem nextPageNum_ensure (pool : PoolState π) (fileId fileId' : FileId) (next : UInt32) :
    (pool.ensureNextPageAtLeast fileId next).nextPageNum fileId' =
      if fileId' = fileId then max (pool.nextPageNum fileId) next else pool.nextPageNum fileId' := by
  simp only [PoolState.nextPageNum, PoolState.ensureNextPageAtLeast]
  split
  · rename_i same
    rw [same, AList.lookup_insert]
    rfl
  · rename_i other
    rw [AList.lookup_insert_ne other]

theorem le_nextPageNum_ensure (pool : PoolState π) (fileId fileId' : FileId) (next : UInt32) :
    (pool.nextPageNum fileId').toNat ≤
      ((pool.ensureNextPageAtLeast fileId next).nextPageNum fileId').toNat := by
  rw [nextPageNum_ensure]
  split
  · rename_i same
    rw [same, toNat_max]
    exact le_max_left ..
  · exact le_rfl

/-- More is known about page numbers. -/
theorem World.Inv.reseed (inv : w.Inv empty) (heap : pool.heap = w.pool.heap)
    (frames : pool.frames = w.pool.frames) (seeds : ∀ fileId ∈ w.pool.extentSeeded, fileId ∈ pool.extentSeeded)
    (alloc : Alloc (w.withPool pool)) : (w.withPool pool).Inv empty where
  table := by
    simp only [withPool, heap, frames]
    exact inv.table
  absent := by
    simp only [withPool, frames]
    exact inv.absent
  pins := by
    simp only [withPool, heap]
    exact inv.pins
  pinned := by
    simp only [withPool, heap, frames]
    exact inv.pinned
  jobs := by
    simp only [withPool, heap, frames]
    exact inv.jobs
  nodup := inv.nodup
  apart := inv.apart
  allocating found seed := seeds _ (inv.allocating found seed)
  alloc := alloc

theorem World.Inv.seed (inv : w.Inv empty) {fileId : FileId} (task : w.tasks[i]? = some (.seed fileId)) :
    ((w.withPool (w.pool.ensureExtentSeeded fileId (w.extent fileId))).become i
      (.withRoom (.allocate fileId))).Inv empty := by
  unfold PoolState.ensureExtentSeeded
  split_ifs with done
  · refine inv.become task rfl nofun .nil fun _ seed => ?_
    cases seed
    exact done
  have seeded : Inv empty (w.withPool ({ w.pool with
      extentSeeded := fileId :: w.pool.extentSeeded }.ensureNextPageAtLeast fileId (w.extent fileId))) := by
    refine inv.reseed rfl rfl (fun _ mem => .tail _ mem) ⟨fun {fileId' p} mem used => ?_,
      fun {fileId' p} notMem used => ?_, inv.alloc.extent⟩
    · simp only [withPool] at used ⊢
      by_cases same : fileId' = fileId
      · subst same
        have kept : w.disk (fileId', p) ≠ none := by
          rcases used with known | kept | res
          · exact inv.alloc.unseeded done (.inl known)
          · exact kept
          · exact inv.alloc.unseeded done (.inr res)
        rw [nextPageNum_ensure, if_pos rfl, toNat_max]
        exact (inv.alloc.extent kept).trans_le (le_max_right ..)
      · rw [nextPageNum_ensure, if_neg same]
        exact inv.alloc.seeded ((mem_cons.mp mem).resolve_left same) used
    · exact inv.alloc.unseeded (fun mem => notMem (.tail _ mem)) used
  refine seeded.become task rfl nofun .nil fun _ seed => ?_
  cases seed
  exact .head _

/-- The allocation invariant when a page enters the pool. -/
theorem Alloc.insert (alloc : Alloc w) (frames : pool.frames = w.pool.frames.insert key id)
    (seeds : pool.extentSeeded = w.pool.extentSeeded)
    (next : pool.nextPageNumByFile = (w.pool.ensureNextPageAtLeast key.1
      (PoolState.saturatingSucc key.2)).nextPageNumByFile)
    (small : key.2.toNat + 1 < 2 ^ 32) (kept : key.1 ∉ w.pool.extentSeeded → w.disk key ≠ none)
    {tasks : List (Task π)} : Alloc { w with pool, tasks } := by
  have nextNum (fileId : FileId) : pool.nextPageNum fileId = (w.pool.ensureNextPageAtLeast key.1
      (PoolState.saturatingSucc key.2)).nextPageNum fileId := by
    simp [PoolState.nextPageNum, next]
  refine ⟨fun {fileId p} mem used => ?_, fun {fileId p} notMem used => ?_, alloc.extent⟩
  · simp only [nextNum]
    by_cases same : (fileId, p) = key
    · subst same
      rw [nextPageNum_ensure, if_pos rfl, toNat_max, toNat_saturatingSucc small]
      exact (Nat.lt_succ_self _).trans_le (le_max_right ..)
    · simp only [frames, AList.lookup_insert_ne same, seeds] at used mem
      exact (alloc.seeded mem used).trans_le (le_nextPageNum_ensure ..)
  simp only [seeds] at notMem
  by_cases same : (fileId, p) = key
  · subst same
    exact kept notMem
  · simp only [frames, AList.lookup_insert_ne same] at used
    exact alloc.unseeded notMem used

theorem heap_insertFrame_pin (pool : PoolState π) (key : PageKey) (f : Frame π) :
    ((pool.insertFrame key f).updateFrame pool.heap.length (·.pin)).heap = pool.heap ++ [(key, f.pin)] := by
  refine ext_getElem? fun id => ?_
  rcases lt_trichotomy id pool.heap.length with less | rfl | more
  · rw [heap_updateFrame_of_ne less.ne, getElem?_append_left less]
    exact getElem?_append_left less
  · rw [getElem?_concat_length]
    exact heap_updateFrame_self getElem?_concat_length
  have beyond (k : PageKey) (g : Frame π) : (pool.heap ++ [(k, g)])[id]? = none :=
    getElem?_eq_none (by rw [length_append, length_singleton]; exact more)
  rw [heap_updateFrame_of_ne more.ne', beyond]
  exact beyond key f

/-- A page that was not in the pool is handed out. -/
theorem World.Inv.insertFrame (inv : w.Inv empty) (task : w.tasks[i]? = some t) (prior : t.pin = none)
    (gone : w.pool.frames.lookup key = none) {needsFpi : Bool}
    (content : data = (w.latest key).getD empty) (small : key.2.toNat + 1 < 2 ^ 32)
    (kept : key.1 ∉ w.pool.extentSeeded → w.disk key ≠ none) :
    (((w.withPool ((w.pool.insertFrame key (.new data false needsFpi)).advanceNextPageNum key.1
      key.2)).updateFrame w.pool.heap.length (·.pin)).become i
        (.pinned access w.pool.heap.length)).Inv empty := by
  refine inv.insert task gone rfl rfl rfl (heap_insertFrame_pin ..) rfl rfl ?_ ?_ rfl prior rfl rfl rfl
  · refine inv.alloc.insert (?_ : _ = w.pool.frames.insert key w.pool.heap.length) ?_ ?_ small kept <;>
      rfl
  · exact ⟨content, fun _ => inv.absent gone, nofun⟩

theorem World.Inv.insertLoaded (inv : w.Inv empty)
    (task : w.tasks[i]? = some (.withRoom (.insert access key data)))
    (gone : w.pool.frames.lookup key = none) (now : w.disk key = some data) :
    (((w.withPool ((w.pool.insertFrame key (.new data false true)).advanceNextPageNum key.1
      key.2)).updateFrame w.pool.heap.length (·.pin)).become i
        (.pinned access w.pool.heap.length)).Inv empty := by
  have small : key.2.toNat + 1 < 2 ^ 32 := by
    have lt : key.2.toNat < (w.extent key.1).toNat := inv.alloc.extent (by rw [now]; nofun)
    have top := (w.extent key.1).toNat_lt
    omega
  refine inv.insertFrame task rfl gone ?_ small fun _ => by rw [now]; nofun
  rw [← inv.absent gone, now, getD_some]

/-- A new page is none that was ever published or written. -/
theorem World.Inv.insertFresh (inv : w.Inv empty) {fileId : FileId}
    (task : w.tasks[i]? = some (.withRoom (.allocate fileId)))
    (small : (w.pool.nextPageNum fileId).toNat + 1 < 2 ^ 32) :
    w.pool.frames.lookup (fileId, w.pool.nextPageNum fileId) = none ∧
    (((w.withPool ((w.pool.insertFrame (fileId, w.pool.nextPageNum fileId)
      (.new empty false false)).advanceNextPageNum fileId (w.pool.nextPageNum fileId))).updateFrame
        w.pool.heap.length (·.pin)).become i (.pinned .write w.pool.heap.length)).Inv empty := by
  have seeded := inv.allocating task rfl
  have unused {a : Prop} (used : a → w.latest (fileId, w.pool.nextPageNum fileId) ≠ none ∨
      w.disk (fileId, w.pool.nextPageNum fileId) ≠ none ∨
      w.pool.frames.lookup (fileId, w.pool.nextPageNum fileId) ≠ none) : ¬a := fun holds =>
    absurd (inv.alloc.seeded seeded (used holds)) (lt_irrefl _)
  have gone := not_not.mp (unused fun used => .inr (.inr used))
  refine ⟨gone, inv.insertFrame task rfl gone ?_ small fun notSeeded => absurd seeded notSeeded⟩
  rw [not_not.mp (unused fun used => .inl used), getD_none]

end Steps

end Saguaro.Buffer
