/-
The buffer pool as a page map: what every task may rely on.

`Job` lists what a flushing task has under way for a frame and `Job.Holds` says what this
means; a frame has at most one job. From this and from what holds of the frames in the
page table, no guard sees anything but the latest published content of its page.
-/

import Saguaro.Buffer.Threads

namespace Saguaro.Buffer

open List

open Wal (WalPosition)

variable {π : Type}

/-! ### Pins and jobs -/

/-- The frame that a task has pinned. -/
def Task.pin : Task π → Option Nat
  | .pinned _ id | .reading id | .writing id | .steal _ id | .stealWrite _ id _
  | .stealFinish _ id | .stealAbort id => some id
  | _ => none

inductive Job (π : Type) where
  | steal (id : Nat)
  | stealWrite (id : Nat) (image : π)
  | stealFinish (id : Nat)
  | reserved (id : Nat)
  | captured (id : Nat) (image : π)
  | flushed (id : Nat)
  | marked (id : Nat)
  | recorded (id : Nat) (image : π)
  | home (id : Nat)

@[simp] def Job.id : Job π → Nat
  | .steal id | .stealWrite id _ | .stealFinish id | .reserved id | .captured id _ | .flushed id
  | .marked id | .recorded id _ | .home id => id

def Task.jobs : Task π → List (Job π)
  | .steal _ id => [.steal id]
  | .stealWrite _ id image => [.stealWrite id image]
  | .stealFinish _ id => [.stealFinish id]
  | .capture reserved captured => reserved.map .reserved ++ captured.map fun c => .captured c.1 c.2
  | .flush pending written => (pending.map fun c => .captured c.1 c.2) ++ written.map (.flushed ·.1)
  | .settle todo _ => todo.map (.flushed ·.1)
  | .copy _ todo written => todo.map .marked ++ written.map (.home ·.1)
  | .record _ id _ todo written => (id :: todo).map .marked ++ written.map (.home ·.1)
  | .writeHome _ id image todo written =>
    .recorded id image :: (todo.map .marked ++ written.map (.home ·.1))
  | .finishFiles _ written => written.map (.home ·.1)
  | _ => []

/-- The file whose allocation counter the task has seeded. -/
def Task.seeded : Task π → Option FileId
  | .withRoom (.allocate fileId) | .makeRoom (.allocate fileId) | .steal (.allocate fileId) _
  | .stealWrite (.allocate fileId) _ _ | .stealFinish (.allocate fileId) _ => some fileId
  | _ => none

/-- The frame is reserved for a checkpoint, whose image is that of the frame if nothing has
been published since. -/
def CheckpointHolds (f : Frame π) (unchanged : Prop) : Prop :=
  f.checkpointFlushing = true ∧ f.dirty = true ∧ ∃ flush, f.dirtyMeta.checkpointFlush = some flush ∧
    (flush.firstRedirtyLsn = none → unchanged ∧ f.dirtyMeta.generation = flush.capturedGeneration ∧
      f.dirtyMeta.latestPageLsn = some flush.capturedPageLsn)

/-- The same for a file flush. -/
def BulkHolds (f : Frame π) (unchanged : Prop) : Prop :=
  f.evicting = true ∧ f.dirty = true ∧ ∃ flush, f.dirtyMeta.bulkFlush = some flush ∧
    flush.capturedGeneration ≤ f.dirtyMeta.generation ∧
    (f.dirtyMeta.generation = flush.capturedGeneration → unchanged)

def StealHolds (f : Frame π) : Prop := f.evicting = true ∧ f.dirty = true ∧ f.pinCount = 1

/-- What a job means for its frame, given the latest content of the page and the disk's. -/
def Job.Holds (latest disk : Option π) (f : Frame π) : Job π → Prop
  | .steal _ => StealHolds f
  | .stealWrite _ image => StealHolds f ∧ image = f.data
  | .stealFinish _ => StealHolds f ∧ disk = latest
  | .reserved _ => f.checkpointFlushing = true
  | .captured _ image => CheckpointHolds f (image = f.data)
  | .flushed _ => CheckpointHolds f (disk = latest)
  | .marked _ => f.evicting = true ∧ f.dirty = true
  | .recorded _ image => BulkHolds f (image = f.data)
  | .home _ => BulkHolds f (disk = latest)

/-! ### The invariant -/

/-- A frame in the page table. -/
structure FrameOk (empty : π) (latest disk : Option π) (f : Frame π) : Prop where
  data : f.data = latest.getD empty
  clean : f.dirty = false → disk = latest
  dirty : f.dirty = true → latest = some f.data ∧ f.dirtyMeta.latestPageLsn ≠ none

/-- Page numbers: a new page is none that exists. -/
structure Alloc (w : World π) : Prop where
  seeded : ∀ {fileId p}, fileId ∈ w.pool.extentSeeded → (w.latest (fileId, p) ≠ none ∨
    w.disk (fileId, p) ≠ none ∨ w.pool.frames.lookup (fileId, p) ≠ none) →
    p.toNat < (w.pool.nextPageNum fileId).toNat
  unseeded : ∀ {fileId p}, fileId ∉ w.pool.extentSeeded → (w.latest (fileId, p) ≠ none ∨
    w.pool.frames.lookup (fileId, p) ≠ none) → w.disk (fileId, p) ≠ none
  extent : ∀ {fileId p}, w.disk (fileId, p) ≠ none → p.toNat < (w.extent fileId).toNat

structure World.Inv (empty : π) (w : World π) : Prop where
  table : ∀ {key id}, w.pool.frames.lookup key = some id →
    ∃ f, w.pool.heap[id]? = some (key, f) ∧ FrameOk empty (w.latest key) (w.disk key) f
  absent : ∀ {key}, w.pool.frames.lookup key = none → w.disk key = w.latest key
  pins : ∀ {id : Nat} {key : PageKey} {f : Frame π}, w.pool.heap[id]? = some (key, f) →
    f.pinCount = w.tasks.countP (·.pin == some id)
  pinned : ∀ {i : Nat} {t : Task π} {id : Nat}, w.tasks[i]? = some t → t.pin = some id →
    ∃ key f, w.pool.heap[id]? = some (key, f) ∧ w.pool.frames.lookup key = some id
  jobs : ∀ {i : Nat} {t : Task π} {job : Job π}, w.tasks[i]? = some t → job ∈ t.jobs → ∃ key f,
    w.pool.heap[job.id]? = some (key, f) ∧ w.pool.frames.lookup key = some job.id ∧
      job.Holds (w.latest key) (w.disk key) f
  nodup : ∀ {i : Nat} {t : Task π}, w.tasks[i]? = some t → (t.jobs.map Job.id).Nodup
  apart : ∀ {i j : Nat} {t u : Task π} {job job' : Job π}, w.tasks[i]? = some t →
    w.tasks[j]? = some u → job ∈ t.jobs → job' ∈ u.jobs → job.id = job'.id → i = j
  allocating : ∀ {i : Nat} {t : Task π} {fileId : FileId}, w.tasks[i]? = some t → t.seeded = some fileId →
    fileId ∈ w.pool.extentSeeded
  alloc : Alloc w

section Act

variable {empty : π} {w w' : World π} {i id : Nat} {t t' : Task π} {key : PageKey} {f f' : Frame π}

theorem key_ne_of_id_ne {id' : Nat} {key' : PageKey} (res : w.pool.frames.lookup key = some id)
    (res' : w.pool.frames.lookup key' = some id') (other : id' ≠ id) : key' ≠ key := by
  rintro rfl
  exact other (Option.some.inj (res'.symm.trans res))

/-- The pins of a frame when one task changes. -/
theorem countP_set_pin (task : w.tasks[i]? = some t) (t' : Task π) (id : Nat) :
    (w.tasks.set i t').countP (·.pin == some id) + (if t.pin = some id then 1 else 0) =
      w.tasks.countP (·.pin == some id) + if t'.pin = some id then 1 else 0 := by
  obtain ⟨lt, rfl⟩ := List.getElem?_eq_some_iff.mp task
  have one : (if (w.tasks[i].pin == some id) = true then 1 else 0) ≤
      w.tasks.countP (·.pin == some id) := by
    split
    · rename_i pinned
      exact countP_pos_iff.mpr ⟨_, getElem_mem lt, pinned⟩
    · exact Nat.zero_le _
  rw [countP_set lt]
  simp only [beq_iff_eq] at one ⊢
  omega

/-- Two tasks that pin a frame. -/
theorem two_le_countP {j : Nat} {u : Task π} (task : w.tasks[i]? = some t)
    (task' : w.tasks[j]? = some u) (other : i ≠ j) (pin : t.pin = some id) (pin' : u.pin = some id) :
    2 ≤ w.tasks.countP (·.pin == some id) := by
  have after := countP_set_pin task .finished id
  have left : (w.tasks.set i .finished)[j]? = some u := by
    rw [getElem?_set_ne other]
    exact task'
  have still : 0 < (w.tasks.set i .finished).countP (·.pin == some id) :=
    countP_pos_iff.mpr ⟨u, mem_of_getElem? left, by simpa using pin'⟩
  rw [if_pos pin, if_neg (by exact nofun)] at after
  omega

theorem getElem?_set_cases {j : Nat} {u : Task π} (found : (w.tasks.set i t')[j]? = some u) :
    j = i ∧ u = t' ∨ j ≠ i ∧ w.tasks[j]? = some u := by
  by_cases same : j = i
  · subst same
    obtain ⟨lt, rfl⟩ := List.getElem?_eq_some_iff.mp found
    exact .inl ⟨rfl, getElem_set_self _⟩
  · rw [List.getElem?_set_ne (Ne.symm same)] at found
    exact .inr ⟨same, found⟩

/-- The frame is in the page table. -/
def World.Resident (w : World π) (id : Nat) : Prop :=
  ∃ key f, w.pool.heap[id]? = some (key, f) ∧ w.pool.frames.lookup key = some id

/-- What the invariant says of one task. -/
structure TaskOk (w : World π) (t : Task π) : Prop where
  pinned : ∀ {id}, t.pin = some id → w.Resident id
  jobs : ∀ {job}, job ∈ t.jobs → ∃ key f, w.pool.heap[job.id]? = some (key, f) ∧
    w.pool.frames.lookup key = some job.id ∧ job.Holds (w.latest key) (w.disk key) f
  nodup : (t.jobs.map Job.id).Nodup
  allocating : ∀ {fileId}, t.seeded = some fileId → fileId ∈ w.pool.extentSeeded

/-- One task changes. -/
theorem World.Inv.next (inv : w.Inv empty) (tasks : w'.tasks = w.tasks.set i t')
    (table : ∀ {key id}, w'.pool.frames.lookup key = some id →
      ∃ f, w'.pool.heap[id]? = some (key, f) ∧ FrameOk empty (w'.latest key) (w'.disk key) f)
    (gone : ∀ {key}, w'.pool.frames.lookup key = none → w'.disk key = w'.latest key)
    (pins : ∀ {id key f}, w'.pool.heap[id]? = some (key, f) →
      f.pinCount = (w.tasks.set i t').countP (·.pin == some id))
    (mine : TaskOk w' t') (theirs : ∀ {j u}, w.tasks[j]? = some u → j ≠ i → TaskOk w' u)
    (clash : ∀ {j u job job'}, w.tasks[j]? = some u → j ≠ i → job ∈ t'.jobs → job' ∈ u.jobs →
      job.id ≠ job'.id) (alloc : Alloc w') : w'.Inv empty := by
  have each {j : Nat} {u : Task π} (found : w'.tasks[j]? = some u) : TaskOk w' u := by
    rcases getElem?_set_cases (tasks ▸ found) with ⟨-, rfl⟩ | ⟨other, found⟩
    · exact mine
    · exact theirs found other
  refine ⟨table, gone, fun there => tasks ▸ pins there, fun found => (each found).pinned,
    fun found => (each found).jobs, fun found => (each found).nodup, ?_,
    fun found => (each found).allocating, alloc⟩
  intro j k u v job job' found found' mem mem' same
  rcases getElem?_set_cases (tasks ▸ found) with ⟨rfl, rfl⟩ | ⟨other, old⟩ <;>
    rcases getElem?_set_cases (tasks ▸ found') with ⟨rfl, rfl⟩ | ⟨other', old'⟩
  · rfl
  · exact absurd same (clash old' other' mem mem')
  · exact absurd same.symm (clash old other mem' mem)
  · exact inv.apart old old' mem mem' same

/-- One step of one task on one frame, with the bytes of its page. -/
structure Acts (w w' : World π) (i id : Nat) (key : PageKey) (t' : Task π) (f' : Frame π) : Prop where
  tasks : w'.tasks = w.tasks.set i t'
  frames : w'.pool.frames = w.pool.frames
  seeded : w'.pool.extentSeeded = w.pool.extentSeeded
  here : w'.pool.heap[id]? = some (key, f')
  others : ∀ id', id' ≠ id → w'.pool.heap[id']? = w.pool.heap[id']?
  latest : ∀ k, k ≠ key → w'.latest k = w.latest k
  disk : ∀ k, k ≠ key → w'.disk k = w.disk k
  alloc : Alloc w'

/-- What the step has to do: the frame stays right, the pins add up, the task's jobs hold, and
so do the jobs that other tasks have for the frame. -/
theorem World.Inv.act (inv : w.Inv empty) (task : w.tasks[i]? = some t)
    (here : w.pool.heap[id]? = some (key, f)) (res : w.pool.frames.lookup key = some id)
    (acts : Acts w w' i id key t' f') (ok : FrameOk empty (w'.latest key) (w'.disk key) f')
    (pins : f'.pinCount + (if t.pin = some id then 1 else 0) =
      f.pinCount + if t'.pin = some id then 1 else 0)
    (pinOther : ∀ id', id' ≠ id → t'.pin = some id' → t.pin = some id')
    (unpinOther : ∀ id', id' ≠ id → t.pin = some id' → t'.pin = some id')
    (jobs : ∀ job ∈ t'.jobs, job ∈ t.jobs ∧ job.id ≠ id ∨
      job.id = id ∧ job.Holds (w'.latest key) (w'.disk key) f')
    (nodup : (t'.jobs.map Job.id).Nodup)
    (theirs : ∀ j u job, w.tasks[j]? = some u → j ≠ i → job ∈ u.jobs → job.id = id →
      job.Holds (w.latest key) (w.disk key) f →
      job.Holds (w'.latest key) (w'.disk key) f' ∧ ∀ mine ∈ t'.jobs, mine.id ≠ id)
    (seeded : ∀ fileId, t'.seeded = some fileId → fileId ∈ w.pool.extentSeeded) : w'.Inv empty := by
  have lookup (k : PageKey) : w'.pool.frames.lookup k = w.pool.frames.lookup k := by rw [acts.frames]
  -- a frame of the table other than `id` keeps its entry, and its page
  have away {id' : Nat} {k : PageKey} {g : Frame π} (there : w.pool.heap[id']? = some (k, g))
      (res' : w.pool.frames.lookup k = some id') (other : id' ≠ id) :
      w'.pool.heap[id']? = some (k, g) ∧ w'.latest k = w.latest k ∧ w'.disk k = w.disk k := by
    have ne := key_ne_of_id_ne res res' other
    exact ⟨(acts.others id' other).trans there, acts.latest k ne, acts.disk k ne⟩
  have stays {j : Nat} {u : Task π} {job : Job π} (mem : job ∈ u.jobs) (task' : w.tasks[j]? = some u)
      (other : job.id ≠ id) : ∃ k g, w'.pool.heap[job.id]? = some (k, g) ∧
        w'.pool.frames.lookup k = some job.id ∧ job.Holds (w'.latest k) (w'.disk k) g := by
    obtain ⟨k, g, there, res', holds⟩ := inv.jobs task' mem
    obtain ⟨there', latest, disk⟩ := away there res' other
    exact ⟨k, g, there', (lookup k).trans res', by rwa [latest, disk]⟩
  have kept {id' : Nat} (prior : id' ≠ id → w.Resident id') : w'.Resident id' := by
    by_cases same : id' = id
    · exact ⟨key, f', same ▸ acts.here, (lookup key).trans (same ▸ res)⟩
    · obtain ⟨k, g, there, res'⟩ := prior same
      exact ⟨k, g, (acts.others id' same).trans there, (lookup k).trans res'⟩
  refine inv.next acts.tasks ?_ ?_ ?_ ⟨fun pin => kept fun other => ?_, fun {job} mem => ?_, nodup,
    fun seed => acts.seeded ▸ seeded _ seed⟩ (fun {j u} found other => ⟨fun pin => kept fun _ => ?_,
      fun {job} mem => ?_, inv.nodup found, fun seed => acts.seeded ▸ inv.allocating found seed⟩) ?_
    acts.alloc
  · intro k id' found
    rw [lookup] at found
    by_cases same : id' = id
    · subst same
      obtain ⟨g, there, -⟩ := inv.table found
      cases there.symm.trans here
      exact ⟨f', acts.here, ok⟩
    · obtain ⟨g, there, okay⟩ := inv.table found
      obtain ⟨there', latest, disk⟩ := away there found same
      exact ⟨g, there', by rwa [latest, disk]⟩
  · intro k gone
    rw [lookup] at gone
    have ne : k ≠ key := by
      rintro rfl
      cases gone.symm.trans res
    rw [acts.disk k ne, acts.latest k ne]
    exact inv.absent gone
  · intro id' k g there
    have counted := countP_set_pin task t' id'
    by_cases same : id' = id
    · subst same
      cases acts.here.symm.trans there
      have prior := inv.pins here
      omega
    rw [acts.others id' same] at there
    have prior := inv.pins there
    have pinSame : t.pin = some id' ↔ t'.pin = some id' := ⟨unpinOther id' same, pinOther id' same⟩
    simp only [pinSame] at counted
    omega
  · exact inv.pinned task (pinOther _ other pin)
  · rcases jobs job mem with ⟨old, ne⟩ | ⟨same, holds⟩
    · exact stays old task ne
    · exact ⟨key, f', same ▸ acts.here, (lookup key).trans (same ▸ res), holds⟩
  · exact inv.pinned found pin
  · by_cases same : job.id = id
    · obtain ⟨k, g, there, res', holds⟩ := inv.jobs found mem
      rw [same] at there
      obtain ⟨rfl, rfl⟩ := Prod.mk.inj (Option.some.inj (there.symm.trans here))
      exact ⟨k, f', same ▸ acts.here, (lookup k).trans res',
        (theirs j u job found other mem same holds).1⟩
    · exact stays mem found same
  -- the task's jobs are for frames that it had a job for, or for `id`
  intro j u job job' found other mine their same
  rcases jobs job mine with ⟨old, -⟩ | ⟨at_, -⟩
  · exact other (inv.apart found task their old same.symm)
  obtain ⟨k, g, there, -, holds⟩ := inv.jobs found their
  rw [← same, at_] at there
  cases there.symm.trans here
  exact (theirs j u job' found other their (same ▸ at_) holds).2 job mine at_

end Act

/-! ### The other shapes of a step -/

section Shapes

variable {empty : π} {w w' : World π} {i id : Nat} {t t' : Task π} {key : PageKey} {f f' : Frame π}

theorem Alloc.congr (alloc : Alloc w) (latest : w'.latest = w.latest) (disk : w'.disk = w.disk)
    (extent : w'.extent = w.extent) (frames : w'.pool.frames = w.pool.frames)
    (next : w'.pool.nextPageNumByFile = w.pool.nextPageNumByFile)
    (seeds : w'.pool.extentSeeded = w.pool.extentSeeded) : Alloc w' where
  seeded := by
    simp only [PoolState.nextPageNum, next, seeds, latest, disk, frames]
    exact alloc.seeded
  unseeded := by
    simp only [seeds, latest, disk, frames]
    exact alloc.unseeded
  extent := by
    simp only [disk, extent]
    exact alloc.extent

/-- A task goes on without touching a frame. -/
theorem World.Inv.become (inv : w.Inv empty) (task : w.tasks[i]? = some t) (pin : t'.pin = t.pin)
    (jobs : ∀ job ∈ t'.jobs, ∃ old ∈ t.jobs, old.id = job.id ∧ ∀ key f,
      w.pool.heap[job.id]? = some (key, f) → old.Holds (w.latest key) (w.disk key) f →
      job.Holds (w.latest key) (w.disk key) f)
    (nodup : (t'.jobs.map Job.id).Nodup)
    (seeded : ∀ fileId, t'.seeded = some fileId → fileId ∈ w.pool.extentSeeded) :
    (w.become i t').Inv empty := by
  refine inv.next rfl inv.table inv.absent (fun {id k g} there => ?_)
    ⟨fun pinned => inv.pinned task (pin ▸ pinned), fun {job} mem => ?_, nodup, seeded _⟩
    (fun found _ => ⟨inv.pinned found, inv.jobs found, inv.nodup found, inv.allocating found⟩)
    (fun {j u job job'} found other mem mem' same => ?_) (inv.alloc.congr rfl rfl rfl rfl rfl rfl)
  · have counted := countP_set_pin task t' id
    have prior := inv.pins there
    simp only [pin] at counted
    exact prior.trans (add_right_cancel counted).symm
  · obtain ⟨old, mem', same, holds⟩ := jobs job mem
    obtain ⟨k, g, there, res, prior⟩ := inv.jobs task mem'
    rw [same] at there res
    exact ⟨k, g, there, res, holds k g there prior⟩
  · obtain ⟨old, memOld, sameOld, -⟩ := jobs job mem
    exact other (inv.apart found task mem' memOld (by rw [sameOld, same]))

/-- The clock moves. -/
theorem World.Inv.sameFrames (inv : w.Inv empty) {pool : PoolState π} (same : SameFrames w.pool pool) :
    (w.withPool pool).Inv empty := by
  have lookup (k : PageKey) : pool.frames.lookup k = w.pool.frames.lookup k := by rw [same.frames]
  have back {id : Nat} {k : PageKey} {g : Frame π} (there : pool.heap[id]? = some (k, g)) :
      ∃ g', w.pool.heap[id]? = some (k, g') ∧ g'.pinCount = g.pinCount := by
    obtain ⟨lt, -⟩ := List.getElem?_eq_some_iff.mp there
    have lt' : id < w.pool.heap.length := same.length ▸ lt
    obtain ⟨bit, there'⟩ := same.heap (List.getElem?_eq_getElem lt')
    cases there'.symm.trans there
    exact ⟨_, List.getElem?_eq_getElem lt', rfl⟩
  refine ⟨?_, ?_, ?_, ?_, ?_, inv.nodup, inv.apart, ?_, ?_⟩
  · intro k id found
    obtain ⟨g, there, ok⟩ := inv.table ((lookup k).symm.trans found)
    obtain ⟨bit, there'⟩ := same.heap there
    exact ⟨_, there', ok.data, ok.clean, ok.dirty⟩
  · intro k gone
    exact inv.absent ((lookup k).symm.trans gone)
  · intro id k g there
    obtain ⟨g', there', pins⟩ := back there
    exact pins ▸ inv.pins there'
  · intro j u id found pin
    obtain ⟨k, g, there, res⟩ := inv.pinned found pin
    obtain ⟨bit, there'⟩ := same.heap there
    exact ⟨k, _, there', (lookup k).trans res⟩
  · intro j u job found mem
    obtain ⟨k, g, there, res, holds⟩ := inv.jobs found mem
    obtain ⟨bit, there'⟩ := same.heap there
    refine ⟨k, _, there', (lookup k).trans res, ?_⟩
    cases job <;> exact holds
  · intro j u fileId found seed
    exact same.extentSeeded ▸ inv.allocating found seed
  · exact inv.alloc.congr rfl rfl rfl same.frames same.nextPageNumByFile same.extentSeeded

/-- A frame leaves the page table. -/
theorem World.Inv.remove (inv : w.Inv empty) (task : w.tasks[i]? = some t)
    (here : w.pool.heap[id]? = some (key, f)) (res : w.pool.frames.lookup key = some id)
    (tasks : w'.tasks = w.tasks.set i t') (frames : w'.pool.frames = w.pool.frames.erase key)
    (seeds : w'.pool.extentSeeded = w.pool.extentSeeded)
    (next : w'.pool.nextPageNumByFile = w.pool.nextPageNumByFile)
    (gone : w'.pool.heap[id]? = some (key, f'))
    (others : ∀ id', id' ≠ id → w'.pool.heap[id']? = w.pool.heap[id']?)
    (latest : w'.latest = w.latest) (disk : w'.disk = w.disk) (extent : w'.extent = w.extent)
    (home : w.disk key = w.latest key) (idle : t'.pin = none ∧ t'.jobs = [])
    (pins : f'.pinCount = 0) (pin : ∀ id', t.pin = some id' → id' = id)
    (free : ∀ j u, w.tasks[j]? = some u → j ≠ i → u.pin ≠ some id)
    (jobless : ∀ j u job, w.tasks[j]? = some u → j ≠ i → job ∈ u.jobs → job.id ≠ id)
    (seeded : ∀ fileId, t'.seeded = some fileId → fileId ∈ w.pool.extentSeeded) : w'.Inv empty := by
  have lookup {k : PageKey} (ne : k ≠ key) : w'.pool.frames.lookup k = w.pool.frames.lookup k := by
    rw [frames, AList.lookup_erase_ne ne]
  have lost : w'.pool.frames.lookup key = none := by rw [frames, AList.lookup_erase]
  have away {id' : Nat} {k : PageKey} {g : Frame π} (there : w.pool.heap[id']? = some (k, g))
      (res' : w.pool.frames.lookup k = some id') (other : id' ≠ id) :
      w'.pool.heap[id']? = some (k, g) ∧ w'.pool.frames.lookup k = some id' :=
    ⟨(others id' other).trans there, (lookup (key_ne_of_id_ne res res' other)).trans res'⟩
  refine inv.next tasks ?_ ?_ ?_ ⟨fun pinned => ?_, ?_, ?_, fun seed => seeds ▸ seeded _ seed⟩
    (fun {j u} found other => ⟨fun {id'} pinned => ?_, fun {job} mem => ?_, inv.nodup found,
      fun seed => seeds ▸ inv.allocating found seed⟩) ?_ ?_
  · intro k id' found
    have ne : k ≠ key := by
      rintro rfl
      cases lost.symm.trans found
    rw [lookup ne] at found
    obtain ⟨g, there, ok⟩ := inv.table found
    have other : id' ≠ id := by
      rintro rfl
      exact ne (Prod.mk.inj (Option.some.inj (there.symm.trans here))).1
    rw [latest, disk]
    exact ⟨g, (others id' other).trans there, ok⟩
  · intro k found
    rw [latest, disk]
    by_cases same : k = key
    · exact same ▸ home
    · exact inv.absent ((lookup same).symm.trans found)
  · intro id' k g there
    have counted := countP_set_pin task t' id'
    rw [idle.1] at counted
    by_cases same : id' = id
    · subst same
      cases gone.symm.trans there
      rw [pins]
      refine (countP_eq_zero.mpr fun u mem => ?_).symm
      obtain ⟨j, found⟩ := getElem?_of_mem mem
      rcases getElem?_set_cases found with ⟨rfl, rfl⟩ | ⟨other, found⟩
      · simp [idle.1]
      · simpa using free j u found other
    rw [others id' same] at there
    have other : t.pin ≠ some id' := fun pinned => same (pin id' pinned)
    rw [if_neg other] at counted
    exact (inv.pins there).trans counted.symm
  · cases idle.1.symm.trans pinned
  · rw [idle.2]
    nofun
  · rw [idle.2]
    exact nodup_nil
  · obtain ⟨k, g, there, res'⟩ := inv.pinned found pinned
    have ne : id' ≠ id := by
      rintro rfl
      exact free j u found other pinned
    obtain ⟨there', res''⟩ := away there res' ne
    exact ⟨k, g, there', res''⟩
  · obtain ⟨k, g, there, res', holds⟩ := inv.jobs found mem
    obtain ⟨there', res''⟩ := away there res' (jobless j u job found other mem)
    rw [latest, disk]
    exact ⟨k, g, there', res'', holds⟩
  · rw [idle.2]
    nofun
  · have fewer {k : PageKey} (found : w'.pool.frames.lookup k ≠ none) :
        w.pool.frames.lookup k ≠ none := by
      by_cases same : k = key
      · exact absurd (same ▸ lost) found
      · rwa [lookup same] at found
    refine ⟨fun {fileId p} mem used => ?_, fun {fileId p} notMem used => ?_, fun {fileId p} kept => ?_⟩
    · rw [seeds] at mem
      rw [latest, disk] at used
      simp only [PoolState.nextPageNum, next]
      exact inv.alloc.seeded mem (used.imp_right (.imp_right fewer))
    · rw [seeds] at notMem
      rw [latest] at used
      rw [disk]
      exact inv.alloc.unseeded notMem (used.imp_right fewer)
    · rw [disk] at kept
      rw [extent]
      exact inv.alloc.extent kept

/-- A frame enters the page table, pinned by the task. -/
theorem World.Inv.insert (inv : w.Inv empty) (task : w.tasks[i]? = some t)
    (missing : w.pool.frames.lookup key = none)
    (tasks : w'.tasks = w.tasks.set i t')
    (frames : w'.pool.frames = w.pool.frames.insert key w.pool.heap.length)
    (seeds : w'.pool.extentSeeded = w.pool.extentSeeded)
    (heap : w'.pool.heap = w.pool.heap ++ [(key, f)])
    (latest : w'.latest = w.latest) (disk : w'.disk = w.disk) (alloc : Alloc w')
    (ok : FrameOk empty (w.latest key) (w.disk key) f) (pins : f.pinCount = 1)
    (prior : t.pin = none) (after : t'.pin = some w.pool.heap.length) (idle : t'.jobs = [])
    (noSeed : t'.seeded = none) : w'.Inv empty := by
  have bound {id : Nat} {k : PageKey} {g : Frame π} (there : w.pool.heap[id]? = some (k, g)) :
      id < w.pool.heap.length := (List.getElem?_eq_some_iff.mp there).1
  have keeps {id : Nat} {k : PageKey} {g : Frame π} (there : w.pool.heap[id]? = some (k, g)) :
      w'.pool.heap[id]? = some (k, g) := by
    rw [heap, List.getElem?_append_left (bound there)]
    exact there
  have lookup {k : PageKey} (ne : k ≠ key) : w'.pool.frames.lookup k = w.pool.frames.lookup k := by
    rw [frames, AList.lookup_insert_ne ne]
  have here : w'.pool.frames.lookup key = some w.pool.heap.length := by
    rw [frames, AList.lookup_insert]
  have new : w'.pool.heap[w.pool.heap.length]? = some (key, f) := by
    rw [heap]
    exact List.getElem?_concat_length
  have stays {id : Nat} {k : PageKey} (res : w.pool.frames.lookup k = some id) :
      w'.pool.frames.lookup k = some id := by
    refine (lookup ?_).trans res
    rintro rfl
    cases missing.symm.trans res
  refine inv.next tasks ?_ ?_ ?_ ⟨fun pinned => ?_, ?_, ?_, fun seed => ?_⟩
    (fun {j u} found _ => ⟨fun pinned => ?_, fun {job} mem => ?_, inv.nodup found,
      fun seed => seeds ▸ inv.allocating found seed⟩) ?_ alloc
  · intro k id found
    rw [latest, disk]
    by_cases same : k = key
    · subst same
      cases here.symm.trans found
      exact ⟨f, new, ok⟩
    · obtain ⟨g, there, okay⟩ := inv.table ((lookup same).symm.trans found)
      exact ⟨g, keeps there, okay⟩
  · intro k gone
    have ne : k ≠ key := by
      rintro rfl
      cases here.symm.trans gone
    rw [latest, disk]
    exact inv.absent ((lookup ne).symm.trans gone)
  · intro id k g there
    have counted := countP_set_pin task t' id
    rw [prior, after] at counted
    simp only [reduceCtorEq, if_false, add_zero] at counted
    rw [counted]
    by_cases same : id = w.pool.heap.length
    · subst same
      cases new.symm.trans there
      have none : w.tasks.countP (·.pin == some w.pool.heap.length) = 0 := by
        refine countP_eq_zero.mpr fun u mem pinned => ?_
        obtain ⟨j, found⟩ := List.getElem?_of_mem mem
        obtain ⟨_, _, there', -⟩ := inv.pinned found (by simpa using pinned)
        exact absurd (bound there') (lt_irrefl _)
      rw [none, pins, if_pos rfl]
    have old : w.pool.heap[id]? = some (k, g) := by
      rw [heap] at there
      rcases lt_or_ge id w.pool.heap.length with lt | ge
      · rwa [List.getElem?_append_left lt] at there
      obtain ⟨lt, -⟩ := List.getElem?_eq_some_iff.mp there
      simp only [length_append, length_singleton] at lt
      omega
    rw [if_neg fun h => same (Option.some.inj h).symm]
    exact inv.pins old
  · cases after.symm.trans pinned
    exact ⟨key, f, new, here⟩
  · rw [idle]
    nofun
  · rw [idle]
    exact nodup_nil
  · cases noSeed.symm.trans seed
  · obtain ⟨k, g, there, res⟩ := inv.pinned found pinned
    exact ⟨k, g, keeps there, stays res⟩
  · obtain ⟨k, g, there, res, holds⟩ := inv.jobs found mem
    rw [latest, disk]
    exact ⟨k, g, keeps there, stays res, holds⟩
  · rw [idle]
    nofun

end Shapes

end Saguaro.Buffer
