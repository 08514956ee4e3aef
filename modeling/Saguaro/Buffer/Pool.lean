/-
The page table of the buffer pool (`PoolState` in `crates/buffer/src/pool.rs`).

The source shares frames by reference counting: a thread may hold a frame that has left
the page table. Here all frames ever made stand in a list, a reference is an index of it,
and the page table maps keys to indices. Each function is one hold of the pool lock.

The set of abandoned page numbers is left out, with `abandon_unpublished_new_page`, the
only function that adds to it.
-/

import Saguaro.Buffer.Frame

namespace Saguaro.Buffer

variable {π : Type}

structure PoolState (π : Type) where
  heap : List (PageKey × Frame π)
  frames : AList fun _ : PageKey => Nat
  clockOrder : List PageKey
  clockHand : Nat
  nextPageNumByFile : AList fun _ : FileId => UInt32
  extentSeeded : List FileId

/-- What the pool is configured with. Of what the flush policy is told, it only looks at the
LSN of the page. -/
structure PoolConfig where
  frameCount : Nat
  stealing : Bool
  canFlush : Option Nat → Bool

inductive ReclaimOutcome where
  | freedClean
  | reservedDirty (id : Nat)
  | noVictim

namespace PoolState

variable (s : PoolState π)

def frame (id : Nat) : Option (Frame π) := s.heap[id]?.map (·.2)

def updateFrame (id : Nat) (change : Frame π → Frame π) : PoolState π :=
  { s with heap := s.heap.modify id fun entry => (entry.1, change entry.2) }

/-! ### Page numbers -/

def nextPageNum (fileId : FileId) : UInt32 := (s.nextPageNumByFile.lookup fileId).getD 0

def saturatingSucc (pageNum : UInt32) : UInt32 :=
  if pageNum.toNat + 1 < 2 ^ 32 then pageNum + 1 else pageNum

def ensureNextPageAtLeast (fileId : FileId) (next : UInt32) : PoolState π :=
  { s with nextPageNumByFile := s.nextPageNumByFile.insert fileId (max (s.nextPageNum fileId) next) }

def advanceNextPageNum (fileId : FileId) (pageNum : UInt32) : PoolState π :=
  s.ensureNextPageAtLeast fileId (saturatingSucc pageNum)

/-- `ensure_extent_seeded`, with the extent that the store reports. -/
def ensureExtentSeeded (fileId : FileId) (extent : UInt32) : PoolState π :=
  if fileId ∈ s.extentSeeded then s
  else { s with extentSeeded := fileId :: s.extentSeeded }.ensureNextPageAtLeast fileId extent

/-! ### The page table -/

def insertFrame (key : PageKey) (f : Frame π) : PoolState π := { s with
    heap := s.heap ++ [(key, f)]
    frames := s.frames.insert key s.heap.length
    clockOrder := s.clockOrder ++ [key] }

/-- `get_or_insert_clean`. -/
def getOrInsertClean (frameCount : Nat) (key : PageKey) (data : π) : Option (Nat × PoolState π) :=
  match s.frames.lookup key with
  | some id =>
    if (s.frame id).any (·.evicting) then none
    else some (id, s.updateFrame id fun f => { f with referenceBit := true })
  | none =>
    if frameCount ≤ s.frames.keys.length then none
    else some (s.heap.length, s.insertFrame key (.new data false true))

/-- `insert_fresh_frame`, with the bytes of an empty page. -/
def insertFreshFrame (empty : π) (key : PageKey) : Result (Nat × PoolState π) :=
  if (s.frames.lookup key).isSome then
    .error (.internal s!"page already resident: file_id={key.1}, page_num={key.2}")
  else .ok (s.heap.length, s.insertFrame key (.new empty false false))

/-! ### The clock -/

def fixClockHand : PoolState π :=
  { s with clockHand := if s.clockOrder.isEmpty then 0 else s.clockHand % s.clockOrder.length }

def advanceClockHand : PoolState π :=
  if s.clockOrder.isEmpty then s
  else { s with clockHand := (s.clockHand + 1) % s.clockOrder.length }

def removeFrame (key : PageKey) : PoolState π := { s with
    frames := s.frames.erase key
    clockOrder := s.clockOrder.filter (· ≠ key) }.fixClockHand

/-- The loop of `reclaim_victim`: at most so many turns of the clock hand. -/
def sweep (config : PoolConfig) : Nat → PoolState π → ReclaimOutcome × PoolState π
  | 0, s => (.noVictim, s)
  | turns + 1, s =>
    let s := { s with clockHand := s.clockHand % s.clockOrder.length }
    match s.clockOrder[s.clockHand]? with
    | none => (.noVictim, s)
    | some key =>
      match s.frames.lookup key with
      | none =>
        sweep config turns
          { s with clockOrder := s.clockOrder.eraseIdx s.clockHand }.fixClockHand
      | some id =>
        match s.frame id with
        | none => (.noVictim, s)
        | some f =>
          if f.pinCount ≠ 0 ∨ f.checkpointFlushing then sweep config turns s.advanceClockHand
          else if f.referenceBit then
            sweep config turns
              (s.updateFrame id fun f => { f with referenceBit := false }).advanceClockHand
          else if f.dirty = false then (.freedClean, s.removeFrame key)
          else if config.stealing ∧ config.canFlush f.dirtyMeta.latestPageLsn then
            -- the flag is set whether or not a file flush has set it before
            (.reservedDirty id, s.updateFrame id fun f => { f with evicting := true }.pin)
          else sweep config turns s.advanceClockHand

/-- `reclaim_victim`. -/
def reclaimVictim (config : PoolConfig) : ReclaimOutcome × PoolState π :=
  s.sweep config (s.clockOrder.length * 2)

end PoolState

/-! ### What the functions do to the page table -/

section Specs

variable {s s' s'' : PoolState π} {id id' : Nat} {key : PageKey} {f : Frame π}
  {change : Frame π → Frame π}

theorem heap_updateFrame : (s.updateFrame id change).heap[id']? =
    s.heap[id']?.map fun entry => if id = id' then (entry.1, change entry.2) else entry := by
  simp only [PoolState.updateFrame, List.getElem?_modify]
  split <;> simp

theorem heap_updateFrame_self (here : s.heap[id]? = some (key, f)) :
    (s.updateFrame id change).heap[id]? = some (key, change f) := by
  simp [heap_updateFrame, here]

theorem heap_updateFrame_of_ne (other : id' ≠ id) :
    (s.updateFrame id change).heap[id']? = s.heap[id']? := by
  rw [heap_updateFrame]
  cases s.heap[id']? with
  | none => rfl
  | some entry => simp [other.symm]

/-- The states differ at most in the clock and in reference bits. -/
structure SameFrames (s s' : PoolState π) : Prop where
  frames : s'.frames = s.frames
  nextPageNumByFile : s'.nextPageNumByFile = s.nextPageNumByFile
  extentSeeded : s'.extentSeeded = s.extentSeeded
  length : s'.heap.length = s.heap.length
  heap : ∀ {id : Nat} {key : PageKey} {f : Frame π}, s.heap[id]? = some (key, f) →
    ∃ bit, s'.heap[id]? = some (key, { f with referenceBit := bit })

theorem SameFrames.of_heap (frames : s'.frames = s.frames := by rfl)
    (next : s'.nextPageNumByFile = s.nextPageNumByFile := by rfl)
    (seeded : s'.extentSeeded = s.extentSeeded := by rfl) (heap : s'.heap = s.heap := by rfl) :
    SameFrames s s' := ⟨frames, next, seeded, congrArg _ heap, fun here => ⟨_, heap ▸ here⟩⟩

theorem SameFrames.trans (first : SameFrames s s') (second : SameFrames s' s'') : SameFrames s s'' where
  frames := second.frames.trans first.frames
  nextPageNumByFile := second.nextPageNumByFile.trans first.nextPageNumByFile
  extentSeeded := second.extentSeeded.trans first.extentSeeded
  length := second.length.trans first.length
  heap here := by
    obtain ⟨bit, there⟩ := first.heap here
    obtain ⟨bit', here'⟩ := second.heap there
    exact ⟨bit', here'⟩

theorem SameFrames.advanceClockHand : SameFrames s s.advanceClockHand := by
  unfold PoolState.advanceClockHand
  split
  · exact .of_heap
  · exact .of_heap

theorem SameFrames.clearBit :
    SameFrames s (s.updateFrame id fun f => { f with referenceBit := false }) where
  frames := rfl
  nextPageNumByFile := rfl
  extentSeeded := rfl
  length := List.length_modify ..
  heap {id' key f} here := by
    by_cases same : id' = id
    · exact ⟨false, same ▸ heap_updateFrame_self (same ▸ here)⟩
    · exact ⟨f.referenceBit, (heap_updateFrame_of_ne same).trans here⟩

/-- A frame in the page table that no guard and no checkpoint holds. -/
structure Victim (s : PoolState π) (key : PageKey) (id : Nat) (f : Frame π) : Prop where
  resident : s.frames.lookup key = some id
  frame : s.frame id = some f
  unpinned : f.pinCount = 0
  notFlushing : f.checkpointFlushing = false

/-- What `reclaim_victim` can do, clock and reference bits aside. -/
inductive Reclaimed (s : PoolState π) : ReclaimOutcome → PoolState π → Prop where
  | noVictim {s₁ : PoolState π} : SameFrames s s₁ → Reclaimed s .noVictim s₁
  | freedClean {s₁ : PoolState π} {key : PageKey} {id : Nat} {f : Frame π} : SameFrames s s₁ →
      Victim s₁ key id f → f.dirty = false → Reclaimed s .freedClean (s₁.removeFrame key)
  | reservedDirty {s₁ : PoolState π} {key : PageKey} {id : Nat} {f : Frame π} : SameFrames s s₁ →
      Victim s₁ key id f → f.dirty = true →
      Reclaimed s (.reservedDirty id) (s₁.updateFrame id fun f => { f with evicting := true }.pin)

theorem Reclaimed.after {out : ReclaimOutcome} (same : SameFrames s s')
    (reclaimed : Reclaimed s' out s'') : Reclaimed s out s'' := by
  cases reclaimed with
  | noVictim more => exact .noVictim (same.trans more)
  | freedClean more victim clean => exact .freedClean (same.trans more) victim clean
  | reservedDirty more victim dirty => exact .reservedDirty (same.trans more) victim dirty

theorem reclaimed_sweep (config : PoolConfig) (turns : Nat) (s : PoolState π) :
    Reclaimed s (s.sweep config turns).1 (s.sweep config turns).2 := by
  induction turns generalizing s with
  | zero => exact .noVictim .of_heap
  | succ turns ih =>
    have turned : SameFrames s { s with clockHand := s.clockHand % s.clockOrder.length } := .of_heap
    refine Reclaimed.after turned ?_
    unfold PoolState.sweep
    generalize { s with clockHand := s.clockHand % s.clockOrder.length } = s
    dsimp only
    split
    · exact .noVictim .of_heap
    rename_i key _
    split
    · refine Reclaimed.after ?_ (ih _)
      exact .of_heap
    rename_i id res
    split
    · exact .noVictim .of_heap
    rename_i f frame
    split_ifs with busy bit clean steal
    · exact Reclaimed.after .advanceClockHand (ih _)
    · exact Reclaimed.after (SameFrames.clearBit.trans .advanceClockHand) (ih _)
    all_goals
      have victim : Victim s key id f :=
        ⟨res, frame, by tauto, by simpa using fun h => busy (.inr h)⟩
    · exact .freedClean .of_heap victim clean
    · exact .reservedDirty .of_heap victim (by simpa using clean)
    · exact Reclaimed.after .advanceClockHand (ih _)

end Specs

end Saguaro.Buffer
