/-
Page numbers of the buffer pool (`new_page`, `abandon_unpublished_new_page`, `page_count`,
`discard_file_if_unpinned` and the helpers of `PoolState` in `crates/buffer/src/pool.rs`).

The state is that of one file: every helper touches the entries of one file only. A missing
entry reads as zero or as the empty set, and whether the pool has room for a page is left
open. A page is pinned by the guards on it, each once until it is dropped. Each action is
one hold of the pool lock, so a thread in `new_page` stands between two of them.

A page that was handed out stays `Taken` until it is given up: its allocation is abandoned,
the file discarded, or the page lost in a crash.
-/

import Mathlib.Tactic.Ring
import Saguaro.Lib.Transition

namespace Saguaro.Buffer.Allocator

open List Transition

def PAGE_NUM_MAX : Nat := 2 ^ 32 - 1

def saturatingSucc (pageNum : Nat) : Nat := min (pageNum + 1) PAGE_NUM_MAX

/-- A guard that `new_page` returned. -/
structure Guard where
  pageNum : Nat
  published : Bool
  deriving DecidableEq

structure PageFile where
  /-- The resident pages. -/
  frames : List Nat
  nextPageNum : Nat
  abandonedPages : List Nat
  extentSeeded : Bool
  /-- The file's extent in the store. -/
  extent : Nat
  guards : List Guard
  /-- The pages of all other guards. -/
  others : List Nat
  /-- The threads in `new_page` that have seen the file seeded. -/
  pending : Nat

namespace PageFile

def init : PageFile := ⟨[], 0, [], false, 0, [], [], 0⟩

variable (s : PageFile)

def pinCount (pageNum : Nat) : Nat := s.guards.countP (·.pageNum = pageNum) + s.others.count pageNum

def advanceNextPageNum (pageNum : Nat) : PageFile :=
  { s with nextPageNum := max s.nextPageNum (saturatingSucc pageNum) }

def ensureExtentSeeded : PageFile :=
  if s.extentSeeded then s
  else { s with extentSeeded := true, nextPageNum := max s.nextPageNum s.extent }

/-- The smallest abandoned number. -/
def reusablePage : Option Nat := s.abandonedPages.min?

def markPageAllocated (pageNum : Nat) : PageFile :=
  { s with abandonedPages := s.abandonedPages.filter (· ≠ pageNum) }.advanceNextPageNum pageNum

/-- The loop of `trim_abandoned_tail`, from the next page number and the abandoned ones. -/
def trimAbandonedTail : Nat → List Nat → Nat × List Nat
  | 0, pages => (0, pages)
  | tail + 1, pages =>
    if tail ∈ pages then trimAbandonedTail tail (pages.filter (· ≠ tail)) else (tail + 1, pages)

def abandonAllocatedPage (pageNum : Nat) : PageFile :=
  let trimmed := trimAbandonedTail s.nextPageNum (pageNum :: s.abandonedPages)
  { s with nextPageNum := trimmed.1, abandonedPages := trimmed.2 }

def pageCount : Nat := max s.extent s.nextPageNum

def removeFrame (pageNum : Nat) : PageFile := { s with frames := s.frames.filter (· ≠ pageNum) }

def dropGuard (guard : Guard) : PageFile := { s with guards := s.guards.erase guard }

/-- The checks of `abandon_unpublished_new_page`. -/
def abandonable (guard : Guard) : Bool :=
  !guard.published && guard.pageNum ∈ s.frames && s.pinCount guard.pageNum ≤ 1

def unpinned : Bool := s.frames.all (s.pinCount · = 0)

end PageFile

inductive Action where
  | seed
  | newPage (pageNum : Nat)
  /-- `new_page` fails: there is no room, or the page is resident. -/
  | refuse
  | publish (guard : Guard)
  | drop (guard : Guard)
  | abandon (guard : Guard)
  | pin (pageNum : Nat)
  | unpin (pageNum : Nat)
  | load (pageNum : Nat)
  | evict (pageNum : Nat)
  | flush (pageNum : Nat)
  | discard
  | restart

open PageFile

def step (s : PageFile) : Action → Option PageFile
  | .seed => some { s.ensureExtentSeeded with pending := s.pending + 1 }
  | .newPage n =>
    if s.pending ≠ 0 ∧ s.reusablePage.getD s.nextPageNum = n ∧ n ∉ s.frames then
      some { s.markPageAllocated n with
        frames := n :: s.frames
        guards := ⟨n, false⟩ :: s.guards
        pending := s.pending - 1 }
    else none
  | .refuse => some { s with pending := s.pending - 1 }
  | .publish guard =>
    if guard ∈ s.guards then
      some { s with guards := { guard with published := true } :: s.guards.erase guard }
    else none
  | .drop guard => if guard ∈ s.guards then some (s.dropGuard guard) else none
  | .abandon guard =>
    if guard ∉ s.guards then none
    else if s.abandonable guard then
      some (((s.removeFrame guard.pageNum).abandonAllocatedPage guard.pageNum).dropGuard guard)
    else some (s.dropGuard guard)
  | .pin n => if n ∈ s.frames then some { s with others := n :: s.others } else none
  | .unpin n => some { s with others := s.others.erase n }
  | .load n => some { s.advanceNextPageNum n with frames := s.frames.insert n }
  | .evict n => if s.pinCount n = 0 then some (s.removeFrame n) else none
  | .flush n =>
    if n ∈ s.frames then some { s with extent := max s.extent (saturatingSucc n) } else none
  | .discard =>
    if s.unpinned then
      some { s with frames := [], nextPageNum := 0, abandonedPages := [], extentSeeded := false }
    else some s
  | .restart => some { init with extent := s.extent }

/-- The page is abandoned before it is published, the file is discarded, or the process ends
before the page is in the file. -/
def Action.GivesUp (s : PageFile) (n : Nat) : Action → Prop
  | .abandon guard => guard.pageNum = n ∧ s.abandonable guard
  | .discard => s.unpinned
  | .restart => s.extent ≤ n
  | _ => False

instance (s : PageFile) (n : Nat) (action : Action) : Decidable (action.GivesUp s n) := by
  cases action <;> simp only [Action.GivesUp] <;> infer_instance

/-- The page is not reusable, and below the next number once the file is seeded. -/
def Taken (s : PageFile) (n : Nat) : Prop := n ∉ s.abandonedPages ∧
    (n < s.nextPageNum ∨ s.extentSeeded = false ∧ s.pending = 0 ∧ n < s.extent)

variable {s s' : PageFile} {n : Nat}

theorem trimAbandonedTail_spec (next : Nat) (pages : List Nat) :
    (trimAbandonedTail next pages).2 ⊆ pages ∧
      ∀ n, n ∉ pages → n < next → n < (trimAbandonedTail next pages).1 := by
  induction next generalizing pages with
  | zero => exact ⟨fun _ mem => mem, fun _ _ lt => lt⟩
  | succ tail ih =>
    unfold trimAbandonedTail
    split
    · rename_i abandoned
      obtain ⟨sub, below⟩ := ih (pages.filter (· ≠ tail))
      refine ⟨fun n mem => mem_of_mem_filter (sub mem), fun n kept lt => ?_⟩
      refine below n (fun mem => kept (mem_of_mem_filter mem)) ?_
      exact (Nat.lt_succ_iff_lt_or_eq.mp lt).resolve_right fun same => kept (same ▸ abandoned)
    · exact ⟨fun _ mem => mem, fun _ _ lt => lt⟩

theorem Taken.abandon {other : Nat} (taken : Taken s n) (ne : n ≠ other) :
    Taken (s.abandonAllocatedPage other) n := by
  obtain ⟨sub, trimmed⟩ := trimAbandonedTail_spec s.nextPageNum (other :: s.abandonedPages)
  have fresh : n ∉ other :: s.abandonedPages := fun mem => (mem_cons.mp mem).elim ne taken.1
  exact ⟨fun mem => fresh (sub mem), taken.2.imp_left (trimmed n fresh)⟩

/-- A page that is in use is not handed out. -/
theorem Taken.not_chosen (taken : Taken s n) (waits : s.pending ≠ 0) :
    s.reusablePage.getD s.nextPageNum ≠ n := by
  obtain ⟨kept, below⟩ := taken
  cases found : s.reusablePage with
  | none => exact below.elim (fun lt => lt.ne') fun idle => absurd idle.2.1 waits
  | some least => exact fun same => kept (same ▸ min?_mem found)

theorem Taken.seed (taken : Taken s n) :
    Taken { s.ensureExtentSeeded with pending := s.pending + 1 } n := by
  obtain ⟨kept, below⟩ := taken
  unfold ensureExtentSeeded
  split
  · rename_i seeded
    exact ⟨kept, .inl (below.resolve_right fun idle => nomatch seeded.symm.trans idle.1)⟩
  · exact ⟨kept, .inl (below.elim lt_max_of_lt_left fun idle => lt_max_of_lt_right idle.2.2)⟩

/-- A page stays in use through every step that does not give it up. -/
theorem Taken.step {action : Action} (taken : Taken s n) (kept : ¬action.GivesUp s n)
    (done : step s action = some s') : Taken s' n := by
  cases action with
  | seed =>
    cases done
    exact taken.seed
  | newPage other =>
    simp only [Allocator.step] at done
    split at done <;> cases done
    rename_i free
    refine ⟨fun mem => taken.1 (mem_of_mem_filter mem), .inl (lt_max_of_lt_left ?_)⟩
    exact taken.2.resolve_right fun idle => free.1 idle.2.1
  | refuse =>
    cases done
    exact ⟨taken.1, taken.2.imp_right fun idle => ⟨idle.1, by simp [idle.2.1], idle.2.2⟩⟩
  | publish | drop | pin | evict =>
    simp only [Allocator.step] at done
    split at done <;> cases done
    exact taken
  | abandon guard =>
    simp only [Allocator.step] at done
    split at done
    · cases done
    split at done <;> cases done
    · rename_i free
      exact Taken.abandon (s := s.removeFrame guard.pageNum) taken fun same =>
        kept ⟨same.symm, free⟩
    · exact taken
  | unpin other =>
    cases done
    exact taken
  | load other =>
    cases done
    exact ⟨taken.1, taken.2.imp_left lt_max_of_lt_left⟩
  | flush other =>
    simp only [Allocator.step] at done
    split at done <;> cases done
    exact ⟨taken.1, taken.2.imp_right fun idle => ⟨idle.1, idle.2.1, lt_max_of_lt_left idle.2.2⟩⟩
  | discard =>
    simp only [Allocator.step] at done
    split at done
    · rename_i free
      exact absurd free kept
    · cases done
      exact taken
  | restart =>
    cases done
    exact ⟨nofun, .inr ⟨rfl, rfl, not_le.mp kept⟩⟩

/-- **No page is handed out twice.** From any state: a page that was handed out, or loaded
by recovery, and not given up since is not handed out, and the extent that scans read
covers it. -/
theorem page_handed_out_once {between : List Action} {first second : PageFile}
    (entered : step s (.newPage n) = some first ∨
      n ∉ s.abandonedPages ∧ step s (.load n) = some first)
    (kept : Run step (fun s action => ¬action.GivesUp s n) first between second)
    (small : n < PAGE_NUM_MAX) : step second (.newPage n) = none ∧ n < second.pageCount := by
  have start : Taken first n := by
    have counted : n < max s.nextPageNum (saturatingSucc n) :=
      lt_max_of_lt_right (lt_min (Nat.lt_succ_self n) small)
    rcases entered with allocated | ⟨fresh, loaded⟩
    · simp only [step] at allocated
      split at allocated <;> cases allocated
      exact ⟨fun mem => of_decide_eq_true (mem_filter.mp mem).2 rfl, .inl counted⟩
    · cases loaded
      exact ⟨fresh, .inl counted⟩
  have taken : Taken second n := kept.invariant (I := (Taken · n))
    (fun _ _ _ taken kept done => taken.step kept done) start
  constructor
  · simp only [step]
    exact if_neg fun free => taken.not_chosen free.1 free.2.1
  · exact taken.2.elim lt_max_of_lt_right fun idle => lt_max_of_lt_left idle.2.2

/-- Page 0 is published while page 1 is abandoned and handed out again. -/
theorem page_handed_out_once_reused :
    let seeded : PageFile := { init with extentSeeded := true, pending := 1 }
    let acts : List Action := [.seed, .newPage 1, .publish ⟨0, false⟩, .abandon ⟨1, false⟩, .seed,
      .newPage 1, .seed]
    ∃ first second, step seeded (.newPage 0) = some first ∧
      Run step (fun s action => ¬action.GivesUp s 0) first acts second ∧
      step second (.newPage 0) = none ∧ 0 < second.pageCount := by
  intro seeded acts
  have run : ∃ second, Run step (fun s action => ¬action.GivesUp s 0) seeded
      (.newPage 0 :: acts) second := Run.executed (by decide +kernel)
  obtain ⟨second, _ | ⟨-, allocated, between⟩⟩ := run
  exact ⟨_, second, allocated, between, page_handed_out_once (.inl allocated) between (by decide)⟩

/-- A published page is handed out again after a discard of the file, after a restart that
finds it neither in the file nor in the log, and at the end of the number range. -/
theorem published_page_handed_out_again :
    let published (n : Nat) : List Action :=
      [.seed, .newPage n, .publish ⟨n, false⟩, .drop ⟨n, true⟩]
    let again (n : Nat) (acts : List Action) : Prop :=
      ∃ s, Run step (fun _ _ => True) init (acts ++ [.seed, .newPage n]) s
    again 0 (published 0 ++ [.discard]) ∧ again 0 (published 0 ++ [.restart]) ∧
    again PAGE_NUM_MAX (.load (PAGE_NUM_MAX - 1) :: published PAGE_NUM_MAX ++
      [.flush PAGE_NUM_MAX, .evict PAGE_NUM_MAX]) := by
  intro published again
  refine ⟨?_, ?_, ?_⟩ <;> exact Run.executed (by decide +kernel)

end Saguaro.Buffer.Allocator
