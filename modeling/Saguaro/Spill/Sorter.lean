/-
The external sorter of the executor (`ExternalSorter` in `crates/spill/src/lib.rs`).

Records are buffered while the budget takes them. A full buffer is sorted and written as a
run, and the runs are kept like the digits of a binary counter: two runs of one level merge
into one of the next, the older on the left. What the budget answers and where a call is
stopped (cancellation, I/O) is left to `Answer`. A run is the list of its records. The
operators drop a sorter at its first error, so `failed` is left out.
-/

import Saguaro.Common.Error
import Saguaro.Lib.Outcome
import Saguaro.Lib.StableSort

namespace Saguaro.Spill

open List Outcome

/-- What one `push` meets: `reserve_vec_item` twice, and a spill after each refusal. -/
structure Answer where
  first : Result Bool
  flush : Result Unit
  again : Result Bool
  spill : Result Unit

/-- Whatever stops the call is one of these. -/
structure Answer.Within (bad : DbError → Prop) (a : Answer) : Prop where
  first : Sat (fun _ => True) bad a.first
  flush : Sat (fun _ => True) bad a.flush
  again : Sat (fun _ => True) bad a.again
  spill : Sat (fun _ => True) bad a.spill

structure ExternalSorter (α : Type) where
  buffer : List (α × Nat) := []
  levels : List (Option (List α)) := []
  nextOrdinal : Nat := 0

namespace ExternalSorter

variable {α : Type} (cmp : α → α → Ordering) (s : ExternalSorter α)

/-- `merge_runs` takes from the left unless the right is smaller. -/
def mergeRuns (left right : List α) : List α := left.merge right fun a b => decide (cmp a b).isLE

/-- `sort_buffer_cancelable`. The ordinals break every tie, so an unstable sort gives the same. -/
def sortBuffer (buffer : List (α × Nat)) : List α :=
  (buffer.insertionSort fun a b => ((cmp a.1 b.1).then (compare a.2 b.2)).isLE).map (·.1)

def insertRun : List (Option (List α)) → List α → List (Option (List α))
  | [], run => [some run]
  | none :: levels, run => some run :: levels
  | some other :: levels, run => none :: insertRun levels (mergeRuns cmp other run)

def flushRun (done : Result Unit) : Result (ExternalSorter α) :=
  if s.buffer.isEmpty then .ok s
  else do
    done
    .ok { s with buffer := [], levels := insertRun cmp s.levels (sortBuffer cmp s.buffer) }

def buffered (record : α) : Result (ExternalSorter α) :=
  if s.nextOrdinal + 1 < 2 ^ 64 then
    .ok { s with buffer := s.buffer ++ [(record, s.nextOrdinal)], nextOrdinal := s.nextOrdinal + 1 }
  else .error (.internal "external sorter input ordinal overflow")

def push (record : α × Answer) : Result (ExternalSorter α) := do
  if ← record.2.first then s.buffered record.1
  else
    let s ← s.flushRun cmp record.2.flush
    let taken ← record.2.again
    let s ← s.buffered record.1
    if taken then .ok s else s.flushRun cmp record.2.spill

/-- The merges of `finish`; the higher a level, the older its run. -/
def finalRun (levels : List (Option (List α))) : Option (List α) :=
  levels.foldr (fun level final => match level, final with
    | none, final => final
    | some run, none => some run
    | some run, some current => some (mergeRuns cmp current run)) none

def finish (flush merge : Result Unit) : Result (List α) :=
  if s.levels.all (·.isNone) then do
    merge
    .ok (sortBuffer cmp s.buffer)
  else do
    let s ← s.flushRun cmp flush
    merge
    match finalRun cmp s.levels with
    | none => .error (.internal "flushed external sorter has no merge run")
    | some run => .ok run

/-- What an operator does with a sorter. -/
def sortAll (input : List (α × Answer)) (flush merge : Result Unit) : Result (List α) := do
  (← input.foldlM (push cmp) {}).finish cmp flush merge

abbrev stable (records : List α) : List α := records.insertionSort fun a b => (cmp a b).isLE

/-- The levels hold `records`, the oldest in the highest, each run sorted. -/
inductive Holds : List (Option (List α)) → List α → Prop where
  | nil : Holds [] []
  | free {levels records} : Holds levels records → Holds (none :: levels) records
  | used {levels records} (newer : List α) :
      Holds levels records → Holds (some (stable cmp newer) :: levels) (records ++ newer)

/-- What was pushed is in the levels and then in the buffer. -/
structure Inv (records : List α) : Prop where
  parts : ∃ old new, Holds cmp s.levels old ∧ s.buffer = new.zipIdx old.length ∧ records = old ++ new
  next : s.nextOrdinal = records.length

variable {cmp s} {levels : List (Option (List α))} {old records : List α} {bad : DbError → Prop}

theorem sortBuffer_zipIdx (new : List α) (k : Nat) : sortBuffer cmp (new.zipIdx k) = stable cmp new := by
  have ordered : (new.zipIdx k).Pairwise (·.2 < ·.2) := by simp [pairwise_iff_getElem]
  refine (StableSort.map_insertionSort_of_pairwise (ordered.imp fun {a b} lt => ?_)).trans
    (congrArg _ (zipIdx_map_fst k new))
  rw [Nat.compare_eq_lt.mpr lt]
  cases cmp a.1 b.1 <;> simp

theorem insertRun_all (run : List α) : (insertRun cmp levels run).all (·.isNone) = false := by
  fun_induction insertRun cmp levels run <;> simp [*]

theorem Inv.buffered (inv : Inv cmp s records) (few : records.length + 1 < 2 ^ 64) (record : α) :
    Sat (Inv cmp · (records ++ [record])) bad (s.buffered record) := by
  rw [ExternalSorter.buffered, inv.next, if_pos few]
  obtain ⟨⟨old, new, held, buffer, rfl⟩, -⟩ := inv
  refine ⟨⟨old, new ++ [record], held, ?_, append_assoc ..⟩, by simp [Nat.add_assoc]⟩
  rw [buffer, length_append, zipIdx_append]
  rfl

variable [Std.TransCmp cmp]

theorem mergeRuns_stable (old new : List α) :
    mergeRuns cmp (stable cmp old) (stable cmp new) = stable cmp (old ++ new) := by
  have : Std.Total fun a b => (cmp a b).isLE = true := ⟨fun a b => by
    have turned : cmp b a = (cmp a b).swap := Std.OrientedCmp.eq_swap
    rw [turned]
    cases cmp a b <;> simp⟩
  have : IsTrans α fun a b => (cmp a b).isLE = true := ⟨fun _ _ _ => Std.TransCmp.isLE_trans⟩
  exact StableSort.merge_insertionSort old new

theorem Holds.insertRun (held : Holds cmp levels old) (new : List α) :
    Holds cmp (insertRun cmp levels (stable cmp new)) (old ++ new) := by
  induction held generalizing new with
  | nil => exact .used new .nil
  | free held _ => exact .used new held
  | used newer _ ih =>
    rw [ExternalSorter.insertRun, mergeRuns_stable, append_assoc]
    exact .free (ih (newer ++ new))

theorem Holds.finalRun (held : Holds cmp levels old) : (levels.all (·.isNone) → old = []) ∧
    finalRun cmp levels = if levels.all (·.isNone) then none else some (stable cmp old) := by
  induction held with
  | nil => exact ⟨fun _ => rfl, rfl⟩
  | free _ ih => exact ih
  | @used levels _ newer _ ih =>
    refine ⟨nofun, ?_⟩
    rw [ExternalSorter.finalRun, foldr_cons, ← ExternalSorter.finalRun, ih.2]
    by_cases empty : levels.all (·.isNone)
    · rw [if_pos empty, ih.1 empty]
      rfl
    · rw [if_neg empty]
      exact congrArg some (mergeRuns_stable _ newer)

theorem Inv.flushRun (inv : Inv cmp s records) {done : Result Unit} (stops : Sat (fun _ => True) bad done) :
    Sat (fun s' => Inv cmp s' records ∧ s'.buffer = [] ∧
      (s'.levels.all (·.isNone) → s.levels.all (·.isNone))) bad (s.flushRun cmp done) := by
  unfold ExternalSorter.flushRun
  split
  · rename_i empty
    exact ⟨inv, isEmpty_iff.mp empty, id⟩
  · refine stops.bind fun _ _ => ?_
    obtain ⟨⟨old, new, held, buffer, rfl⟩, next⟩ := inv
    rw [buffer, sortBuffer_zipIdx]
    exact ⟨⟨⟨_, [], held.insertRun new, rfl, (append_nil _).symm⟩, next⟩, rfl, by simp [insertRun_all]⟩

theorem Inv.push (inv : Inv cmp s records) (few : records.length + 1 < 2 ^ 64) {record : α × Answer}
    (within : record.2.Within bad) : Sat (Inv cmp · (records ++ [record.1])) bad (s.push cmp record) := by
  refine within.first.bind fun taken _ => ?_
  cases taken with
  | true => exact inv.buffered few record.1
  | false =>
    refine (inv.flushRun within.flush).bind fun _ ⟨inv, _⟩ => within.again.bind fun taken _ =>
      (inv.buffered few record.1).bind fun _ inv => ?_
    cases taken with
    | true => exact inv
    | false => exact (inv.flushRun within.spill).imp (fun _ h => h.1) fun _ h => h

theorem Inv.finish (inv : Inv cmp s records) {flush merge : Result Unit}
    (flushes : Sat (fun _ => True) bad flush) (merges : Sat (fun _ => True) bad merge) :
    Sat (· = stable cmp records) bad (s.finish cmp flush merge) := by
  unfold ExternalSorter.finish
  split
  · rename_i inMemory
    refine merges.bind fun _ _ => ?_
    obtain ⟨⟨old, new, held, buffer, rfl⟩, -⟩ := inv
    rw [held.finalRun.1 inMemory, buffer, sortBuffer_zipIdx]
    rfl
  · rename_i spilled
    refine (inv.flushRun flushes).bind fun s' ⟨inv, empty, kept⟩ => merges.bind fun _ _ => ?_
    obtain ⟨old, new, held, buffer, rfl⟩ := inv.parts
    rw [held.finalRun.2, if_neg fun none => spilled (kept none), zipIdx_eq_nil_iff.mp (buffer.symm.trans empty),
      append_nil]
    rfl

theorem Inv.pushAll (inv : Inv cmp s records) {input : List (α × Answer)}
    (few : records.length + input.length < 2 ^ 64) (within : ∀ record ∈ input, record.2.Within bad) :
    Sat (Inv cmp · (records ++ input.map (·.1))) bad (input.foldlM (ExternalSorter.push cmp) s) := by
  induction input generalizing s records with
  | nil => rwa [map_nil, append_nil]
  | cons record input ih =>
    rw [length_cons] at few
    refine (inv.push (by omega) (within record (.head _))).bind fun s' inv => ?_
    rw [map_cons, append_cons]
    exact ih inv (by simp; omega) fun r mem => within r (.tail _ mem)

/-- **External sorting is stable sorting, whatever the memory.** For every list of records and
whatever the budget answers, what a sorter returns is the stable sort of what was pushed, and
it fails only with an error that stopped one of its calls. -/
theorem external_sort_stable {input : List (α × Answer)} (few : input.length < 2 ^ 64)
    (within : ∀ record ∈ input, record.2.Within bad) {flush merge : Result Unit}
    (flushes : Sat (fun _ => True) bad flush) (merges : Sat (fun _ => True) bad merge) :
    Sat (· = stable cmp (input.map (·.1))) bad (sortAll cmp input flush merge) := by
  have fresh : Inv cmp {} [] := ⟨⟨[], [], .nil, rfl, rfl⟩, rfl⟩
  refine (fresh.pushAll (by simpa) within).bind fun s inv => ?_
  exact inv.finish flushes merges

def refused : Answer := ⟨.ok false, .ok (), .ok false, .ok ()⟩

/-- Three spills, two of them merged. -/
theorem external_sort_stable_spilled :
    sortAll compare ([3, 1, 2].map (·, refused)) (.ok ()) (.ok ()) = .ok [1, 2, 3] := by
  have within : ∀ record ∈ [3, 1, 2].map (·, refused), record.2.Within fun _ => False := by
    intro record mem
    obtain ⟨n, -, rfl⟩ := mem_map.mp mem
    exact ⟨trivial, trivial, trivial, trivial⟩
  obtain ⟨out, done, same⟩ := (@external_sort_stable _ compare _ _ _ (by decide) within (.ok ()) (.ok ())
    trivial trivial).exists_ok fun _ h => h
  rw [done, same]
  rfl

end ExternalSorter

end Saguaro.Spill
