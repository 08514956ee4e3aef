/-
Before-images in nested transactions.

A transaction writes cells. The first write of a cell under an id keeps the value that the
cell had: `top` for the transaction itself, `sub x` for a live subtransaction `x`. A mark is
what a savepoint remembers: the subtransaction that it opened, and the cells and the top
record at that moment. Rolling back to a mark puts the top record's cells back first and then
undoes the subtransactions since the mark; rolling back as a whole undoes the subtransactions
and then the top record.

With one record per id the result depends on the order in which records that share a cell are
applied. `Admits` is a condition on first writes under which it does not: `Inv` is then kept by
every write, mark, release and rollback, and a rollback gives the cells of its mark
(`rollbackTo_now`) or of the beginning (`rollbackAll_now`).
-/

import Mathlib.Data.List.Basic
import Mathlib.Order.Nat

namespace Saguaro.Undo

open Function List

variable {I V : Type*} [DecidableEq I] {xs : List Nat}

structure Maps (I V : Type*) where
  now : I → V
  top : I → Option V
  sub : Nat → I → Option V
  live : List Nat

structure Mark (I V : Type*) where
  sub : Nat
  now : I → V
  top : I → Option V

/-- Puts the recorded values back. -/
def undo (record : I → Option V) (now : I → V) : I → V := fun i => (record i).getD (now i)

/-- Undoes subtransactions in the order of a list. -/
def undoSubs (sub : Nat → I → Option V) (xs : List Nat) (now : I → V) : I → V :=
  xs.foldl (fun now x => undo (sub x) now) now

omit [DecidableEq I] in
/-- When all recorded values of a cell agree, the order of the records does not matter. -/
theorem undoSubs_eq {sub : Nat → I → Option V} {now : I → V} {i : I} {v : V}
    (same : ∀ x ∈ xs, ∀ w, sub x i = some w → w = v)
    (else_ : (∀ x ∈ xs, sub x i = none) → now i = v) : undoSubs sub xs now i = v := by
  induction xs generalizing now with
  | nil => exact else_ fun _ mem => absurd mem not_mem_nil
  | cons x xs ih =>
    refine ih (fun y mem => same y (mem_cons_of_mem x mem)) fun fresh => ?_
    change (sub x i).getD (now i) = v
    cases noted : sub x i with
    | some w => exact same x (.head _) w noted
    | none =>
      refine else_ fun y mem => ?_
      rcases mem with _ | ⟨_, mem⟩
      · exact noted
      · exact fresh y mem

omit [DecidableEq I] in
theorem undoSubs_congr {sub sub' : Nat → I → Option V} {now : I → V}
    (same : ∀ x ∈ xs, sub x = sub' x) : undoSubs sub xs now = undoSubs sub' xs now := by
  induction xs generalizing now with
  | nil => rfl
  | cons x xs ih =>
    unfold undoSubs
    rw [foldl_cons, foldl_cons, same x (.head _)]
    exact ih fun y mem => same y (mem_cons_of_mem x mem)

namespace Maps

variable (m : Maps I V)

/-- The id that a write is recorded under. -/
inductive Under where
  | top
  | sub (x : Nat)

/-- Keeps the value before the first write. -/
def record (old : I → Option V) (i : I) (value : V) : I → Option V :=
  update old i (some ((old i).getD value))

def write (i : I) (v : V) : Under → Maps I V
  | .top => { m with now := update m.now i v, top := record m.top i (m.now i) }
  | .sub x => { m with now := update m.now i v, sub := update m.sub x (record (m.sub x) i (m.now i)) }

/-- The value that a rollback to a mark starts from, before the subtransactions are undone. -/
def backTo (mark : Mark I V) : I → V := fun i =>
  if (mark.top i).isSome then mark.now i else (m.top i).getD (m.now i)

/-- The maps when a mark was made, for the subtransactions that were live then. -/
def atMark (mark : Mark I V) : Maps I V :=
  { m with now := mark.now, top := mark.top, live := m.live.filter (· < mark.sub) }

/-- A rollback to a mark gives the mark's cells. -/
structure Restorable (mark : Mark I V) : Prop where
  recorded : ∀ x ∈ m.live, mark.sub ≤ x → ∀ i v, m.sub x i = some v → v = mark.now i
  since : ∀ i w, mark.top i = none → m.top i = some w →
    (∀ x ∈ m.live, mark.sub ≤ x → m.sub x i = none) → w = mark.now i
  untouched : ∀ i, mark.top i = none → m.top i = none →
    (∀ x ∈ m.live, mark.sub ≤ x → m.sub x i = none) → m.now i = mark.now i

/-- A rollback as a whole gives the cells of the beginning. -/
structure Whole (begun : I → V) : Prop where
  top : ∀ i w, m.top i = some w → w = begun i
  recorded : ∀ i, m.top i = none → ∀ x ∈ m.live, ∀ v, m.sub x i = some v → v = begun i
  untouched : ∀ i, m.top i = none → (∀ x ∈ m.live, m.sub x i = none) → m.now i = begun i

/-- Each mark of a stack found the maps fit for the marks below it. -/
def Stacked (begun : I → V) : List (Mark I V) → Prop
  | [] => True
  | mark :: below =>
    ((m.atMark mark).Whole begun ∧ ∀ lower ∈ below, (m.atMark mark).Restorable lower) ∧
      Stacked begun below

/-- A first write is admitted when no live subtransaction has recorded the cell and, under a
subtransaction, when the cell is what it was at every mark. -/
def Admits (marks : List (Mark I V)) (i : I) : Under → Prop
  | .top => m.top i = none → ∀ y ∈ m.live, m.sub y i = none
  | .sub x => m.sub x i = none →
      (∀ y ∈ m.live, m.sub y i = none) ∧ ∀ mark ∈ marks, m.now i = mark.now i

/-- A write is under the top id or under the subtransaction of the newest mark. -/
def Writes (marks : List (Mark I V)) : Under → Prop
  | .top => True
  | .sub x => x ∈ m.live ∧ ∀ mark ∈ marks, mark.sub ≤ x

/-- The invariant of a transaction that began with `begun` and has these marks, the newest
first. -/
structure Inv (begun : I → V) (marks : List (Mark I V)) : Prop where
  whole : m.Whole begun
  restorable : ∀ mark ∈ marks, m.Restorable mark
  stacked : m.Stacked begun marks
  descending : marks.Pairwise fun newer older => older.sub < newer.sub

variable {m} {marks : List (Mark I V)} {begun : I → V} {mark : Mark I V} {under : Under} {i : I}
  {v : V}

variable {j : I}

theorem now_write_ne (ne : j ≠ i) : (m.write i v under).now j = m.now j := by
  cases under <;> exact update_of_ne ne ..

@[simp] theorem live_write : (m.write i v under).live = m.live := by cases under <;> rfl

theorem top_writeTop_ne (ne : j ≠ i) : (m.write i v .top).top j = m.top j := update_of_ne ne ..

theorem top_writeTop_self : (m.write i v .top).top i = some ((m.top i).getD (m.now i)) :=
  update_self ..

theorem sub_writeSub_ne {x y : Nat} (ne : y ≠ x) : (m.write i v (.sub x)).sub y = m.sub y :=
  update_of_ne ne ..

theorem sub_writeSub_cell_ne {x y : Nat} (ne : j ≠ i) :
    (m.write i v (.sub x)).sub y j = m.sub y j := by
  by_cases same : y = x
  · subst same
    simp only [write, update_self]
    exact update_of_ne ne ..
  · rw [sub_writeSub_ne same]

theorem sub_writeSub_self {x : Nat} :
    (m.write i v (.sub x)).sub x i = some ((m.sub x i).getD (m.now i)) := by
  simp [write, record]

/-! ### Writes -/

/-- Cells that are not written keep their record and their value. -/
theorem write_ne (ne : j ≠ i) : (m.write i v under).now j = m.now j ∧
    (m.write i v under).top j = m.top j ∧ ∀ y, (m.write i v under).sub y j = m.sub y j := by
  refine ⟨now_write_ne ne, ?_⟩
  cases under with
  | top => exact ⟨top_writeTop_ne ne, fun y => rfl⟩
  | sub x => exact ⟨rfl, fun y => sub_writeSub_cell_ne ne⟩

theorem Whole.write (whole : m.Whole begun) (admits : m.Admits marks i under)
    (writes : m.Writes marks under) : (m.write i v under).Whole begun := by
  -- Only the written cell needs an argument; its first record is the value of the beginning.
  refine ⟨fun j => ?_, fun j => ?_, fun j => ?_⟩ <;> by_cases same : j = i
  · subst same
    cases under with
    | sub x => exact whole.top j
    | top =>
      rw [top_writeTop_self]
      rintro w ⟨rfl⟩
      cases noted : m.top j with
      | some w => exact whole.top j w noted
      | none => exact whole.untouched j noted (admits noted)
  · rw [(write_ne same).2.1]
    exact whole.top j
  · subst same
    cases under with
    | top =>
      rw [top_writeTop_self]
      exact nofun
    | sub x =>
      intro free y live w
      by_cases at_ : y = x
      · subst at_
        rw [sub_writeSub_self]
        rintro ⟨rfl⟩
        cases noted : m.sub y j with
        | some w => exact whole.recorded j free y live w noted
        | none => exact whole.untouched j free (admits noted).1
      · rw [sub_writeSub_ne at_]
        exact whole.recorded j free y live w
  · simp only [(write_ne same).2.1, (write_ne same).2.2, live_write]
    exact whole.recorded j
  · subst same
    cases under with
    | top =>
      rw [top_writeTop_self]
      exact nofun
    | sub x =>
      intro _ fresh
      have := fresh x writes.1
      rw [sub_writeSub_self] at this
      cases this
  · simp only [(write_ne same).1, (write_ne same).2.1, (write_ne same).2.2, live_write]
    exact whole.untouched j

theorem Restorable.write (restorable : m.Restorable mark) (mem : mark ∈ marks)
    (admits : m.Admits marks i under) (writes : m.Writes marks under) :
    (m.write i v under).Restorable mark := by
  refine ⟨fun y live since j => ?_, fun j => ?_, fun j => ?_⟩ <;> by_cases same : j = i
  · subst same
    rw [live_write] at live
    cases under with
    | top => exact restorable.recorded y live since j
    | sub x =>
      by_cases at_ : y = x
      · subst at_
        rw [sub_writeSub_self]
        rintro w ⟨rfl⟩
        cases noted : m.sub y j with
        | some w => exact restorable.recorded y live since j w noted
        | none => exact (admits noted).2 mark mem
      · rw [sub_writeSub_ne at_]
        exact restorable.recorded y live since j
  · rw [live_write] at live
    rw [(write_ne same).2.2]
    exact restorable.recorded y live since j
  · subst same
    cases under with
    | top =>
      rw [top_writeTop_self]
      rintro w free ⟨rfl⟩ fresh
      cases noted : m.top j with
      | some w => exact restorable.since j w free noted fresh
      | none => exact restorable.untouched j free noted fresh
    | sub x =>
      intro w _ _ fresh
      have := fresh x writes.1 (writes.2 mark mem)
      rw [sub_writeSub_self] at this
      cases this
  · simp only [(write_ne same).2.1, (write_ne same).2.2, live_write]
    exact restorable.since j
  · subst same
    cases under with
    | top =>
      rw [top_writeTop_self]
      exact nofun
    | sub x =>
      intro _ _ fresh
      have := fresh x writes.1 (writes.2 mark mem)
      rw [sub_writeSub_self] at this
      cases this
  · simp only [(write_ne same).1, (write_ne same).2.1, (write_ne same).2.2, live_write]
    exact restorable.untouched j

/-! ### Maps that agree on what a rollback reads -/

/-- The live subtransactions and their records are the same. -/
structure Agree (m m' : Maps I V) : Prop where
  now : m'.now = m.now
  top : m'.top = m.top
  live : m'.live = m.live
  sub : ∀ x ∈ m.live, m'.sub x = m.sub x

variable {m' : Maps I V}

omit [DecidableEq I] in
theorem Agree.whole (agree : m.Agree m') (whole : m.Whole begun) : m'.Whole begun := by
  obtain ⟨now, top, live, sub⟩ := agree
  refine ⟨?_, ?_, ?_⟩
  · rw [top]
    exact whole.top
  · rw [top, live]
    intro i free x mem
    rw [sub x mem]
    exact whole.recorded i free x mem
  · rw [top, live, now]
    intro i free fresh
    exact whole.untouched i free fun x mem => sub x mem ▸ fresh x mem

omit [DecidableEq I] in
theorem Agree.restorable (agree : m.Agree m') (restorable : m.Restorable mark) :
    m'.Restorable mark := by
  obtain ⟨now, top, live, sub⟩ := agree
  refine ⟨?_, ?_, ?_⟩
  · rw [live]
    intro x mem
    rw [sub x mem]
    exact restorable.recorded x mem
  · rw [top, live]
    intro i w free noted fresh
    exact restorable.since i w free noted fun x mem le => sub x mem ▸ fresh x mem le
  · rw [top, live, now]
    intro i free free' fresh
    exact restorable.untouched i free free' fun x mem le => sub x mem ▸ fresh x mem le

omit [DecidableEq I] in
/-- What the marks of a stack found is unchanged when the subtransactions before the newest mark
are. -/
theorem Stacked.agree (stacked : m.Stacked begun marks)
    (same : ∀ mark ∈ marks, (m.atMark mark).Agree (m'.atMark mark)) : m'.Stacked begun marks := by
  induction marks with
  | nil => trivial
  | cons mark below ih =>
    obtain ⟨⟨whole, lower⟩, rest⟩ := stacked
    have here := same mark (.head _)
    exact ⟨⟨here.whole whole, fun k mem => here.restorable (lower k mem)⟩,
      ih rest fun k mem => same k (mem_cons_of_mem mark mem)⟩

theorem atMark_write (writes : m.Writes marks under) (mem : mark ∈ marks) :
    (m.atMark mark).Agree ((m.write i v under).atMark mark) := by
  refine ⟨rfl, rfl, by simp [atMark, live_write], fun x live => ?_⟩
  cases under with
  | top => rfl
  | sub y =>
    have below := (mem_filter.mp live).2
    have above := writes.2 mark mem
    simp only [decide_eq_true_eq] at below
    exact sub_writeSub_ne (v := v) (by omega)

/-- **Writes**: an admitted write keeps the invariant. -/
theorem Inv.write (inv : m.Inv begun marks) (admits : m.Admits marks i under)
    (writes : m.Writes marks under) : (m.write i v under).Inv begun marks :=
  ⟨inv.whole.write admits writes, fun mark mem => (inv.restorable mark mem).write mem admits writes,
    inv.stacked.agree fun _ mem => atMark_write writes mem, inv.descending⟩

/-- A write leaves other first writes of the same statement admitted. -/
theorem Admits.write (admits : m.Admits marks j under) (writes : m.Writes marks under) :
    (m.write i v under).Admits marks j under := by
  by_cases same : j = i
  · subst same
    cases under with
    | top =>
      intro free
      rw [top_writeTop_self] at free
      cases free
    | sub x =>
      intro free
      rw [sub_writeSub_self] at free
      cases free
  cases under with
  | top =>
    intro free
    rw [top_writeTop_ne same] at free
    exact admits free
  | sub x =>
    intro free
    rw [sub_writeSub_cell_ne same] at free
    obtain ⟨fresh, unchanged⟩ := admits free
    refine ⟨fun y live => ?_, fun mark mem => ?_⟩
    · rw [sub_writeSub_cell_ne same]
      exact fresh y live
    · rw [now_write_ne same]
      exact unchanged mark mem

theorem Writes.write {under' : Under} (writes : m.Writes marks under') :
    (m.write i v under).Writes marks under' := by
  cases under' with
  | top => trivial
  | sub x => exact ⟨live_write (m := m) ▸ writes.1, writes.2⟩

/-! ### Marks -/

/-- Starts a subtransaction. -/
def addLive (m : Maps I V) (x : Nat) : Maps I V := { m with live := m.live ++ [x] }

/-- The mark of a savepoint that is established now. -/
def markNow (m : Maps I V) (x : Nat) : Mark I V := ⟨x, m.now, m.top⟩

omit [DecidableEq I]

variable {x : Nat}

theorem Whole.addLive (whole : m.Whole begun) (fresh : ∀ i, m.sub x i = none) :
    (m.addLive x).Whole begun := by
  refine ⟨whole.top, fun i free y mem v noted => ?_, fun i free unrecorded => ?_⟩
  · rcases mem_append.mp mem with mem | mem
    · exact whole.recorded i free y mem v noted
    cases mem_singleton.mp mem
    rw [show (m.addLive x).sub x i = none from fresh i] at noted
    cases noted
  · exact whole.untouched i free fun y mem => unrecorded y (mem_append_left _ mem)

theorem Restorable.addLive (restorable : m.Restorable mark) (fresh : ∀ i, m.sub x i = none) :
    (m.addLive x).Restorable mark := by
  refine ⟨fun y mem le i v noted => ?_, fun i w free noted unrecorded => ?_,
    fun i free free' unrecorded => ?_⟩
  · rcases mem_append.mp mem with mem | mem
    · exact restorable.recorded y mem le i v noted
    cases mem_singleton.mp mem
    rw [show (m.addLive x).sub x i = none from fresh i] at noted
    cases noted
  · exact restorable.since i w free noted fun y mem => unrecorded y (mem_append_left _ mem)
  · exact restorable.untouched i free free' fun y mem => unrecorded y (mem_append_left _ mem)

/-- The cells and the top record are those of the mark, and no live subtransaction of the mark or
after it has a record. -/
theorem Restorable.of_now (now : m.now = mark.now) (top : m.top = mark.top)
    (fresh : ∀ y ∈ m.live, mark.sub ≤ y → ∀ i, m.sub y i = none) : m.Restorable mark := by
  refine ⟨fun y mem le i v noted => ?_, fun i w free noted _ => ?_, fun i _ _ _ => ?_⟩
  · rw [fresh y mem le i] at noted
    cases noted
  · rw [top, free] at noted
    cases noted
  · rw [now]

/-- The subtransactions before a mark do not change when a later one starts. -/
theorem filter_lt_append {k : Nat} (le : k ≤ x) :
    (xs ++ [x]).filter (· < k) = xs.filter (· < k) := by
  have : ¬x < k := not_lt.mpr le
  simp [filter_append, this]

theorem filter_lt_self (newer : ∀ y ∈ xs, y < x) : xs.filter (· < x) = xs :=
  filter_eq_self.mpr fun y mem => decide_eq_true (newer y mem)

/-- The maps at the mark of a subtransaction just started are the maps before it. -/
theorem atMark_addLive (newer : ∀ y ∈ m.live, y < x) :
    m.Agree ((m.addLive x).atMark (m.markNow x)) :=
  ⟨rfl, rfl, (filter_lt_append (le_refl x)).trans (filter_lt_self newer), fun _ _ => rfl⟩

theorem atMark_addLive_older (older : mark.sub < x) :
    (m.atMark mark).Agree ((m.addLive x).atMark mark) :=
  ⟨rfl, rfl, filter_lt_append older.le, fun _ _ => rfl⟩

/-- **Savepoints**: a new mark with a new subtransaction keeps the invariant. -/
theorem Inv.establish (inv : m.Inv begun marks) (fresh : ∀ i, m.sub x i = none)
    (newer : ∀ y ∈ m.live, y < x) (older : ∀ k ∈ marks, k.sub < x) :
    (m.addLive x).Inv begun (m.markNow x :: marks) := by
  have lower : ∀ k ∈ marks, (m.addLive x).Restorable k := fun k mem =>
    (inv.restorable k mem).addLive fresh
  refine ⟨inv.whole.addLive fresh, ?_, ⟨⟨?_, ?_⟩, ?_⟩, pairwise_cons.mpr ⟨older, inv.descending⟩⟩
  · intro k mem
    rcases mem with _ | ⟨_, mem⟩
    · refine .of_now rfl rfl fun y live le i => ?_
      rcases mem_append.mp live with live | live
      · exact absurd (newer y live) (not_lt.mpr le)
      · cases mem_singleton.mp live
        exact fresh i
    · exact lower k mem
  · exact (atMark_addLive newer).whole inv.whole
  · exact fun k mem => (atMark_addLive newer).restorable (inv.restorable k mem)
  · exact inv.stacked.agree fun k mem => atMark_addLive_older (older k mem)

variable {below : List (Mark I V)}

theorem Stacked.suffix (stacked : m.Stacked begun marks)
    (suffix : below <:+ marks) : m.Stacked begun below := by
  obtain ⟨above, rfl⟩ := suffix
  induction above with
  | nil => exact stacked
  | cons k above ih => exact ih stacked.2

/-- **Release**: marks may be forgotten, the newest first. -/
theorem Inv.suffix (inv : m.Inv begun marks) (suffix : below <:+ marks) : m.Inv begun below :=
  ⟨inv.whole, fun k mem => inv.restorable k (suffix.subset mem), inv.stacked.suffix suffix,
    inv.descending.sublist suffix.sublist⟩

/-! ### Rollback -/

/-- A rollback to a mark; a new subtransaction `x` goes on in its place. -/
def rollbackTo (m : Maps I V) (mark : Mark I V) (x : Nat) : Maps I V :=
  { now := undoSubs m.sub (m.live.filter (mark.sub ≤ ·)) (m.backTo mark)
    top := mark.top
    sub := fun y => if y ∈ m.live ∧ mark.sub ≤ y then fun _ => none else m.sub y
    live := m.live.filter (· < mark.sub) ++ [x] }

/-- A rollback to a mark gives the cells of the mark. -/
theorem rollbackTo_now (restorable : m.Restorable mark) : (m.rollbackTo mark x).now = mark.now := by
  funext i
  refine undoSubs_eq (fun y mem w => ?_) fun fresh => ?_
  · obtain ⟨live, le⟩ := mem_filter.mp mem
    exact restorable.recorded y live (of_decide_eq_true le) i w
  have none_since : ∀ y ∈ m.live, mark.sub ≤ y → m.sub y i = none := fun y live le =>
    fresh y (mem_filter.mpr ⟨live, decide_eq_true le⟩)
  unfold backTo
  split
  · rfl
  rename_i free
  have free : mark.top i = none := by simpa using free
  cases noted : m.top i with
  | some w => exact restorable.since i w free noted none_since
  | none => exact restorable.untouched i free noted none_since

/-- A rollback of the whole transaction gives the cells of the beginning. -/
theorem rollbackAll_now (whole : m.Whole begun) :
    undo m.top (undoSubs m.sub m.live.reverse m.now) = begun := by
  funext i
  unfold undo
  cases noted : m.top i with
  | some w => exact whole.top i w noted
  | none =>
    refine undoSubs_eq (fun y mem w => ?_) fun fresh => ?_
    · exact whole.recorded i noted y (mem_reverse.mp mem) w
    · exact whole.untouched i noted fun y mem => fresh y (mem_reverse.mpr mem)

/-- After a rollback the maps are those that the mark found, with a new subtransaction. -/
theorem rollbackTo_agree (restorable : m.Restorable mark) (new : x ∉ m.live) :
    ((m.atMark mark).addLive x).Agree (m.rollbackTo mark x) := by
  refine ⟨rollbackTo_now restorable, rfl, rfl, fun y mem => if_neg fun rolled => ?_⟩
  rcases mem_append.mp mem with mem | mem
  · exact absurd (of_decide_eq_true (mem_filter.mp mem).2) (not_lt.mpr rolled.2)
  · cases mem_singleton.mp mem
    exact new rolled.1

/-- What the marks below found is not changed by a rollback. -/
theorem atMark_rollbackTo {older : Mark I V} (below : older.sub < mark.sub) (new : mark.sub < x) :
    (m.atMark older).Agree ((m.rollbackTo mark x).atMark older) := by
  refine ⟨rfl, rfl, ?_, fun y mem => if_neg fun rolled => ?_⟩
  · refine (filter_lt_append (below.trans new).le).trans ?_
    rw [filter_filter]
    refine filter_congr fun y _ => ?_
    by_cases lt : y < older.sub
    · simp [lt, lt_trans lt below]
    · simp [lt]
  · have := of_decide_eq_true (mem_filter.mp mem).2
    omega

/-- **Rollback to a savepoint** keeps the invariant, for the marks from that one on. -/
theorem Inv.rollbackTo (inv : m.Inv begun marks)
    (suffix : mark :: below <:+ marks) (fresh : ∀ i, m.sub x i = none) (newer : ∀ y ∈ m.live, y < x)
    (older : ∀ k ∈ marks, k.sub < x) :
    (m.rollbackTo mark x).Inv begun ({ mark with sub := x } :: below) := by
  have here : mark ∈ marks := suffix.subset (.head _)
  have new : x ∉ m.live := fun mem => lt_irrefl x (newer x mem)
  have agree := rollbackTo_agree (inv.restorable mark here) new
  obtain ⟨⟨whole, lower⟩, stacked⟩ := inv.stacked.suffix suffix
  obtain ⟨descending, rest⟩ := pairwise_cons.mp (inv.descending.sublist suffix.sublist)
  have unrecorded : ∀ y ∈ (m.rollbackTo mark x).live, x ≤ y →
      ∀ i, (m.rollbackTo mark x).sub y i = none := by
    intro y mem le i
    rcases mem_append.mp mem with mem | mem
    · exact absurd (newer y (mem_filter.mp mem).1) (not_lt.mpr le)
    cases mem_singleton.mp mem
    rw [agree.sub x (mem_append_right _ mem)]
    exact fresh i
  have found : (m.atMark mark).Agree ((m.rollbackTo mark x).atMark { mark with sub := x }) := by
    refine ⟨rfl, rfl, ?_, fun y mem => agree.sub y (mem_append_left _ mem)⟩
    refine (filter_lt_append (le_refl x)).trans (filter_lt_self fun y mem => ?_)
    exact newer y (mem_filter.mp mem).1
  refine ⟨agree.whole (whole.addLive fresh), fun k mem => ?_, ⟨⟨found.whole whole, ?_⟩, ?_⟩,
    pairwise_cons.mpr ⟨fun k mem => ?_, rest⟩⟩
  · rcases mem with _ | ⟨_, mem⟩
    · exact .of_now agree.now rfl unrecorded
    · exact agree.restorable ((lower k mem).addLive fresh)
  · exact fun k mem => found.restorable (lower k mem)
  · exact stacked.agree fun k mem => atMark_rollbackTo (descending k mem) (older mark here)
  · exact older k (suffix.subset (.tail _ mem))

end Maps

end Saguaro.Undo
