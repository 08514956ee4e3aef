/-
The engine as a pool of generations (`Saguaro.Reclaim`), and the condition on statements under
which the pool is safe.

`World.Orderly` is the condition. A statement changes an object only when no other open
transaction or subtransaction has changed it; it takes an object off its storage only when the
installed generation is the only one held that uses the storage, and when no open transaction
would remove the storage's files at once; what a transaction has put on new storage it only
moves to other new storage; TRUNCATE is not run under a savepoint.
-/

import Saguaro.Relations.World
import Saguaro.Relations.Restore
import Saguaro.Lib.Reclaim

namespace Saguaro.Relations

open StorageState Reclaim AList Entry List

/-! ### The condition -/

/-- The storage that a new entry is on. -/
def NewEntry.store? : NewEntry → Option Store
  | .relation r _ => some r.store
  | _ => none

/-- The new entry is a live relation on the storage of `g`. -/
def NewEntry.keeps (g : Generation) : NewEntry → Bool
  | .relation r dropped => r.store = g.relation.store && !dropped
  | _ => false

/-- `g` is on other storage than the entry before it. -/
def Generation.moved (previous : Option Entry) (g : Generation) : Bool :=
  (previous.bind generation?).all fun h => h.relation.store ≠ g.relation.store

namespace World

variable (w : World)

/-- No other open id has recorded the object. -/
def Alone (x : Nat) (id : ObjectId) : Prop :=
  ∀ e ∈ w.state.rollback.entries, e.1 ≠ x → id ∉ e.2.before.keys

instance (x : Nat) (id : ObjectId) : Decidable (w.Alone x id) :=
  inferInstanceAs (Decidable (∀ _ ∈ _, _ → _))

/-- The only live generation of its storage that is held. -/
def Sole (g : Generation) : Prop :=
  ∀ e ∈ w.held, e.2.dropped = false → e.2.relation.store = g.relation.store → e.2.arc = g.arc

instance (g : Generation) : Decidable (w.Sole g) := inferInstanceAs (Decidable (∀ _ ∈ _, _ → _ → _))

/-- No open transaction has the storage's files among its unpublished ones. -/
def Published (store : Store) : Prop :=
  ∀ e ∈ w.state.rollback.entries, ∀ f ∈ e.2.unpublishedFiles, f.store ≠ store

instance (store : Store) : Decidable (w.Published store) :=
  inferInstanceAs (Decidable (∀ _ ∈ _, ∀ _ ∈ _, _))

/-- The condition on a touch. -/
def Admits (x : Nat) (touch : Touch) : Prop := w.Alone x touch.id ∧ ∀ g ∈ w.installed touch.id,
    (touch.new.keeps g = true ∨ (w.Sole g ∧ w.Published g.relation.store)) ∧
    ∀ previous ∈ w.state.recorded x touch.id, g.moved previous = true →
      touch.new.store? ≠ some g.relation.store

instance (x : Nat) (touch : Touch) : Decidable (w.Admits x touch) :=
  inferInstanceAs (Decidable (_ ∧ ∀ _ ∈ _, _ ∧ ∀ _ ∈ _, _ → _))

/-- The condition on one table of a transactional TRUNCATE. When the transaction has changed
the table before, so it has the table's indexes and its TOAST table. -/
def AdmitsUpdate (x : Nat) (update : TruncateUpdate) : Prop :=
  w.Each (fun w => w.Admits x) x update.touches ∧
  ((w.state.recorded x (.table update.table.id)).isSome = true →
    ∀ touch ∈ update.touches, (w.state.recorded x touch.id).isSome = true)

instance (x : Nat) (update : TruncateUpdate) : Decidable (w.AdmitsUpdate x update) :=
  inferInstanceAs (Decidable (_ ∧ (_ → ∀ _ ∈ _, _)))

def OrderlyStatement (txnId : Nat) (block : Block) : Session.Statement → Prop
  | .ddl ddl made =>
    let x := w.writingXid txnId block
    let (touches, files) := ddl.effect w.state
    (w.withState (w.state.addUnpublished x files)).Each (fun w => w.Admits x) x (touches.take made)
  | .prepareTruncate _ => block.savepoints.isEmpty = true
  | .publishTruncate updates =>
    block.savepoints.isEmpty = true ∧ w.EachUpdate (fun w => w.AdmitsUpdate txnId) txnId updates
  | _ => True

instance (txnId : Nat) (block : Block) (statement : Session.Statement) :
    Decidable (w.OrderlyStatement txnId block statement) := by
  cases statement <;> unfold OrderlyStatement <;> infer_instance

/-- The condition on an action. -/
def Orderly : Action → Prop
  | .statement txnId statement => ∀ block ∈ w.running txnId, w.OrderlyStatement txnId block statement
  | .startIndex txnId schema => ∀ block ∈ w.running txnId,
      w.Alone (w.writingXid txnId block) (.index schema.id)
  | .publishTruncate _ updates => (w.publishing updates).Each (fun w => w.Admits 0) 0
      (updates.flatMap TruncateUpdate.touches)
  | .setTableSchema schema => w.Alone 0 (.table schema.id)
  | _ => True

instance (action : Action) : Decidable (w.Orderly action) := by
  cases action <;> unfold Orderly <;> infer_instance

end World

/-! ### The pool -/

def Generation.gen (g : Generation) : Gen Store := ⟨g.arc, g.relation.store, !g.dropped⟩

/-- The generation of an entry, if it has one. -/
def entryGen (entry : Option Entry) : Option (Gen Store) :=
  (entry.bind generation?).map Generation.gen

def RetiredGeneration.retired (r : RetiredGeneration) : Retired Store :=
  ⟨{s | ∃ f ∈ r.files, f.store = s}, {arc | arc ∈ r.refs}⟩

def World.pool (w : World) : Pool ObjectId Store where
  cur id := entryGen (w.state.cells id)
  before x id := (w.state.recorded x id).map entryGen
  unpub x := {s | ∃ f ∈ w.unpublished x, f.store = s}
  retired := {R | ∃ r ∈ w.retirements, r.retired = R}
  doomed := {s | (∃ f ∈ w.doomed, f.store = s) ∨ ∃ r ∈ w.candidates, ∃ f ∈ r.files, f.store = s}
  snaps := {σ | ∃ objects ∈ w.snapshots, (fun id => entryGen (objects.lookup id)) = σ}

theorem entryGen_eq_some {entry : Option Entry} {h : Gen Store} :
    entryGen entry = some h ↔ ∃ g, entry = some (.generation g) ∧ g.gen = h := by
  unfold entryGen
  cases entry with
  | none => simp
  | some e => cases e <;> simp [generation?]

theorem generation?_eq_some {entry : Option Entry} {g : Generation} :
    entry.bind generation? = some g ↔ entry = some (.generation g) := by
  cases entry with
  | none => simp
  | some e => cases e <;> simp [generation?]

theorem Objects.mem_generations {objects : Objects} {id : ObjectId} {g : Generation} :
    (id, g) ∈ objects.generations ↔ objects.lookup id = some (.generation g) := by
  unfold generations
  rw [mem_filterMap]
  constructor
  · rintro ⟨⟨id', entry⟩, mem, found⟩
    obtain ⟨g', eq, ⟨⟩⟩ := Option.map_eq_some_iff.mp found
    have := generation?_eq_some.mp (show (some entry).bind generation? = some g from eq)
    cases this
    exact mem_lookup_iff.mpr mem
  · intro found
    exact ⟨⟨id, .generation g⟩, mem_lookup_iff.mp found, rfl⟩

theorem Before.mem_generations {prior : Before} {id : ObjectId} {g : Generation} :
    (id, g) ∈ prior.generations ↔ prior.lookup id = some (some (.generation g)) := by
  unfold generations
  rw [mem_filterMap]
  constructor
  · rintro ⟨⟨id', entry⟩, mem, found⟩
    obtain ⟨g', eq, ⟨⟩⟩ := Option.map_eq_some_iff.mp found
    cases generation?_eq_some.mp eq
    exact mem_lookup_iff.mpr mem
  · intro found
    exact ⟨⟨id, some (.generation g)⟩, mem_lookup_iff.mp found, rfl⟩

namespace World

variable {w : World} {x y : Nat} {id : ObjectId} {g : Generation} {h : Gen Store} {s : Store}

theorem recorded_eq_some {state : StorageState} {v : Option Entry} : state.recorded x id = some v ↔
      ∃ r, state.rollback.lookup x = some r ∧ r.before.lookup id = some v := by
  exact Option.bind_eq_some_iff

/-- What the pool holds is held. -/
theorem held_of_pool (held : w.pool.HeldAt id h) : ∃ g, (id, g) ∈ w.held ∧ g.gen = h := by
  unfold World.held
  rcases held with now | ⟨x, noted⟩ | ⟨σ, ⟨objects, mem, rfl⟩, snap⟩
  · obtain ⟨g, here, eq⟩ := entryGen_eq_some.mp now
    exact ⟨g, by simp [Objects.mem_generations, show w.state.objects.lookup id = _ from here], eq⟩
  · obtain ⟨v, prior, entry⟩ := Option.map_eq_some_iff.mp noted
    obtain ⟨g, rfl, eq⟩ := entryGen_eq_some.mp entry
    obtain ⟨r, found, here⟩ := recorded_eq_some.mp prior
    refine ⟨g, ?_, eq⟩
    simp only [mem_append, mem_flatMap]
    exact .inl (.inl (.inr ⟨⟨x, r⟩, mem_lookup_iff.mp found, Before.mem_generations.mpr here⟩))
  obtain ⟨g, here, eq⟩ := entryGen_eq_some.mp snap
  refine ⟨g, ?_, eq⟩
  simp only [mem_append, mem_flatMap]
  exact .inr ⟨objects, mem, Objects.mem_generations.mpr here⟩

theorem mem_unpub : s ∈ w.pool.unpub x ↔
    ∃ r, w.state.rollback.lookup x = some r ∧ ∃ f ∈ r.unpublishedFiles, f.store = s := by
  change (∃ f ∈ w.unpublished x, f.store = s) ↔ _
  unfold unpublished
  cases found : w.state.rollback.lookup x with
  | none => simp
  | some r => simp

/-- No other id has a record of an object that `x` alone uses. -/
theorem Alone.before (alone : w.Alone x id) (ne : y ≠ x) : w.pool.before y id = none := by
  change (w.state.recorded y id).map entryGen = none
  cases noted : w.state.recorded y id with
  | none => rfl
  | some v =>
    obtain ⟨r, found, here⟩ := recorded_eq_some.mp noted
    have mem : id ∈ r.before.keys := mem_keys_iff.mpr (by rw [here]; rfl)
    exact absurd mem (alone ⟨y, r⟩ (mem_lookup_iff.mp found) ne)

theorem Sole.pool (sole : w.Sole g) : w.pool.Sole g.gen := by
  intro i h held live same
  obtain ⟨g', mem, rfl⟩ := held_of_pool held
  exact sole (i, g') mem (by simpa [Generation.gen] using live) same

theorem Published.pool (pub : w.Published s) : s ∉ w.pool.unpub x := by
  intro mem
  obtain ⟨r, found, f, listed, rfl⟩ := mem_unpub.mp mem
  exact pub ⟨x, r⟩ (mem_lookup_iff.mp found) f listed rfl

theorem Free.pool (free : w.Free x s) : w.pool.Free x s where
  unheld i h held := by
    obtain ⟨g, mem, rfl⟩ := held_of_pool held
    exact free.1 (i, g) mem
  unpub y ne mem := by
    obtain ⟨r, found, f, listed, same⟩ := mem_unpub.mp mem
    exact free.2.1 ⟨y, r⟩ (mem_lookup_iff.mp found) ne f listed same
  retired := by
    rintro R ⟨r, mem, rfl⟩ ⟨f, listed, same⟩
    exact free.2.2.1 r (mem_append_left _ mem) f listed same
  doomed := by
    rintro (⟨f, mem, same⟩ | ⟨r, mem, f, listed, same⟩)
    · exact free.2.2.2 f mem same
    · exact free.2.2.1 r (mem_append_right _ mem) f listed same

/-- What a touch installs, for the pool. -/
def newGen (w : World) (touch : Touch) : Option (Gen Store) :=
  entryGen (touch.new.entry w.state.nextArc)

theorem newGen_eq_some {touch : Touch} : w.newGen touch = some h ↔
    ∃ r dropped, touch.new = .relation r dropped ∧ h = ⟨w.state.nextArc, r.store, !dropped⟩ := by
  unfold newGen
  rw [entryGen_eq_some]
  cases touch.new with
  | relation r dropped =>
    constructor
    · rintro ⟨g, ⟨⟩, rfl⟩
      exact ⟨r, dropped, rfl, rfl⟩
    · rintro ⟨r', dropped', ⟨⟩, rfl⟩
      exact ⟨_, rfl, rfl⟩
  | _ => simp [NewEntry.entry]

theorem pool_cur : w.pool.cur id = (w.installed id).map Generation.gen := rfl

theorem moved_pool {v : Option Entry} (moved : Pool.Moved (entryGen v) g.gen) :
    g.moved v = true := by
  unfold Generation.moved
  cases found : v.bind generation? with
  | none => rfl
  | some p =>
    have : entryGen v = some p.gen := by
      unfold entryGen
      rw [found]
      rfl
    exact decide_eq_true (moved p.gen this)

/-- The condition on a touch and the allocation of its storage, for the pool. -/
theorem Admits.pool {touch : Touch} (admits : w.Admits x touch) (allocated : w.Allocated x touch) :
    w.pool.Admits x touch.id (w.newGen touch) where
  others _ ne := admits.1.before ne
  replaces h current := by
    obtain ⟨g, installed, rfl⟩ := Option.map_eq_some_iff.mp (pool_cur ▸ current)
    rcases (admits.2 g installed).1 with keeps | ⟨sole, published⟩
    · refine .inl ?_
      unfold NewEntry.keeps at keeps
      split at keeps
      · rename_i r dropped new
        simp only [Bool.and_eq_true, decide_eq_true_eq] at keeps
        exact ⟨_, newGen_eq_some.mpr ⟨r, dropped, new, rfl⟩, keeps.2, keeps.1⟩
      · cases keeps
    · exact .inr ⟨sole.pool, fun y => published.pool⟩
  made v h recorded current moved k new same := by
    obtain ⟨g, installed, rfl⟩ := Option.map_eq_some_iff.mp (pool_cur ▸ current)
    obtain ⟨previous, before, rfl⟩ := Option.map_eq_some_iff.mp recorded
    obtain ⟨r, dropped, eq, rfl⟩ := newGen_eq_some.mp new
    refine (admits.2 g installed).2 previous before (moved_pool moved) ?_
    rw [eq]
    exact congrArg some same
  origin k new := by
    obtain ⟨r, dropped, eq, rfl⟩ := newGen_eq_some.mp new
    unfold Allocated at allocated
    rw [eq] at allocated
    rcases allocated with same | ⟨rfl, free⟩
    · cases installed : w.installed touch.id with
      | none =>
        rw [installed] at same
        cases same
      | some g =>
        rw [installed] at same
        simp only [Option.any_some, Bool.and_eq_true, decide_eq_true_eq, Bool.or_eq_true] at same
        refine .inl ⟨g.gen, ?_, same.1, fun live => ?_⟩
        · rw [pool_cur, installed]
          rfl
        rcases same.2 with drop | alive
        · rw [drop] at live
          cases live
        · exact alive
    · exact .inr ⟨free.pool, rfl⟩

end World

/-- The kind of a relation is that of its object. -/
def Relation.fits : ObjectId → Relation → Bool
  | .table _, .table _ => true
  | .index _, .index _ => true
  | _, _ => false

def Fits (id : ObjectId) (entry : Option Entry) : Prop :=
  ∀ g, entry = some (.generation g) → g.relation.fits id = true

theorem Relation.storageId_of_store {r r' : Relation} (same : r.store = r'.store) :
    r.storageId = r'.storageId := by
  cases r <;> cases r' <;> simp_all [Relation.store, Relation.storageId]

/-- Relations of one object with one storage id share their files. -/
theorem Relation.store_of_storageId {r r' : Relation} {id : ObjectId} (fits : r.fits id = true)
    (fits' : r'.fits id = true) (same : r.storageId = r'.storageId) : r.store = r'.store := by
  cases id <;> cases r <;> cases r' <;> simp_all [Relation.fits, Relation.store, Relation.storageId]

/-! ### Undo records -/

namespace StorageState

/-- The unpublished files of an id. -/
def unpublishedOf (s : StorageState) (x : Nat) : List FileId :=
  (s.rollback.lookup x).elim [] TxnRollback.unpublishedFiles

/-- The superseded generations of an id. -/
def supersededOf (s : StorageState) (x : Nat) : List RetiredGeneration :=
  (s.rollback.lookup x).elim [] TxnRollback.supersededGenerations

variable {s : StorageState} {x y : Nat}

variable {f : TxnRollback → TxnRollback}

section Lists

variable {α : Type} {list : TxnRollback → List α}

/-- A list of the undo records, after the record of one id has changed. -/
theorem elim_withRollback {g : List α → List α} (none : list .default = [])
    (acts : ∀ r, list (f r) = g (list r)) :
    ((s.withRollback x f).rollback.lookup y).elim [] list = if y = x then
      g ((s.rollback.lookup x).elim [] list) else (s.rollback.lookup y).elim [] list := by
  unfold withRollback
  simp only [lookup_insert_if]
  split
  · rw [Option.elim_some, acts]
    cases s.rollback.lookup x with
    | none => exact congrArg g none
    | some => rfl
  · rfl

/-- The change does not touch the list. -/
theorem elim_withRollback_keeps (none : list .default = []) (keeps : ∀ r, list (f r) = list r) :
    ((s.withRollback x f).rollback.lookup y).elim [] list = (s.rollback.lookup y).elim [] list := by
  rw [elim_withRollback (g := id) none keeps]
  split
  · subst y
    rfl
  · rfl

end Lists

theorem unpublishedOf_recordBefore (id : ObjectId) :
    (s.recordBefore x id).unpublishedOf y = s.unpublishedOf y := by
  unfold recordBefore
  split
  · rfl
  · exact elim_withRollback_keeps rfl fun _ => rfl

theorem supersededOf_recordBefore (id : ObjectId) :
    (s.recordBefore x id).supersededOf y = s.supersededOf y := by
  unfold recordBefore
  split
  · rfl
  · exact elim_withRollback_keeps rfl fun _ => rfl

theorem retiredGenerations_recordBefore (id : ObjectId) :
    (s.recordBefore x id).retiredGenerations = s.retiredGenerations := by
  unfold recordBefore
  split <;> rfl

theorem nextArc_recordBefore (id : ObjectId) : (s.recordBefore x id).nextArc = s.nextArc := by
  unfold recordBefore
  split <;> rfl

theorem recorded_recordBefore_eq (id : ObjectId) : (s.recordBefore x id).recorded y =
    if y = x ∧ x ≠ 0 then Undo.Maps.record (s.recorded x) id (s.cells id) else s.recorded y := by
  by_cases same : y = x
  · subst same
    by_cases zero : y = 0
    · unfold recordBefore
      simp [zero]
    · rw [recorded_recordBefore zero]
      simp [zero]
  · rw [recorded_recordBefore_ne same]
    simp [same]

theorem nextArc_touch (t : Touch) : (s.touch x t).nextArc = s.nextArc + 1 :=
  congrArg (· + 1) (nextArc_recordBefore t.id)

/-- A touch installs its entry. -/
theorem cells_touch (t : Touch) :
    (s.touch x t).cells = Function.update s.cells t.id (t.new.entry s.nextArc) := by
  change ((s.recordBefore x t.id).install t).cells = _
  rw [cells_install, cells_recordBefore, nextArc_recordBefore]

/-- A touch records what was there, unless it is recorded. -/
theorem recorded_touch (t : Touch) : (s.touch x t).recorded y =
    if y = x ∧ x ≠ 0 then Undo.Maps.record (s.recorded x) t.id (s.cells t.id) else s.recorded y :=
  recorded_recordBefore_eq t.id

theorem unpublishedOf_addUnpublished (files : List FileId) :
    (s.addUnpublished x files).unpublishedOf y =
      if y = x ∧ x ≠ 0 then s.unpublishedOf x ++ files else s.unpublishedOf y := by
  unfold addUnpublished
  by_cases zero : x = 0
  · simp [zero]
  rw [if_neg zero]
  refine (elim_withRollback (g := (· ++ files)) rfl fun _ => rfl).trans ?_
  simp [zero, unpublishedOf]

theorem supersededOf_addUnpublished (files : List FileId) :
    (s.addUnpublished x files).supersededOf y = s.supersededOf y := by
  unfold addUnpublished
  split
  · rfl
  · exact elim_withRollback_keeps rfl fun _ => rfl

theorem retiredGenerations_addUnpublished (files : List FileId) :
    (s.addUnpublished x files).retiredGenerations = s.retiredGenerations := by
  unfold addUnpublished
  split <;> rfl

end StorageState

namespace World

variable {w : World} {x y : Nat}

variable {r : RetiredGeneration}

/-- What awaits removal: retired now, or once its id settles. -/
theorem mem_retirements : r ∈ w.retirements ↔
    r ∈ w.state.retiredGenerations ∨ ∃ x, r ∈ w.state.supersededOf x := by
  unfold retirements StorageState.supersededOf
  rw [mem_append, mem_flatMap]
  refine or_congr Iff.rfl ⟨?_, ?_⟩
  · rintro ⟨⟨x, undo⟩, mem, listed⟩
    refine ⟨x, ?_⟩
    rw [show w.state.rollback.lookup x = some undo from mem_lookup_iff.mpr mem]
    exact listed
  rintro ⟨x, listed⟩
  cases found : w.state.rollback.lookup x with
  | none =>
    rw [found] at listed
    cases listed
  | some undo =>
    rw [found] at listed
    exact ⟨⟨x, undo⟩, mem_lookup_iff.mp found, listed⟩

/-- A change of one entry under `x` changes the pool at one object. -/
theorem touched_of {s' : StorageState} {id : ObjectId} (entry : Option Entry)
    (alone : w.Alone x id) (zero : w.state.rollback.lookup 0 = none)
    (cells : s'.cells = Function.update w.state.cells id entry)
    (recorded : ∀ y, s'.recorded y = if y = x ∧ x ≠ 0 then
      Undo.Maps.record (w.state.recorded x) id (w.state.cells id) else w.state.recorded y)
    (unpub : ∀ y, s'.unpublishedOf y = w.state.unpublishedOf y)
    (superseded : ∀ y, s'.supersededOf y = w.state.supersededOf y)
    (retired : s'.retiredGenerations = w.state.retiredGenerations) :
    w.pool.Touched (w.withState s').pool x id (entryGen entry) where
  cur := by
    funext j
    change entryGen (s'.cells j) = _
    rw [cells, Function.update_apply, Function.update_apply]
    split <;> rfl
  before y j v before := by
    change (s'.recorded y j).map entryGen = some v at before
    rw [recorded] at before
    by_cases here : j = id
    · subst here
      refine .inr ⟨rfl, ?_⟩
      split at before
      · rename_i which
        refine ⟨which.1, ?_⟩
        rw [Undo.Maps.record, Function.update_self] at before
        change (w.state.recorded x j).map entryGen = some v ∨
          ((w.state.recorded x j).map entryGen = none ∧ v = entryGen (w.state.cells j))
        cases old : w.state.recorded x j with
        | some u =>
          rw [old] at before
          exact .inl before
        | none =>
          rw [old] at before
          exact .inr ⟨rfl, (Option.some.inj before).symm⟩
      have same : y = x := by
        by_contra ne
        have none_ := alone.before ne
        rw [show w.pool.before y j = some v from before] at none_
        cases none_
      subst same
      exact ⟨rfl, .inl before⟩
    · refine .inl ⟨here, ?_⟩
      split at before
      · rename_i which
        rw [Undo.Maps.record, Function.update_of_ne here] at before
        rw [which.1]
        exact before
      · exact before
  kept y j v before := by
    change (s'.recorded y j).map entryGen = some v
    rw [recorded]
    split
    · rename_i which
      obtain ⟨u, old, rfl⟩ := Option.map_eq_some_iff.mp before
      rw [which.1] at old
      by_cases here : j = id
      · subst here
        rw [Undo.Maps.record, Function.update_self, old]
        rfl
      · rw [Undo.Maps.record, Function.update_of_ne here, old]
        rfl
    · exact before
  unpub := by
    funext y
    change {s | ∃ f ∈ s'.unpublishedOf y, f.store = s} = _
    rw [unpub]
    rfl
  recorded := by
    rintro ⟨s, f, listed, -⟩
    have used : x ≠ 0 := by
      rintro rfl
      unfold unpublished at listed
      rw [zero] at listed
      cases listed
    change ∃ v, (s'.recorded x id).map entryGen = some v
    rw [recorded, if_pos ⟨rfl, used⟩, Undo.Maps.record, Function.update_self]
    exact ⟨_, rfl⟩
  retired := by
    ext R
    refine exists_congr fun r => and_congr ?_ Iff.rfl
    rw [mem_retirements, mem_retirements]
    change r ∈ s'.retiredGenerations ∨ (∃ y, r ∈ s'.supersededOf y) ↔ _
    simp [retired, superseded]
  doomed := rfl
  snaps := rfl

theorem touched {touch : Touch} (alone : w.Alone x touch.id)
    (zero : w.state.rollback.lookup 0 = none) :
    w.pool.Touched (w.withState (w.state.touch x touch)).pool x touch.id (w.newGen touch) :=
  touched_of _ alone zero (cells_touch touch) (fun _ => recorded_touch touch)
    (fun _ => unpublishedOf_recordBefore touch.id) (fun _ => supersededOf_recordBefore touch.id)
    (retiredGenerations_recordBefore touch.id)

/-- Free storage becomes unpublished storage of `x`. -/
theorem prepared {files : List FileId} (free : ∀ f ∈ files, w.Free x f.store) :
    w.pool.Prepared (w.withState (w.state.addUnpublished x files)).pool x where
  cur := funext fun id => congrArg entryGen (congrFun (cells_addUnpublished files) id)
  before := by
    funext y id
    exact congrArg (Option.map entryGen) (congrFun (recorded_addUnpublished files) id)
  unpub y s mem := by
    obtain ⟨f, listed, rfl⟩ := mem
    change f ∈ (w.state.addUnpublished x files).unpublishedOf y at listed
    rw [unpublishedOf_addUnpublished] at listed
    split at listed
    · rename_i which
      rcases mem_append.mp listed with old | new
      · exact .inl ⟨f, which.1 ▸ old, rfl⟩
      · exact .inr ⟨which.1, (free f new).pool⟩
    · exact .inl ⟨f, listed, rfl⟩
  retired := by
    rintro R ⟨r, mem, rfl⟩
    refine ⟨r, ?_, rfl⟩
    rw [mem_retirements] at mem ⊢
    rcases mem with mem | ⟨y, mem⟩
    · refine .inl ?_
      change r ∈ (w.state.addUnpublished x files).retiredGenerations at mem
      rwa [retiredGenerations_addUnpublished] at mem
    · refine .inr ⟨y, ?_⟩
      change r ∈ (w.state.addUnpublished x files).supersededOf y at mem
      rwa [supersededOf_addUnpublished] at mem
  doomed := fun _ mem => mem
  snaps := rfl

/-! ### The end of a transaction -/

/-- A retired generation was current, and on other storage than what replaces it. -/
theorem moved_of_retireReplaced {now prev : Option Entry} {g : Generation}
    (mem : g ∈ retireReplaced now prev) :
    now = some (.generation g) ∧ Pool.Moved (entryGen prev) g.gen := by
  unfold retireReplaced at mem
  cases found : now.bind generation? with
  | none =>
    rw [found] at mem
    cases mem
  | some g' =>
    rw [found] at mem
    dsimp only at mem
    split at mem
    · cases mem
    rename_i other
    cases mem_singleton.mp mem
    refine ⟨generation?_eq_some.mp found, fun h eq same => other ?_⟩
    obtain ⟨p, rfl, rfl⟩ := entryGen_eq_some.mp eq
    exact decide_eq_true (Relation.storageId_of_store same)

/-- The converse, when both are of the kind of their object. -/
theorem retireReplaced_of_moved {now prev : Option Entry} {id : ObjectId} {g : Generation}
    (here : now = some (.generation g)) (moved : Pool.Moved (entryGen prev) g.gen)
    (fits : Fits id now) (fits' : Fits id prev) : g ∈ retireReplaced now prev := by
  subst here
  change g ∈ if _ then [] else [g]
  rw [if_neg]
  · exact mem_singleton.mpr rfl
  intro same
  cases found : prev.bind generation? with
  | none =>
    rw [found] at same
    cases same
  | some p =>
    rw [found] at same
    have previous_ := generation?_eq_some.mp found
    refine moved p.gen (entryGen_eq_some.mpr ⟨p, previous_, rfl⟩) ?_
    exact Relation.store_of_storageId (fits' p previous_) (fits g rfl) (of_decide_eq_true same)

/-- What the undo of an id replaces. -/
theorem mem_foldl_putBack {ents : List (Sigma fun _ : ObjectId => Option Entry)}
    (uniq : ents.NodupKeys) (acc : List Generation × Objects) (g : Generation) :
    g ∈ (ents.foldl (fun acc e => putBack acc e.1 e.2) acc).1 ↔
      g ∈ acc.1 ∨ ∃ e ∈ ents, g ∈ retireReplaced (acc.2.lookup e.1) e.2 := by
  induction ents generalizing acc with
  | nil => simp
  | cons e rest ih =>
    obtain ⟨first, rest_distinct⟩ := nodupKeys_cons.mp uniq
    rw [foldl_cons, ih rest_distinct]
    have same : ∀ e' ∈ rest, (putBack acc e.1 e.2).2.lookup e'.1 = acc.2.lookup e'.1 := by
      intro e' mem
      have ne : e'.1 ≠ e.1 := fun eq => first (eq ▸ mem_keys_of_mem mem)
      exact (Objects.lookup_set _ _ _ _).trans (if_neg ne)
    simp only [putBack, mem_append, exists_mem_cons_iff, or_assoc]
    refine or_congr Iff.rfl (or_congr Iff.rfl (exists_congr fun e' => and_congr_right fun mem => ?_))
    rw [← same e' mem]
    rfl

/-- The records of an id go when its transaction ends. -/
theorem erased_before {s s' : StorageState}
    (erased : ∀ y, s'.rollback.lookup y = if y = x then none else s.rollback.lookup y)
    (y : Nat) (id : ObjectId) (v : Option (Gen Store)) :
    (w.withState s').pool.before y id = some v ↔ y ≠ x ∧ (w.withState s).pool.before y id = some v := by
  change (s'.recorded y id).map entryGen = some v ↔ y ≠ x ∧ (s.recorded y id).map entryGen = some v
  unfold recorded
  rw [erased]
  by_cases same : y = x
  · simp [same]
  · simp [same]

theorem erased_unpub {s s' : StorageState}
    (erased : ∀ y, s'.rollback.lookup y = if y = x then none else s.rollback.lookup y)
    (y : Nat) (store : Store) (mem : store ∈ (w.withState s').pool.unpub y) :
    y ≠ x ∧ store ∈ (w.withState s).pool.unpub y := by
  obtain ⟨r, found, rest⟩ := mem_unpub.mp mem
  change s'.rollback.lookup y = some r at found
  rw [erased] at found
  split at found
  · cases found
  · exact ⟨‹_›, mem_unpub.mpr ⟨r, found, rest⟩⟩

theorem erased_retired {s s' : StorageState} {retired : RetiredGeneration}
    (erased : ∀ y, s'.rollback.lookup y = if y = x then none else s.rollback.lookup y)
    (list : ∀ r ∈ s'.retiredGenerations,
      r ∈ s.retiredGenerations ∨ r = retired ∨ r ∈ s.supersededOf x)
    (mem : r ∈ (w.withState s').retirements) : r ∈ (w.withState s).retirements ∨ r = retired := by
  rw [mem_retirements] at mem ⊢
  rcases mem with mem | ⟨y, mem⟩
  · rcases list r mem with old | new | superseded
    · exact .inl (.inl old)
    · exact .inr new
    · exact .inl (.inr ⟨x, superseded⟩)
  refine .inl (.inr ⟨y, ?_⟩)
  change r ∈ s'.supersededOf y at mem
  unfold supersededOf at mem
  rw [erased] at mem
  split at mem
  · cases mem
  · exact mem

theorem mem_retire_files {gens : List Generation} {f : FileId} :
    f ∈ (retire gens []).files ↔ ∃ g ∈ gens, f.store = g.relation.store := by
  unfold retire
  rw [nil_append, mem_flatMap]
  exact exists_congr fun g => and_congr_right fun _ => Relation.mem_files

theorem mem_retire_refs {gens : List Generation} {files : List FileId} {g : Generation}
    (mem : g ∈ gens) : g.gen.ref ∈ (retire gens files).retired.refs := mem_map.mpr ⟨g, mem, rfl⟩

/-- The engine after `rollback_txn`, with the files that it is going to remove. -/
def afterUndo (w : World) (x : Nat) : World := { w with
    state := (w.state.rollbackTxn x).1
    doomed := w.doomed ++ (w.state.rollbackTxn x).2 }

/-- The generations that `rollback_txn` retires. -/
def undoes (s : StorageState) (x : Nat) : List Generation :=
  (s.rollback.lookup x).elim [] fun rollback =>
    (rollback.before.entries.foldl (fun acc e => putBack acc e.1 e.2) ([], s.objects)).1

/-- A rollback retires what it replaces. -/
theorem mem_undoes {s : StorageState} {g : Generation} : g ∈ undoes s x ↔
    ∃ id v, s.recorded x id = some v ∧ g ∈ retireReplaced (s.objects.lookup id) v := by
  unfold undoes
  cases found : s.rollback.lookup x with
  | none => simp [StorageState.recorded, found]
  | some undo =>
    simp only [Option.elim_some]
    rw [mem_foldl_putBack undo.before.nodupKeys]
    simp only [not_mem_nil, false_or, StorageState.recorded, found, Option.bind_some]
    constructor
    · rintro ⟨⟨id, v⟩, mem, here⟩
      exact ⟨id, v, mem_lookup_iff.mpr mem, here⟩
    · rintro ⟨id, v, mem, here⟩
      exact ⟨⟨id, v⟩, mem_lookup_iff.mp mem, here⟩

/-- The list that a commit and a rollback leave. -/
theorem mem_settled {s : StorageState} {undo : TxnRollback} {gens : List Generation}
    (found : s.rollback.lookup x = some undo)
    (mem : r ∈ s.retiredGenerations ++ (if (retire gens []).files = [] then [] else [retire gens []]) ++
      undo.supersededGenerations) :
    r ∈ s.retiredGenerations ∨ r = retire gens [] ∨ r ∈ s.supersededOf x := by
  rw [supersededOf, found]
  simp only [mem_append] at mem
  rcases mem with (mem | mem) | mem
  · exact .inl mem
  · split at mem
    · cases mem
    · exact .inr (.inl (mem_singleton.mp mem))
  · exact .inr (.inr mem)

theorem retiredGenerations_rollbackTxn {s : StorageState}
    (mem : r ∈ (s.rollbackTxn x).1.retiredGenerations) :
    r ∈ s.retiredGenerations ∨ r = retire (undoes s x) [] ∨ r ∈ s.supersededOf x := by
  unfold rollbackTxn at mem
  unfold undoes
  cases found : s.rollback.lookup x with
  | none =>
    rw [found] at mem
    exact .inl mem
  | some undo =>
    rw [found] at mem
    exact mem_settled found mem

/-- A rollback removes unpublished files that it does not retire. -/
theorem files_rollbackTxn {s : StorageState} {f : FileId} (mem : f ∈ (s.rollbackTxn x).2) :
    f ∈ s.unpublishedOf x ∧ f ∉ (retire (undoes s x) []).files := by
  unfold rollbackTxn at mem
  unfold undoes unpublishedOf
  cases found : s.rollback.lookup x with
  | none =>
    rw [found] at mem
    cases mem
  | some undo =>
    rw [found] at mem
    obtain ⟨listed, unretired⟩ := mem_filter.mp mem
    exact ⟨listed, of_decide_eq_true unretired⟩

/-- `rollback_txn` undoes an id in the pool. -/
theorem undone (installed : ∀ id, Fits id (w.state.cells id))
    (restorable : ∀ id v, w.state.recorded x id = some v → Fits id v) :
    w.pool.Undone (w.afterUndo x).pool x where
  cur id := by
    change entryGen ((w.state.rollbackTxn x).1.cells id) =
      ((w.state.recorded x id).map entryGen).getD (entryGen (w.state.cells id))
    rw [cells_rollbackTxn]
    unfold Undo.undo
    cases w.state.recorded x id <;> rfl
  before := erased_before fun _ => lookup_rollbackTxn
  unpub := erased_unpub fun _ => lookup_rollbackTxn
  retired := by
    rintro R ⟨r, mem, rfl⟩
    rcases erased_retired (fun _ => lookup_rollbackTxn)
      (fun _ => retiredGenerations_rollbackTxn) mem with old | rfl
    · exact .inl ⟨r, old, rfl⟩
    refine .inr ?_
    rintro s ⟨f, listed, rfl⟩
    obtain ⟨g, mem, store⟩ := mem_retire_files.mp listed
    obtain ⟨id, v, recorded, here⟩ := mem_undoes.mp mem
    obtain ⟨current, moved⟩ := moved_of_retireReplaced here
    exact ⟨id, entryGen v, g.gen, congrArg (Option.map entryGen) recorded,
      entryGen_eq_some.mpr ⟨g, current, rfl⟩, moved, store.symm, mem_retire_refs mem⟩
  doomed := by
    rintro s (⟨f, mem, rfl⟩ | candidate)
    · rcases mem_append.mp mem with old | new
      · exact .inl (.inl ⟨f, old, rfl⟩)
      obtain ⟨listed, unretired⟩ := files_rollbackTxn new
      refine .inr ⟨⟨f, listed, rfl⟩, fun id v h recorded current moved same => unretired ?_⟩
      obtain ⟨u, before, rfl⟩ := Option.map_eq_some_iff.mp recorded
      obtain ⟨g, here, rfl⟩ := entryGen_eq_some.mp current
      refine mem_retire_files.mpr ⟨g, mem_undoes.mpr ⟨id, u, before, ?_⟩, same.symm⟩
      exact retireReplaced_of_moved here moved (installed id) (restorable id u before)
    · exact .inl (.inr candidate)
  snaps := subset_rfl

/-- A commit ends the undo record of its id. -/
theorem lookup_commitTxn {s : StorageState} : (s.commitTxn x).rollback.lookup y =
    if y = x then none else s.rollback.lookup y := by
  unfold commitTxn
  cases found : s.rollback.lookup x with
  | none =>
    dsimp only
    split
    · rw [‹y = x›]
      exact found
    · rfl
  | some undo => exact lookup_erase_if

/-- The generations that `commit_txn` retires. -/
def replacedBy (s : StorageState) (x : Nat) : List Generation :=
  (s.rollback.lookup x).elim [] fun rollback =>
    rollback.before.entries.flatMap fun e => s.retiredByCommit e.1 e.2

/-- A commit retires what its id had found and no longer keeps. -/
theorem mem_replacedBy {s : StorageState} {g : Generation} (mem : g ∈ replacedBy s x) :
    ∃ id, s.recorded x id = some (some (.generation g)) ∧
      ¬Pool.Kept (entryGen (s.cells id)) g.gen := by
  unfold replacedBy at mem
  cases found : s.rollback.lookup x with
  | none =>
    rw [found] at mem
    cases mem
  | some undo =>
    rw [found] at mem
    obtain ⟨⟨id, v⟩, listed, here⟩ := mem_flatMap.mp mem
    have prior : s.recorded x id = some v :=
      recorded_eq_some.mpr ⟨undo, found, mem_lookup_iff.mpr listed⟩
    unfold retiredByCommit at here
    cases prev : v.bind generation? with
    | none =>
      rw [prev] at here
      cases here
    | some g' =>
      rw [prev] at here
      have v_eq := generation?_eq_some.mp prev
      have same : g = g' := by
        dsimp only at here
        split at here
        · split at here
          · exact mem_singleton.mp here
          · cases here
        · exact mem_singleton.mp here
      subst same
      refine ⟨id, v_eq ▸ prior, ?_⟩
      rintro ⟨h, now, live, store⟩
      obtain ⟨k, cell, rfl⟩ := entryGen_eq_some.mp now
      have inst : s.objects.lookup id = some (.generation k) := cell
      rw [inst] at here
      have alive : k.dropped = false := by simpa [Generation.gen] using live
      simp only [Option.bind_some, generation?, alive, Bool.false_or, decide_eq_true_eq]
        at here
      rw [if_neg (fun ne => ne (Relation.storageId_of_store store))] at here
      cases here

theorem retiredGenerations_commitTxn {s : StorageState}
    (mem : r ∈ (s.commitTxn x).retiredGenerations) :
    r ∈ s.retiredGenerations ∨ r = retire (replacedBy s x) [] ∨ r ∈ s.supersededOf x := by
  unfold commitTxn at mem
  unfold replacedBy
  cases found : s.rollback.lookup x with
  | none =>
    rw [found] at mem
    exact .inl mem
  | some undo =>
    rw [found] at mem
    exact mem_settled found mem

/-- `commit_txn` commits an id in the pool. -/
theorem committed : w.pool.Committed (w.withState (w.state.commitTxn x)).pool x where
  cur := by
    funext id
    unfold commitTxn
    cases w.state.rollback.lookup x <;> rfl
  before := erased_before fun _ => lookup_commitTxn
  unpub := erased_unpub fun _ => lookup_commitTxn
  retired := by
    rintro R ⟨r, mem, rfl⟩
    rcases erased_retired (fun _ => lookup_commitTxn)
      (fun _ => retiredGenerations_commitTxn) mem with old | rfl
    · exact .inl ⟨r, old, rfl⟩
    refine .inr ?_
    rintro s ⟨f, listed, rfl⟩
    obtain ⟨g, mem, store⟩ := mem_retire_files.mp listed
    obtain ⟨id, recorded, gone⟩ := mem_replacedBy mem
    exact ⟨id, g.gen, congrArg (Option.map entryGen) recorded, gone, store.symm,
      mem_retire_refs mem⟩
  doomed := subset_rfl
  snaps := subset_rfl

end World

end Saguaro.Relations
