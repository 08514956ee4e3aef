/-
The engine's operations keep its pool of generations safe.

`World.Sound` is the invariant of the engine's state: the pool is safe and every entry is of the
kind of its object. For each operation there is one lemma: it keeps `Sound` when it meets its
part of `World.Orderly`, and it leaves the records of other transactions alone (`Frame`). An
anchored savepoint is one whose copies are what the engine has; a rollback to it then only has
the subtransactions to undo.
-/

import Saguaro.Relations.Pool

namespace Saguaro.Relations

open StorageState Reclaim List Option Function AList TruncateUpdate

/-- A step under `x` leaves the records of other ids alone, and the entries of their objects. -/
def Frame (x : Nat) (s s' : StorageState) : Prop :=
  ∀ y, y ≠ x → s'.rollback.lookup y = s.rollback.lookup y ∧
    ∀ id v, s.recorded y id = some v → s'.cells id = s.cells id

namespace Frame

variable {x y : Nat} {s s' s'' : StorageState}

theorem refl : Frame x s s := fun _ _ => ⟨rfl, fun _ _ _ => rfl⟩

theorem recorded (frame : Frame x s s') (ne : y ≠ x) : s'.recorded y = s.recorded y := by
  funext id
  unfold StorageState.recorded
  rw [(frame y ne).1]

theorem trans (first : Frame x s s') (snd : Frame x s' s'') : Frame x s s'' := by
  intro y ne
  refine ⟨(snd y ne).1.trans (first y ne).1, fun id v noted => ?_⟩
  exact ((snd y ne).2 id v (first.recorded ne ▸ noted)).trans ((first y ne).2 id v noted)

theorem withRollback (f : TxnRollback → TxnRollback) : Frame x s (s.withRollback x f) :=
  fun _ ne => ⟨lookup_insert_ne ne, fun _ _ _ => rfl⟩

theorem addUnpublished (files : List FileId) : Frame x s (s.addUnpublished x files) := by
  unfold StorageState.addUnpublished
  split
  · exact refl
  · exact withRollback _

theorem recordBefore (id : ObjectId) : Frame x s (s.recordBefore x id) := by
  unfold StorageState.recordBefore
  split
  · exact refl
  · exact withRollback _

end Frame

/-- The state with more retired generations. -/
def StorageState.retireMore (s : StorageState) (retired : List RetiredGeneration) : StorageState :=
  { s with retiredGenerations := s.retiredGenerations ++ retired }

/-- The kind of what a touch installs is that of its object. -/
def Touch.Fits (touch : Touch) : Prop := ∀ arc, Relations.Fits touch.id (touch.new.entry arc)

namespace World

variable {w : World} {x y : Nat}

variable {id : ObjectId} {v : Option Entry}

theorem Alone.recorded (alone : w.Alone x id) (ne : y ≠ x) : w.state.recorded y id ≠ some v := by
  intro noted
  have none_ := alone.before ne
  rw [show w.pool.before y id = some (entryGen v) from congrArg (Option.map entryGen) noted] at none_
  cases none_

theorem Alone.install {touch : Touch} (alone : w.Alone x touch.id) :
    Frame x w.state (w.state.install touch) := by
  refine fun y ne => ⟨rfl, fun id v noted => ?_⟩
  rw [cells_install, update_of_ne]
  rintro rfl
  exact alone.recorded ne noted

theorem Alone.frame {touch : Touch} (alone : w.Alone x touch.id) :
    Frame x w.state (w.state.touch x touch) := by
  refine fun y ne => ⟨?_, fun id v noted => ?_⟩
  · exact (Frame.recordBefore touch.id y ne).1
  rw [cells_touch, update_of_ne]
  rintro rfl
  exact alone.recorded ne noted

/-- The invariant of the engine's state. -/
structure Sound (w : World) : Prop where
  pool : w.pool.Inv w.state.nextArc
  installed : ∀ id, Fits id (w.state.cells id)
  restorable : ∀ x id v, w.state.recorded x id = some v → Fits id v
  zero : w.state.rollback.lookup 0 = none

theorem lookup_zero_touch (zero : w.state.rollback.lookup 0 = none) (touch : Touch) :
    (w.state.touch x touch).rollback.lookup 0 = none := by
  change (w.state.recordBefore x touch.id).rollback.lookup 0 = none
  by_cases same : x = 0
  · subst same
    exact zero
  · rw [((Frame.recordBefore touch.id) 0 (Ne.symm same)).1]
    exact zero

theorem Sound.restorable_recordBefore (sound : w.Sound) {id j : ObjectId}
    (noted : (w.state.recordBefore x id).recorded y j = some v) : Fits j v := by
  rw [recorded_recordBefore_eq] at noted
  split at noted
  · by_cases here : j = id
    · subst here
      rw [Undo.Maps.record, update_self] at noted
      cases prior : w.state.recorded x j with
      | none =>
        rw [prior] at noted
        cases noted
        exact sound.installed _
      | some u =>
        rw [prior] at noted
        cases noted
        exact sound.restorable x _ _ prior
    · rw [Undo.Maps.record, update_of_ne here] at noted
      exact sound.restorable x j v noted
  · exact sound.restorable y j v noted

theorem Sound.touch {touch : Touch} (sound : w.Sound) (admits : w.Admits x touch)
    (allocated : w.Allocated x touch) (fits : touch.Fits) :
    (w.withState (w.state.touch x touch)).Sound where
  pool := by
    change Pool.Inv _ (w.state.touch x touch).nextArc
    rw [nextArc_touch]
    refine sound.pool.touch (admits.pool allocated) (touched admits.1 sound.zero)
      (Nat.le_succ _) fun h new => ?_
    obtain ⟨r, dropped, -, rfl⟩ := newGen_eq_some.mp new
    exact ⟨le_refl _, Nat.lt_succ_self _⟩
  installed id := by
    change Fits id ((w.state.touch x touch).cells id)
    rw [cells_touch, update_apply]
    split
    · subst id
      exact fits _
    · exact sound.installed id
  restorable _ _ _ recorded := sound.restorable_recordBefore recorded
  zero := lookup_zero_touch sound.zero touch

theorem Sound.touchAll {touches : List Touch} (sound : w.Sound)
    (admits : w.Each (fun w => w.Admits x) x touches)
    (alloc : w.Each (fun w => w.Allocated x) x touches) (fits : ∀ t ∈ touches, t.Fits) :
    (w.withState (w.state.touchAll x touches)).Sound ∧
      Frame x w.state (w.state.touchAll x touches) := by
  induction touches generalizing w with
  | nil => exact ⟨sound, .refl⟩
  | cons touch rest ih =>
    have first := sound.touch admits.1 alloc.1 (fits touch (.head _))
    obtain ⟨after, frame⟩ := ih first admits.2 alloc.2 fun t mem =>
      fits t (.tail _ mem)
    exact ⟨after, admits.1.1.frame.trans frame⟩

theorem addUnpublished_touchAll {s : StorageState} (used : x ≠ 0) (files : List FileId)
    (touches : List Touch) : (s.addUnpublished x files).touchAll x touches =
      (s.touchAll x touches).addUnpublished x files := by
  induction touches generalizing s with
  | nil => rfl
  | cons touch rest ih =>
    have first : (s.addUnpublished x files).touch x touch =
        (s.touch x touch).addUnpublished x files := by
      simp only [StorageState.touch, StorageState.addUnpublished, recordBefore, install,
        withRollback, used, if_false, lookup_insert, insert_insert, getD_some]
    change ((s.addUnpublished x files).touch x touch).touchAll x rest = _
    rw [first, ih]
    rfl

theorem Sound.addUnpublished {files : List FileId} (sound : w.Sound)
    (free : ∀ f ∈ files, w.Free x f.store) (used : x ≠ 0) :
    (w.withState (w.state.addUnpublished x files)).Sound where
  pool := by
    have same : (w.state.addUnpublished x files).nextArc = w.state.nextArc := by
      unfold StorageState.addUnpublished
      split <;> rfl
    change Pool.Inv _ (w.state.addUnpublished x files).nextArc
    rw [same]
    exact sound.pool.prepare (prepared free)
  installed id := by
    change Fits id ((w.state.addUnpublished x files).cells id)
    rw [cells_addUnpublished]
    exact sound.installed id
  restorable y id v recorded := by
    change (w.state.addUnpublished x files).recorded y id = some v at recorded
    rw [recorded_addUnpublished] at recorded
    exact sound.restorable y id v recorded
  zero := ((Frame.addUnpublished files) 0 (Ne.symm used)).1.trans sound.zero

/-! ### TRUNCATE -/

theorem newGen_store {touch : Touch} {h : Gen Store} (new : w.newGen touch = some h) :
    touch.new.store? = some h.store := by
  obtain ⟨r, dropped, eq, rfl⟩ := newGen_eq_some.mp new
  rw [eq]
  rfl

/-- What is installed after some touches was installed before, or is of one of them. -/
theorem cur_touchAll {touches : List Touch} {h : Gen Store}
    (now : (w.withState (w.state.touchAll x touches)).pool.cur id = some h) :
    w.pool.cur id = some h ∨ ∃ t ∈ touches, t.new.store? = some h.store := by
  induction touches generalizing w with
  | nil => exact .inl now
  | cons touch rest ih =>
    obtain prior | ⟨t, mem, store⟩ := ih (w := w.withState (w.state.touch x touch)) now
    · change entryGen ((w.state.touch x touch).cells id) = some h at prior
      rw [cells_touch, update_apply] at prior
      split at prior
      · exact .inr ⟨touch, .head _, newGen_store prior⟩
      · exact .inl prior
    · exact .inr ⟨t, .tail _ mem, store⟩

variable {touches : List Touch} {T : Set Store} {h : Gen Store}

/-- What has lost its place does not come back when touches only install other storage. -/
theorem gone_touchAll (sound : w.Sound) (admits : w.Each (fun w => w.Admits x) x touches)
    (alloc : w.Each (fun w => w.Allocated x) x touches) (fits : ∀ t ∈ touches, t.Fits)
    (new : ∀ t ∈ touches, ∀ store ∈ t.new.store?, store ∈ T) (away : h.store ∉ T)
    (gone : w.pool.Gone h) : (w.withState (w.state.touchAll x touches)).pool.Gone h := by
  induction touches generalizing w with
  | nil => exact gone
  | cons touch rest ih =>
    have first := sound.touch admits.1 alloc.1 (fits touch (.head _))
    refine ih first admits.2 alloc.2 (fun t mem => fits t (.tail _ mem))
      (fun t mem => new t (.tail _ mem)) ?_
    refine gone.touch (touched admits.1.1 sound.zero) fun k made _ same => away ?_
    exact same ▸ new touch (.head _) _ (newGen_store made)

variable {t : Touch}

/-- What touches replace has lost its place, when they install other storage and, under a
transaction, when the objects are not recorded for the first time. -/
theorem replaced_gone (sound : w.Sound) (admits : w.Each (fun w => w.Admits x) x touches)
    (alloc : w.Each (fun w => w.Allocated x) x touches) (fits : ∀ t ∈ touches, t.Fits)
    (new : ∀ t ∈ touches, ∀ store ∈ t.new.store?, store ∈ T) (mem : t ∈ touches)
    (again : x = 0 ∨ (w.state.recorded x t.id).isSome = true)
    (now : w.pool.cur t.id = some h) (away : h.store ∉ T) :
    (w.withState (w.state.touchAll x touches)).pool.Gone h := by
  induction touches generalizing w with
  | nil => cases mem
  | cons touch rest ih =>
    have first := sound.touch admits.1 alloc.1 (fits touch (.head _))
    have change_ := touched admits.1.1 sound.zero
    have restFits : ∀ t ∈ rest, t.Fits := fun t mem => fits t (.tail _ mem)
    have restNew : ∀ t ∈ rest, ∀ store ∈ t.new.store?, store ∈ T := fun t mem => new t (.tail _ mem)
    by_cases here : t.id = touch.id
    · refine gone_touchAll (w := w.withState (w.state.touch x touch)) first admits.2 alloc.2 restFits restNew away ?_
      refine change_.gone sound.pool (admits.1.pool alloc.1) (here ▸ now)
        (fun k made _ same => away ?_) fun v noted => ?_
      · exact same ▸ new touch (.head _) _ (newGen_store made)
      rcases again with rfl | again
      · exact noted
      obtain ⟨u, old⟩ := isSome_iff_exists.mp again
      rw [here] at old
      have kept : w.pool.before x touch.id = some (entryGen u) := congrArg (Option.map entryGen) old
      rw [change_.kept x touch.id _ kept] at noted
      exact kept.trans noted
    rcases mem with _ | ⟨_, mem⟩
    · exact absurd rfl here
    refine ih first admits.2 alloc.2 restFits restNew mem ?_ ?_
    · refine again.imp_right fun again => ?_
      change ((w.state.touch x touch).recorded x t.id).isSome = true
      rw [recorded_touch]
      split
      · rw [Undo.Maps.record, update_of_ne here]
        exact again
      · exact again
    · change entryGen ((w.state.touch x touch).cells t.id) = some h
      rw [cells_touch, update_of_ne here]
      exact now

/-- A step that keeps the entries and the records of the engine. -/
theorem settled_state {s' : StorageState} (cells : s'.cells = w.state.cells)
    (recorded : ∀ y, s'.recorded y = w.state.recorded y)
    (unpub : ∀ y, ∀ f ∈ s'.unpublishedOf y, f ∈ w.state.unpublishedOf y)
    (retired : ∀ r ∈ (w.withState s').retirements, r ∈ w.retirements ∨
      ∀ f ∈ r.files, ∃ h, w.pool.Gone h ∧ h.store = f.store ∧ h.ref ∈ r.refs) :
    w.pool.Settled (w.withState s').pool where
  cur := by
    funext id
    exact congrArg entryGen (congrFun cells id)
  before := by
    funext y id
    exact congrArg (Option.map entryGen) (congrFun (recorded y) id)
  unpub y s := by
    rintro ⟨f, mem, store⟩
    exact ⟨f, unpub y f mem, store⟩
  retired := by
    rintro R ⟨r, mem, rfl⟩
    rcases retired r mem with old | new
    · exact .inl ⟨r, old, rfl⟩
    refine .inr ?_
    rintro s ⟨f, listed, rfl⟩
    exact .inr (new f listed)
  doomed _ mem := .inl mem
  snaps _ mem := .inl mem

theorem Sound.settle {w' : World} (sound : w.Sound) (cells : w'.state.cells = w.state.cells)
    (recorded : ∀ y, w'.state.recorded y = w.state.recorded y)
    (arcs : w'.state.nextArc = w.state.nextArc) (zero : w'.state.rollback.lookup 0 = none)
    (settled : w.pool.Settled w'.pool) : w'.Sound where
  pool := by
    rw [arcs]
    exact sound.pool.settle settled
  installed id := by
    rw [cells]
    exact sound.installed id
  restorable y id v before := sound.restorable y id v ((congrFun (recorded y) id).symm.trans before)
  zero := zero

variable {update : TruncateUpdate}

theorem mem_retiredBy {s : StorageState} {f : FileId}
    (mem : f ∈ (s.retiredBy update).files) : ∃ t ∈ update.touches, ∃ g,
      s.objects.lookup t.id = some (.generation g) ∧ f.store = g.relation.store ∧
      g.arc ∈ (s.retiredBy update).refs := by
  obtain ⟨g, repl, listed⟩ := mem_flatMap.mp mem
  obtain ⟨t, touch, found⟩ := mem_filterMap.mp repl
  exact ⟨t, touch, g, generation?_eq_some.mp found, Relation.mem_files.mp listed,
    mem_map.mpr ⟨g, repl, rfl⟩⟩

/-- The storage of TRUNCATE's new generations. -/
theorem touches_store (mem : t ∈ update.touches)
    {store : Store} (new : t.new.store? = some store) :
    ∃ r ∈ update.relations, r.store = store := by
  unfold touches at mem
  unfold relations
  simp only [cons_append, mem_cons, mem_append, mem_flatMap, List.mem_map] at mem
  rcases mem with rfl | ⟨toast, here, rfl | rfl | none_⟩ | ⟨index, here, rfl⟩
  · exact ⟨_, by simp, some.inj new⟩
  · exact ⟨_, by simp [mem_toList.mp here], some.inj new⟩
  · cases new
  · cases none_
  · exact ⟨_, by simp [here], some.inj new⟩

theorem relation_file (r : Relation) : ∃ f ∈ r.files, f.store = r.store := by
  cases r with
  | table schema => exact ⟨.heap schema.storageId, by simp [Relation.files], rfl⟩
  | index schema => exact ⟨.secondaryIndex schema.storageId, by simp [Relation.files], rfl⟩

theorem update_store (mem : t ∈ update.touches)
    {store : Store} (new : t.new.store? = some store) : ∃ f ∈ update.files, f.store = store := by
  obtain ⟨r, rel, rfl⟩ := touches_store mem new
  obtain ⟨f, file, same⟩ := relation_file r
  exact ⟨f, mem_flatMap.mpr ⟨r, rel, file⟩, same⟩

theorem fits_touches : ∀ t ∈ update.touches, t.Fits := by
  intro t mem arc g eq
  unfold touches at mem
  simp only [cons_append, mem_cons, mem_append, mem_flatMap, List.mem_map] at mem
  rcases mem with rfl | ⟨toast, -, rfl | rfl | none_⟩ | ⟨index, -, rfl⟩
  · cases eq
    rfl
  · cases eq
    rfl
  · cases eq
  · cases none_
  · cases eq
    rfl

/-- No installed generation is on storage of these updates. -/
def Untouched (w : World) (updates : List TruncateUpdate) : Prop :=
  ∀ f ∈ updates.flatMap files, ∀ id h, w.pool.cur id = some h → h.store ≠ f.store

/-- One table of a transactional TRUNCATE. -/
theorem Sound.publishUpdate (sound : w.Sound) (admits : w.AdmitsUpdate x update)
    (alloc : w.Each (fun w => w.Allocated x) x update.touches) (used : x ≠ 0)
    (clean : w.Untouched [update]) : (w.withState (w.state.publishUpdate x update)).Sound ∧
      Frame x w.state (w.state.publishUpdate x update) := by
  obtain ⟨after, frame⟩ := sound.touchAll admits.1 alloc fits_touches
  unfold StorageState.publishUpdate
  dsimp only
  split
  · rename_i repeated
    refine ⟨?_, frame.trans (.withRollback _)⟩
    refine after.settle rfl (fun _ => recorded_withRollback fun _ => rfl) rfl
      ((lookup_insert_ne (Ne.symm used)).trans after.zero) ?_
    refine settled_state rfl
      (fun _ => recorded_withRollback fun _ => rfl) (fun y f mem => ?_) fun r mem => ?_
    · rwa [unpublishedOf, elim_withRollback_keeps rfl (by exact fun _ => rfl)] at mem
    rw [mem_retirements] at mem ⊢
    rcases mem with mem | ⟨y, mem⟩
    · exact .inl (.inl mem)
    change r ∈ (withRollback _ x _).supersededOf y at mem
    rw [supersededOf, elim_withRollback (g := (· ++ [w.state.retiredBy update])) rfl fun _ => rfl]
      at mem
    split at mem
    · rcases mem_append.mp mem with old | new
      · exact .inl (.inr ⟨x, old⟩)
      cases mem_singleton.mp new
      refine .inr fun f listed => ?_
      obtain ⟨t, touch, g, found, store, ref⟩ := mem_retiredBy listed
      refine ⟨g.gen, ?_, store.symm, ref⟩
      have now : w.pool.cur t.id = some g.gen := entryGen_eq_some.mpr ⟨g, found, rfl⟩
      refine replaced_gone sound admits.1
        alloc fits_touches (fun t mem store new => update_store mem new) touch
        (.inr (admits.2 repeated t touch)) now ?_
      rintro ⟨file, mem, same⟩
      exact clean file (by simpa using mem) t.id g.gen now same.symm
    · exact .inl (.inr ⟨y, mem⟩)
  · exact ⟨after, frame⟩

theorem cur_publishUpdate
    (now : (w.withState (w.state.publishUpdate x update)).pool.cur id = some h) :
    w.pool.cur id = some h ∨ ∃ t ∈ update.touches, t.new.store? = some h.store := by
  refine cur_touchAll (x := x) ?_
  unfold publishUpdate at now
  dsimp only at now
  split at now
  · exact now
  · exact now

/-- The storage ids of a batch are distinct. -/
theorem distinct_files {rest : List TruncateUpdate}
    (uniq : ((update :: rest).flatMap fun u => u.relations.map Relation.storageId).Nodup)
    {f f' : FileId} (mem : f ∈ update.files) (mem' : f' ∈ rest.flatMap files) :
    f.store ≠ f'.store := by
  intro same
  rw [flatMap_cons] at uniq
  obtain ⟨r, rel, file⟩ := mem_flatMap.mp mem
  obtain ⟨u, update', file'⟩ := mem_flatMap.mp mem'
  obtain ⟨r', rel', file'⟩ := mem_flatMap.mp file'
  have storage : r.storageId = r'.storageId := by
    refine Relation.storageId_of_store ?_
    rw [← Relation.mem_files.mp file, same, Relation.mem_files.mp file']
  refine (nodup_append.mp uniq).2.2 r.storageId (mem_map_of_mem rel) r'.storageId ?_ storage
  exact mem_flatMap.mpr ⟨u, update', mem_map_of_mem rel'⟩

variable {updates : List TruncateUpdate}

theorem Sound.publishUpdates (sound : w.Sound)
    (admits : w.EachUpdate (fun w => w.AdmitsUpdate x) x updates) (alloc : w.EachUpdate
      (fun w update => w.Each (fun w => w.Allocated x) x update.touches) x updates)
    (used : x ≠ 0) (clean : w.Untouched updates)
    (uniq : (updates.flatMap fun u => u.relations.map Relation.storageId).Nodup) :
    (w.withState (updates.foldl (fun s update => s.publishUpdate x update) w.state)).Sound ∧
      Frame x w.state (updates.foldl (fun s update => s.publishUpdate x update) w.state) := by
  induction updates generalizing w with
  | nil => exact ⟨sound, .refl⟩
  | cons update rest ih =>
    have here : w.Untouched [update] := fun f mem =>
      clean f (mem_flatMap.mpr ⟨update, .head _, by simpa using mem⟩)
    obtain ⟨first, frame⟩ := sound.publishUpdate admits.1 alloc.1 used here
    have later : (w.withState (w.state.publishUpdate x update)).Untouched rest := by
      intro f mem id h now same
      rcases cur_publishUpdate now with prior | ⟨t, touch, new⟩
      · exact clean f (mem_append_right _ mem) id h prior same
      · obtain ⟨f', file, store⟩ := update_store touch new
        exact distinct_files uniq file mem (store.trans same)
    rw [flatMap_cons] at uniq
    obtain ⟨after, frame'⟩ := ih first admits.2 alloc.2 later (nodup_append.mp uniq).2.1
    exact ⟨after, frame.trans frame'⟩

/-- Files that a transaction publishes leave its unpublished ones. -/
theorem Sound.published (sound : w.Sound) (used : x ≠ 0) (files : List FileId) :
    (w.withState (w.state.withRollback x (retainUnpublished files))).Sound := by
  refine sound.settle rfl (fun _ => recorded_withRollback fun _ => rfl) rfl
    ((lookup_insert_ne (Ne.symm used)).trans sound.zero) ?_
  refine settled_state rfl (fun _ => recorded_withRollback fun _ => rfl) (fun y f mem => ?_)
    fun r mem => .inl ?_
  · rw [unpublishedOf, elim_withRollback rfl fun _ => rfl] at mem
    split at mem
    · subst y
      exact (mem_filter.mp mem).1
    · exact mem
  rw [mem_retirements] at mem ⊢
  refine mem.imp_right (Exists.imp fun y mem => ?_)
  change r ∈ (withRollback _ x _).supersededOf y at mem
  rwa [supersededOf, elim_withRollback_keeps rfl (by exact fun _ => rfl)] at mem

/-- `publish_truncate_tables_transactional` keeps the invariant. -/
theorem Sound.publishTransactional {s' : StorageState}
    (sound : w.Sound) (admits : w.EachUpdate (fun w => w.AdmitsUpdate x) x updates)
    (alloc : w.EachUpdate
      (fun w update => w.Each (fun w => w.Allocated x) x update.touches) x updates)
    (prep : w.PreparedBy x updates) (used : x ≠ 0)
    (pub : w.state.publishTruncateTransactional x updates = some s') :
    (w.withState s').Sound ∧ Frame x w.state s' := by
  unfold publishTruncateTransactional at pub
  split at pub
  · rename_i valid
    cases pub
    have uniq : (updates.flatMap fun u => u.relations.map Relation.storageId).Nodup := by
      unfold truncateBatchValid at valid
      simp only [Bool.and_eq_true, decide_eq_true_eq] at valid
      exact valid.1.2
    have clean : w.Untouched updates := fun f mem id h now =>
      (prep f mem).2.pool.unheld id h (.inl now)
    obtain ⟨after, frame⟩ := sound.publishUpdates admits alloc used clean uniq
    exact ⟨after.published used _, frame.trans (.withRollback _)⟩
  · cases pub

/-! ### Changes without undo -/

theorem touchAll_zero_rollback {s : StorageState} (rollback : AList fun _ : Nat => TxnRollback)
    (touches : List Touch) : { s.touchAll 0 touches with rollback } =
      ({ s with rollback } : StorageState).touchAll 0 touches := by
  induction touches generalizing s with
  | nil => rfl
  | cons touch rest ih => exact ih

theorem rollback_touchAll_zero {s : StorageState} (touches : List Touch) :
    (s.touchAll 0 touches).rollback = s.rollback := by
  induction touches generalizing s with
  | nil => rfl
  | cons touch rest ih => exact ih

theorem foldl_touchAll {s : StorageState} (updates : List TruncateUpdate) :
    updates.foldl (fun s update => s.touchAll x update.touches) s =
      s.touchAll x (updates.flatMap TruncateUpdate.touches) := by
  unfold touchAll
  rw [foldl_flatMap]

theorem lookup_publishing :
    (w.publishing updates).state.rollback.lookup y = (w.state.rollback.lookup y).map
      (retainUnpublished (updates.flatMap files)) := by
  refine lookup_filterMapValues.trans ?_
  cases w.state.rollback.lookup y <;> rfl

theorem recorded_publishing : (w.publishing updates).state.recorded y = w.state.recorded y := by
  funext id
  unfold recorded
  rw [lookup_publishing]
  cases w.state.rollback.lookup y <;> rfl

/-- Published files leave the unpublished ones. -/
theorem Sound.publishing (sound : w.Sound) (updates : List TruncateUpdate) :
    (w.publishing updates).Sound := by
  refine sound.settle rfl (fun _ => recorded_publishing) rfl ?_ ?_
  · refine lookup_publishing.trans ?_
    rw [sound.zero]
    rfl
  refine settled_state rfl (fun _ => recorded_publishing) (fun y f mem => ?_) fun r mem => .inl ?_
  · change f ∈ (w.publishing updates).state.unpublishedOf y at mem
    unfold unpublishedOf at mem ⊢
    rw [lookup_publishing] at mem
    cases found : w.state.rollback.lookup y <;> rw [found] at mem
    · exact mem
    · exact (mem_filter.mp mem).1
  rw [mem_retirements] at mem ⊢
  refine mem.imp_right fun ⟨y, mem⟩ => ⟨y, ?_⟩
  change r ∈ (w.publishing updates).state.supersededOf y at mem
  unfold supersededOf at mem ⊢
  rw [lookup_publishing] at mem
  cases found : w.state.rollback.lookup y <;> rw [found] at mem <;> exact mem

variable {txnId : Nat}

/-- The published files are not among those of another transaction. -/
theorem retain_other (sound : w.Sound) (prep : w.PreparedBy txnId updates) (ne : y ≠ txnId) :
    (w.state.rollback.lookup y).map (retainUnpublished (updates.flatMap files)) =
      w.state.rollback.lookup y := by
  cases found : w.state.rollback.lookup y with
  | none => rfl
  | some undo =>
    have kept : undo.unpublishedFiles.filter
        (· ∉ updates.flatMap files) = undo.unpublishedFiles := by
      refine filter_eq_self.mpr fun f mem => decide_eq_true fun pub => ne ?_
      refine sound.pool.unpub_one y txnId f.store (mem_unpub.mpr ⟨undo, found, f, mem, rfl⟩) ?_
      exact ⟨f, (prep f pub).1, rfl⟩
    rw [map_some, retainUnpublished, kept]

/-- `publish_truncate_tables` keeps the invariant, and changes no record but that of the
transaction that has prepared the files. -/
theorem Sound.publishAutocommit {s' : StorageState} (sound : w.Sound)
    (admits : (w.publishing updates).Each (fun w => w.Admits 0) 0
      (updates.flatMap TruncateUpdate.touches))
    (allocated : (w.publishing updates).Each (fun w => w.Allocated 0) 0
      (updates.flatMap TruncateUpdate.touches))
    (prepared : w.PreparedBy txnId updates)
    (published : w.state.publishTruncate updates = some s') :
    (w.withState s').Sound ∧ Frame txnId w.state s' := by
  unfold publishTruncate at published
  split at published
  · cases published
    have fits : ∀ t ∈ updates.flatMap TruncateUpdate.touches, t.Fits := by
      intro t mem
      obtain ⟨u, -, touch⟩ := mem_flatMap.mp mem
      exact fits_touches t touch
    obtain ⟨after, frame⟩ := (sound.publishing updates).touchAll admits allocated fits
    rw [foldl_touchAll]
    have state_eq : { w.state.touchAll 0 (updates.flatMap TruncateUpdate.touches) with
          rollback := (w.state.touchAll 0 (updates.flatMap TruncateUpdate.touches)).rollback.filterMapValues
            fun rollback => some (retainUnpublished (updates.flatMap TruncateUpdate.files) rollback)
          retiredGenerations :=
            (w.state.touchAll 0 (updates.flatMap TruncateUpdate.touches)).retiredGenerations ++
              updates.map w.state.retiredBy } = ((w.publishing updates).state.touchAll 0
          (updates.flatMap TruncateUpdate.touches)).retireMore (updates.map w.state.retiredBy) := by
      rw [rollback_touchAll_zero]
      exact congrArg (fun s : StorageState => s.retireMore (updates.map w.state.retiredBy))
        (touchAll_zero_rollback (w.publishing updates).state.rollback _)
    rw [state_eq]
    refine ⟨?_, fun y ne => ⟨?_, fun id v recorded => ?_⟩⟩
    · refine after.settle rfl (fun _ => rfl) rfl after.zero ?_
      refine settled_state rfl (fun _ => rfl) (fun _ _ mem => mem) fun r mem => ?_
      rw [mem_retirements] at mem ⊢
      rcases mem with mem | superseded
      · rcases mem_append.mp mem with old | new
        · exact .inl (.inl old)
        obtain ⟨update, here, rfl⟩ := mem_map.mp new
        refine .inr fun f listed => ?_
        obtain ⟨t, touch, g, found, store, ref⟩ := mem_retiredBy listed
        have current : (w.publishing updates).pool.cur t.id = some g.gen :=
          entryGen_eq_some.mpr ⟨g, found, rfl⟩
        refine ⟨g.gen, replaced_gone
          (T := {s | ∃ f ∈ updates.flatMap TruncateUpdate.files, f.store = s})
          (sound.publishing updates) admits allocated fits (fun t mem store new => ?_)
          (mem_flatMap.mpr ⟨update, here, touch⟩) (.inl rfl) current ?_, store.symm, ref⟩
        · obtain ⟨u, mem, touch⟩ := mem_flatMap.mp mem
          obtain ⟨f, file, same⟩ := update_store touch new
          exact ⟨f, mem_flatMap.mpr ⟨u, mem, file⟩, same⟩
        · rintro ⟨file, mem, same⟩
          exact (prepared file mem).2.pool.unheld t.id g.gen (.inl current) same.symm
      · exact .inl (.inr superseded)
    · change ((w.publishing updates).state.touchAll 0 _).rollback.lookup y = _
      rw [rollback_touchAll_zero, lookup_publishing]
      exact retain_other sound prepared ne
    · by_cases zero : y = 0
      · subst zero
        unfold StorageState.recorded at recorded
        rw [sound.zero] at recorded
        cases recorded
      · refine (frame y zero).2 id v ?_
        rw [recorded_publishing]
        exact recorded
  · cases published

/-- `set_table_compression` and `set_table_toast_metadata` keep the invariant. -/
theorem Sound.setTableSchema {schema : TableSchema} {s' : StorageState} (sound : w.Sound)
    (alone : w.Alone 0 (.table schema.id))
    (same : ((w.installed (.table schema.id)).any fun g =>
      g.relation.store = (Relation.table schema).store && !g.dropped) = true)
    (set : w.state.setTableSchema schema = some s') : (w.withState s').Sound ∧ Frame 0 w.state s' := by
  let touch : Touch := ⟨.table schema.id, .relation (.table schema) false⟩
  obtain ⟨-, -, rfl⟩ := map_eq_some_iff.mp set
  have alloc : w.Allocated 0 touch := .inl (by simpa using same)
  have admits : w.Admits 0 touch := by
    refine ⟨alone, fun g inst => ⟨.inl ?_, fun prev noted => ?_⟩⟩
    · rw [show w.installed (.table schema.id) = some g from inst] at same
      simp only [any_some, Bool.and_eq_true, decide_eq_true_eq] at same
      exact Bool.and_eq_true_iff.mpr ⟨decide_eq_true same.1.symm, rfl⟩
    · obtain ⟨r, found, -⟩ := recorded_eq_some.mp noted
      rw [sound.zero] at found
      cases found
  refine ⟨sound.touch admits alloc ?_, alone.frame⟩
  rintro arc g ⟨⟩
  rfl

/-! ### CREATE INDEX -/

theorem Alone.of_frame {s' : StorageState} (alone : w.Alone x id)
    (frame : Frame x w.state s') : (w.withState s').Alone x id := by
  intro e mem ne
  refine alone ⟨e.1, e.2⟩ (mem_lookup_iff.mp ?_) ne
  exact (frame e.1 ne).1 ▸ mem_lookup_iff.mpr mem

/-- Recording an object that has no entry. -/
theorem Sound.recordBefore (sound : w.Sound) (alone : w.Alone x id)
    (absent : w.state.objects.lookup id = none) :
    (w.withState (w.state.recordBefore x id)).Sound where
  pool := by
    have change_ : w.pool.Touched (w.withState (w.state.recordBefore x id)).pool x id none := by
      refine touched_of none alone sound.zero ?_ (fun _ => recorded_recordBefore_eq id)
        (fun _ => unpublishedOf_recordBefore id) (fun _ => supersededOf_recordBefore id)
        (retiredGenerations_recordBefore id)
      rw [cells_recordBefore, ← absent]
      exact (update_eq_self id w.state.cells).symm
    have none_ : w.pool.cur id = none := congrArg entryGen absent
    have admits : w.pool.Admits x id none := by
      refine ⟨fun _ ne => alone.before ne, fun g current => ?_, fun v g _ current => ?_, nofun⟩ <;>
      · rw [none_] at current
        cases current
    change Pool.Inv _ (w.state.recordBefore x id).nextArc
    rw [nextArc_recordBefore]
    exact sound.pool.touch admits change_ (le_refl _) nofun
  installed j := by
    change Fits j ((w.state.recordBefore x id).cells j)
    rw [cells_recordBefore]
    exact sound.installed j
  restorable _ _ _ recorded := sound.restorable_recordBefore recorded
  zero := by
    by_cases same : x = 0
    · subst same
      exact sound.zero
    · exact (Frame.recordBefore id 0 (Ne.symm same)).1.trans sound.zero

theorem startIndex_eq {s : StorageState} (used : x ≠ 0) (schema : IndexSchema) :
    s.startIndex x schema =
      (s.addUnpublished x (Relation.index schema).files).recordBefore x (.index schema.id) := by
  simp [startIndex, addUnpublished, recordBefore, withRollback, used]

theorem Sound.startIndex {schema : IndexSchema} (sound : w.Sound)
    (alone : w.Alone x (.index schema.id)) (gone : w.state.objects.lookup (.index schema.id) = none)
    (free : ∀ f ∈ (Relation.index schema).files, w.Free x f.store) (used : x ≠ 0) :
    (w.withState (w.state.startIndex x schema)).Sound ∧
      Frame x w.state (w.state.startIndex x schema) := by
  rw [startIndex_eq used]
  have first := sound.addUnpublished free used
  have frame : Frame x w.state (w.state.addUnpublished x (Relation.index schema).files) :=
    .addUnpublished _
  refine ⟨first.recordBefore (alone.of_frame frame) ?_, frame.trans (.recordBefore _)⟩
  exact (congrFun (cells_addUnpublished _) _).trans gone

theorem Alone.of_recorded (sound : w.Sound)
    (noted : w.state.recorded x id = some v) : w.Alone x id := by
  rintro ⟨y, r⟩ mem ne key
  obtain ⟨u, found⟩ := isSome_iff_exists.mp (mem_keys_iff.mp key)
  have other : w.state.recorded y id = some u :=
    recorded_eq_some.mpr ⟨r, mem_lookup_iff.mpr mem, found⟩
  exact ne (sound.pool.one y x id _ _ (congrArg (Option.map entryGen) other)
    (congrArg (Option.map entryGen) noted))

theorem Sound.publishIndex {schema : IndexSchema} (sound : w.Sound)
    (noted : w.state.recorded x (.index schema.id) = some v)
    (gone : w.state.objects.lookup (.index schema.id) = none)
    (alloc : w.Allocated x ⟨.index schema.id, .relation (.index schema) false⟩) (used : x ≠ 0) :
    (w.withState (w.state.publishIndex x schema)).Sound ∧
      Frame x w.state (w.state.publishIndex x schema) := by
  let touch : Touch := ⟨.index schema.id, .relation (.index schema) false⟩
  have alone : w.Alone x touch.id := .of_recorded sound noted
  have admits : w.Admits x touch := by
    refine ⟨alone, fun g inst => ?_⟩
    have := generation?_eq_some.mp inst
    rw [show w.state.objects.lookup touch.id = none from gone] at this
    cases this
  have change_ : w.pool.Touched (w.withState (w.state.install touch)).pool x touch.id
      (w.newGen touch) := by
    refine touched_of _ alone sound.zero (cells_install touch) (fun y => ?_) (fun _ => rfl)
      (fun _ => rfl) rfl
    rw [recorded_install]
    split
    · rename_i which
      funext j
      rw [Undo.Maps.record, update_apply, which.1]
      split
      · subst j
        rw [show w.state.recorded x touch.id = some v from noted]
        rfl
      · rfl
    · rfl
  have inst : (w.withState (w.state.install touch)).Sound := by
    refine ⟨?_, fun id => ?_, sound.restorable, sound.zero⟩
    · refine sound.pool.touch (admits.pool alloc) change_ (Nat.le_succ _) fun h new => ?_
      obtain ⟨r, dropped, -, rfl⟩ := newGen_eq_some.mp new
      exact ⟨le_refl _, Nat.lt_succ_self _⟩
    change Fits id ((w.state.install touch).cells id)
    rw [cells_install, update_apply]
    split
    · subst id
      rintro g ⟨⟩
      rfl
    · exact sound.installed id
  have frame := alone.install
  unfold StorageState.publishIndex
  dsimp only
  split
  · exact ⟨inst, frame⟩
  · exact ⟨inst.published used _, frame.trans (.withRollback _)⟩

/-! ### The end of a transaction -/

theorem Sound.frame_rollbackTxn (sound : w.Sound) : Frame x w.state (w.state.rollbackTxn x).1 := by
  intro y ne
  refine ⟨lookup_rollbackTxn.trans (if_neg ne), fun id v noted => ?_⟩
  rw [cells_rollbackTxn]
  unfold Undo.undo
  cases own : w.state.recorded x id with
  | none => rfl
  | some u =>
    exact absurd (sound.pool.one y x id _ _ (congrArg (Option.map entryGen) noted)
      (congrArg (Option.map entryGen) own)) ne

theorem Sound.undo (sound : w.Sound) : (w.afterUndo x).Sound where
  pool := by
    have arcs : (w.state.rollbackTxn x).1.nextArc = w.state.nextArc := by
      unfold rollbackTxn
      cases w.state.rollback.lookup x <;> rfl
    change Pool.Inv _ (w.state.rollbackTxn x).1.nextArc
    rw [arcs]
    exact sound.pool.undo (undone sound.installed fun id v => sound.restorable x id v)
  installed id := by
    change Fits id ((w.state.rollbackTxn x).1.cells id)
    rw [cells_rollbackTxn]
    unfold Undo.undo
    cases own : w.state.recorded x id with
    | none => exact sound.installed id
    | some u => exact sound.restorable x id u own
  restorable y id v recorded := by
    change (w.state.rollbackTxn x).1.recorded y id = some v at recorded
    rw [recorded_rollbackTxn] at recorded
    split at recorded
    · cases recorded
    · exact sound.restorable y id v recorded
  zero := by
    refine lookup_rollbackTxn.trans ?_
    split
    · rfl
    · exact sound.zero

theorem cells_commitTxn {s : StorageState} : (s.commitTxn x).cells = s.cells := by
  unfold commitTxn
  cases s.rollback.lookup x <;> rfl

theorem Sound.commit (sound : w.Sound) : (w.withState (w.state.commitTxn x)).Sound ∧
    Frame x w.state (w.state.commitTxn x) := by
  have frame : Frame x w.state (w.state.commitTxn x) := fun y ne =>
    ⟨lookup_commitTxn.trans (if_neg ne), fun id _ _ => congrFun cells_commitTxn id⟩
  refine ⟨⟨?_, fun id => ?_, fun y id v noted => ?_, ?_⟩, frame⟩
  · have arcs : (w.state.commitTxn x).nextArc = w.state.nextArc := by
      unfold commitTxn
      cases w.state.rollback.lookup x <;> rfl
    change Pool.Inv _ (w.state.commitTxn x).nextArc
    rw [arcs]
    exact sound.pool.commit committed
  · change Fits id ((w.state.commitTxn x).cells id)
    rw [cells_commitTxn]
    exact sound.installed id
  · obtain ⟨r, found, here⟩ := recorded_eq_some.mp noted
    change (w.state.commitTxn x).rollback.lookup y = some r at found
    rw [lookup_commitTxn] at found
    split at found
    · cases found
    · exact sound.restorable y id v (recorded_eq_some.mpr ⟨r, found, here⟩)
  refine lookup_commitTxn.trans ?_
  split
  · rfl
  · exact sound.zero

/-! ### Savepoints -/

/-- A savepoint's copies are what the engine has, as long as the top-level record stays. -/
def Anchored (s : StorageState) (txnId : Nat) (storage : StorageSavepoint) : Prop :=
  storage.rollback = s.rollback.lookup txnId ∧
    ∀ id, storage.objects.lookup id = (s.recorded txnId id).map fun _ => s.cells id

variable {storage : StorageSavepoint}

theorem Anchored.frame {s s' : StorageState}
    (anchored : Anchored s txnId storage) (frame : Frame x s s') (ne : txnId ≠ x) :
    Anchored s' txnId storage := by
  refine ⟨anchored.1.trans (frame txnId ne).1.symm, fun id => ?_⟩
  rw [anchored.2, frame.recorded ne]
  cases noted : s.recorded txnId id with
  | none => rfl
  | some v =>
    rw [(frame txnId ne).2 id v noted]

theorem anchored_savepoint (s : StorageState) (txnId : Nat) :
    Anchored s txnId (s.savepoint txnId) := ⟨rfl, Session.savepoint_faithful s "" txnId 0⟩

theorem retireReplaced_self (entry : Option Entry) : retireReplaced entry entry = [] := by
  unfold retireReplaced
  cases found : entry.bind Entry.generation? with
  | none => rfl
  | some g => simp

/-- Putting back what is there changes nothing. -/
theorem foldl_putBack_same {target : ObjectId → Option Entry} {objects : Objects}
    (ids : List ObjectId) (same : ∀ id ∈ ids, target id = objects.lookup id)
    (acc : List Generation × Objects) (agree : ∀ id, acc.2.lookup id = objects.lookup id) :
    (ids.foldl (fun acc id => putBack acc id (target id)) acc).1 = acc.1 ∧
      ∀ id, (ids.foldl (fun acc id => putBack acc id (target id)) acc).2.lookup id =
        objects.lookup id := by
  induction ids generalizing acc with
  | nil => exact ⟨rfl, agree⟩
  | cons id rest ih =>
    have here := same id (.head _)
    obtain ⟨repl, lookups⟩ := ih (fun j mem => same j (.tail _ mem))
      (putBack acc id (target id)) fun j => by
        rw [lookup_putBack]
        split
        · subst j
          exact here
        · exact agree j
    refine ⟨?_, lookups⟩
    refine repl.trans ?_
    simp [putBack, here, agree, retireReplaced_self]

/-- `rollback_to_savepoint` changes nothing while the savepoint is anchored. -/
theorem Anchored.rollbackToSavepoint {s : StorageState} (anchored : Anchored s txnId storage) :
    (s.rollbackToSavepoint txnId storage).cells = s.cells ∧
    (∀ y, (s.rollbackToSavepoint txnId storage).rollback.lookup y = s.rollback.lookup y) ∧
    (s.rollbackToSavepoint txnId storage).retiredGenerations = s.retiredGenerations ∧
    (s.rollbackToSavepoint txnId storage).nextArc = s.nextArc := by
  have keys : ∀ id ∈ ((s.rollback.lookup txnId).getD .default).before.keys ++
      storage.rollback.elim [] (fun r => r.before.keys), (s.recorded txnId id).isSome = true := by
    intro id mem
    rw [← before_getD, ← mem_keys_iff]
    rcases mem_append.mp mem with mem | mem
    · exact mem
    rw [anchored.1] at mem
    cases found : s.rollback.lookup txnId with
    | none =>
      rw [found] at mem
      cases mem
    | some r =>
      rw [found] at mem
      exact mem
  have targets : ∀ id ∈ ((s.rollback.lookup txnId).getD .default).before.keys ++
      storage.rollback.elim [] (fun r => r.before.keys),
      savepointTarget ((s.rollback.lookup txnId).getD .default) storage id = s.objects.lookup id := by
    intro id mem
    obtain ⟨v, noted⟩ := isSome_iff_exists.mp (keys id mem)
    unfold savepointTarget
    rw [anchored.2 id, noted]
    rfl
  obtain ⟨repl, lookups⟩ := foldl_putBack_same _ targets ([], s.objects) fun _ => rfl
  have unpublished : ((s.rollback.lookup txnId).getD .default).unpublishedFiles.filter
      (· ∉ storage.rollback.elim [] TxnRollback.unpublishedFiles) = [] := by
    rw [anchored.1]
    cases s.rollback.lookup txnId with
    | none => rfl
    | some r =>
      refine filter_eq_nil_iff.mpr fun f mem => ?_
      intro unlisted
      exact of_decide_eq_true unlisted mem
  have superseded : ((s.rollback.lookup txnId).getD .default).supersededGenerations.drop
      (storage.rollback.elim 0 fun r => r.supersededGenerations.length) = [] := by
    rw [anchored.1]
    cases s.rollback.lookup txnId with
    | none => rfl
    | some r => exact drop_length
  refine ⟨funext lookups, fun y => ?_, ?_, rfl⟩
  · unfold StorageState.rollbackToSavepoint
    rw [anchored.1]
    cases found : s.rollback.lookup txnId with
    | none =>
      refine lookup_erase_if.trans ?_
      split
      · rw [‹y = txnId›, found]
      · rfl
    | some r =>
      refine (s.rollback.lookup_insert_if y).trans ?_
      split
      · rw [‹y = txnId›, found]
      · rfl
  · change _ ++ _ ++ (if (retire _ _).files = [] then [] else [_]) = _
    have nothing : (retire ([] : List Generation) []).files = [] := rfl
    rw [superseded, repl, unpublished, if_pos nothing, append_nil, append_nil]

theorem Sound.rollbackToSavepoint (sound : w.Sound) (anchored : Anchored w.state txnId storage) :
    (w.withState (w.state.rollbackToSavepoint txnId storage)).Sound ∧
      ∀ x, Frame x w.state (w.state.rollbackToSavepoint txnId storage) := by
  obtain ⟨cells, lookups, retired, arcs⟩ := anchored.rollbackToSavepoint
  have recorded : ∀ y, (w.state.rollbackToSavepoint txnId storage).recorded y = w.state.recorded y := by
    intro y
    funext id
    unfold recorded
    rw [lookups]
  refine ⟨sound.settle cells recorded arcs ((lookups 0).trans sound.zero) ?_,
    fun x y _ => ⟨lookups y, fun id _ _ => congrFun cells id⟩⟩
  refine settled_state cells recorded (fun y f mem => ?_) fun r mem => .inl ?_
  · unfold unpublishedOf at mem ⊢
    rwa [lookups] at mem
  rw [mem_retirements] at mem ⊢
  change r ∈ (w.state.rollbackToSavepoint txnId storage).retiredGenerations ∨
    (∃ y, r ∈ (w.state.rollbackToSavepoint txnId storage).supersededOf y) at mem
  simp only [retired, supersededOf, lookups] at mem
  exact mem

end World

end Saguaro.Relations
