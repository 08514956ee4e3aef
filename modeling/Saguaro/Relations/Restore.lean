/-
What a rollback to a savepoint and a full rollback leave in the storage engine's metadata.

`Session.maps` reads a session as the before-images of a nested transaction (`Saguaro.Undo`),
and each statement as a write, mark, release or rollback of them. The rollbacks apply the
records of subtransactions and of the top-level id in fixed orders, and neither order is the
reverse of the order in which an object may have been recorded: two counterexamples are at the
end. `Session.Ordered` is the condition on statements under which the order does not matter;
`rollback_restores` then holds for every run.
-/

import Saguaro.Relations.Session
import Saguaro.Lib.UndoMaps

namespace Saguaro.Relations

open StorageState Undo List Option Function AList Transition

/-! ### Cells and records -/

theorem Objects.lookup_set (objects : Objects) (id : ObjectId) (entry : Option Entry)
    (j : ObjectId) : (objects.set id entry).lookup j = if j = id then entry else objects.lookup j := by
  cases entry with
  | none =>
    split
    · rename_i same
      rw [same]
      exact lookup_erase id objects
    · exact lookup_erase_ne ‹_›
  | some entry =>
    exact objects.lookup_insert_if _

theorem Before.lookup_orInsert (prior : Before) (id : ObjectId) (prev : Option Entry)
    (j : ObjectId) : (prior.orInsert id prev).lookup j =
      if j = id then some ((prior.lookup id).getD prev) else prior.lookup j := by
  unfold Before.orInsert
  cases noted : prior.lookup id with
  | none => exact prior.lookup_insert_if j
  | some v =>
    dsimp only
    split
    · rw [‹j = id›]
      exact noted
    · rfl

namespace StorageState

/-- The current entries, as a function. -/
def cells (s : StorageState) : ObjectId → Option Entry := fun id => s.objects.lookup id

/-- The entries that an id has recorded. -/
def recorded (s : StorageState) (x : Nat) : ObjectId → Option (Option Entry) := fun id =>
  (s.rollback.lookup x).bind fun rollback => rollback.before.lookup id

variable {s : StorageState} {x y : Nat}

theorem recorded_withRollback_ne {f : TxnRollback → TxnRollback} (ne : y ≠ x) :
    (s.withRollback x f).recorded y = s.recorded y := by
  funext id
  simp [recorded, withRollback, lookup_insert_ne ne]

theorem before_getD (id : ObjectId) :
    ((s.rollback.lookup x).getD .default).before.lookup id = s.recorded x id := by
  unfold recorded
  cases s.rollback.lookup x with
  | none => rfl
  | some undo => rfl

/-- A change that keeps the recorded entries. -/
theorem recorded_withRollback {f : TxnRollback → TxnRollback}
    (keeps : ∀ r, (f r).before = r.before) : (s.withRollback x f).recorded y = s.recorded y := by
  by_cases same : y = x
  · subst same
    funext id
    rw [← before_getD (s := s)]
    simp [recorded, withRollback, keeps]
  · exact recorded_withRollback_ne same

theorem recorded_recordBefore (used : x ≠ 0) (id : ObjectId) :
    (s.recordBefore x id).recorded x = Maps.record (s.recorded x) id (s.cells id) := by
  funext j
  simp only [recordBefore, used, if_false]
  simp only [recorded, withRollback, lookup_insert, bind_some, Before.lookup_orInsert,
    before_getD, Maps.record, update_apply]
  rfl

theorem recorded_recordBefore_ne (ne : y ≠ x) (id : ObjectId) :
    (s.recordBefore x id).recorded y = s.recorded y := by
  unfold recordBefore
  split
  · rfl
  · exact recorded_withRollback_ne ne

theorem cells_recordBefore (id : ObjectId) : (s.recordBefore x id).cells = s.cells := by
  unfold recordBefore
  split <;> rfl

theorem cells_install (t : Touch) :
    (s.install t).cells = update s.cells t.id (t.new.entry s.nextArc) := by
  funext j
  simp only [cells, install, Objects.lookup_set, update_apply]

theorem recorded_install (t : Touch) : (s.install t).recorded y = s.recorded y := rfl

theorem recorded_addUnpublished (files : List FileId) :
    (s.addUnpublished x files).recorded y = s.recorded y := by
  unfold addUnpublished
  split
  · rfl
  · exact recorded_withRollback fun _ => rfl

theorem cells_addUnpublished (files : List FileId) : (s.addUnpublished x files).cells = s.cells := by
  unfold addUnpublished
  split <;> rfl

/-! ### Rollback -/

theorem lookup_putBack (acc : List Generation × Objects) (id : ObjectId) (target : Option Entry)
    (j : ObjectId) : (putBack acc id target).2.lookup j =
      if j = id then target else acc.2.lookup j := Objects.lookup_set ..

/-- Putting back a list of entries with distinct keys. -/
theorem lookup_foldl_putBack (ents : List (Sigma fun _ : ObjectId => Option Entry))
    (nodup : ents.NodupKeys) (acc : List Generation × Objects) (j : ObjectId) :
    (ents.foldl (fun acc e => putBack acc e.1 e.2) acc).2.lookup j =
      (ents.dlookup j).getD (acc.2.lookup j) := by
  induction ents generalizing acc with
  | nil => rfl
  | cons e rest ih =>
    obtain ⟨id, target⟩ := e
    have nodup' := nodupKeys_cons.mp nodup
    rw [foldl_cons, ih nodup'.2, lookup_putBack]
    by_cases same : j = id
    · subst same
      rw [dlookup_cons_eq, dlookup_eq_none.mpr nodup'.1, if_pos rfl]
      rfl
    · rw [dlookup_cons_ne _ _ same, if_neg same]

theorem cells_rollbackTxn : (s.rollbackTxn x).1.cells = undo (s.recorded x) s.cells := by
  funext id
  unfold rollbackTxn cells undo recorded
  cases found : s.rollback.lookup x with
  | none => rfl
  | some rollback => exact lookup_foldl_putBack _ rollback.before.nodupKeys _ id

theorem lookup_rollbackTxn : (s.rollbackTxn x).1.rollback.lookup y =
    if y = x then none else s.rollback.lookup y := by
  unfold rollbackTxn
  cases found : s.rollback.lookup x with
  | none =>
    dsimp only
    split
    · rw [‹y = x›]
      exact found
    · rfl
  | some undo => exact lookup_erase_if

theorem recorded_rollbackTxn : (s.rollbackTxn x).1.recorded y =
    if y = x then fun _ => none else s.recorded y := by
  funext id
  unfold recorded
  rw [lookup_rollbackTxn]
  split <;> rfl

theorem lookup_foldl_target (ids : List ObjectId) (target : ObjectId → Option Entry)
    (acc : List Generation × Objects) (j : ObjectId) :
    (ids.foldl (fun acc id => putBack acc id (target id)) acc).2.lookup j =
      if j ∈ ids then target j else acc.2.lookup j := by
  induction ids generalizing acc with
  | nil => rfl
  | cons id rest ih =>
    rw [foldl_cons, ih, lookup_putBack]
    by_cases same : j = id
    · subst same
      simp
    · simp [same]

theorem mem_keys_iff {prior : Before} {id : ObjectId} :
    id ∈ prior.keys ↔ (prior.lookup id).isSome = true := lookup_isSome.symm

end StorageState

/-! ### A session as before-images -/

namespace SavepointLevel

/-- What the level's savepoint has recorded under the top-level id. -/
def top (level : SavepointLevel) : ObjectId → Option (Option Entry) := fun id =>
  level.storage.rollback.bind fun rollback => rollback.before.lookup id

def mark (level : SavepointLevel) : Mark ObjectId (Option Entry) :=
  ⟨level.subxid, fun id => level.established.lookup id, level.top⟩

/-- The savepoint has the entries of the recorded objects as they were established. -/
def Faithful (level : SavepointLevel) : Prop :=
  ∀ id, level.storage.objects.lookup id = (level.top id).map fun _ => level.established.lookup id

end SavepointLevel

namespace Session

variable {σ σ' : Session}

/-- The records of the ids other than the top-level one. -/
def subRecords (state : StorageState) (top x : Nat) : ObjectId → Option (Option Entry) :=
  if x = top then fun _ => none else state.recorded x

variable {state : StorageState}

theorem subRecords_ne {top x : Nat} (ne : x ≠ top) :
    subRecords state top x = state.recorded x := if_neg ne

def maps (σ : Session) : Maps ObjectId (Option Entry) where
  now := σ.state.cells
  top := σ.state.recorded σ.txnId
  sub := subRecords σ.state σ.txnId
  live := σ.liveSubxids

def marks (σ : Session) : List (Mark ObjectId (Option Entry)) := σ.savepoints.map (·.mark)

/-- The ids of a session: the top-level id, then the subtransactions in the order in which they
were started. -/
structure Ids (σ : Session) : Prop where
  top : σ.txnId ≠ 0
  next : σ.txnId < σ.nextXid
  live : ∀ x ∈ σ.liveSubxids, σ.txnId < x ∧ x < σ.nextXid
  distinct : σ.liveSubxids.Nodup
  levels : ∀ level ∈ σ.savepoints, level.subxid ∈ σ.liveSubxids
  faithful : ∀ level ∈ σ.savepoints, level.Faithful
  fresh : ∀ x, σ.nextXid ≤ x → σ.state.recorded x = fun _ => none

/-- The invariant of a transaction block. -/
structure Inv (σ : Session) : Prop where
  ids : σ.Ids
  undo : σ.maps.Inv (fun id => σ.begun.lookup id) σ.marks

/-- A first change of an object under an id is in order when no live subtransaction has
recorded the object and, under a subtransaction, when the object is what it was when each open
savepoint was established. -/
def Admitted (σ : Session) (x : Nat) (id : ObjectId) : Prop :=
  σ.state.recorded x id = none → (∀ y ∈ σ.liveSubxids, σ.state.recorded y id = none) ∧
    (x ≠ σ.txnId → ∀ level ∈ σ.savepoints, σ.state.cells id = level.established.lookup id)

instance (σ : Session) (x : Nat) (id : ObjectId) : Decidable (σ.Admitted x id) :=
  inferInstanceAs (Decidable (_ → _ ∧ (_ → _)))

/-- The condition on statements: each of their changes is in order. -/
def Ordered (σ : Session) : Statement → Prop
  | .ddl ddl made => ∀ t ∈ (ddl.effect σ.state).1.take made, σ.Admitted σ.writingXid t.id
  | .createIndex schema _ => σ.Admitted σ.writingXid (.index schema.id)
  | .publishTruncate updates => ∀ u ∈ updates, ∀ t ∈ u.touches, σ.Admitted σ.txnId t.id
  | _ => True

instance (σ : Session) (statement : Statement) : Decidable (σ.Ordered statement) :=
  match statement with
  | .ddl .. | .createIndex .. | .prepareTruncate _ | .publishTruncate _ | .savepoint _ | .release _
  | .rollbackTo _ | .rollback => by unfold Ordered; infer_instance

/-- The id of a write as the before-images see it. -/
def under (σ : Session) (x : Nat) : Maps.Under := if x = σ.txnId then .top else .sub x

/-- The session with another state of the engine. -/
def withState (σ : Session) (state : StorageState) : Session := { σ with state }

theorem maps_withState (cells : state.cells = σ.state.cells)
    (noted : ∀ x, state.recorded x = σ.state.recorded x) : (σ.withState state).maps = σ.maps := by
  have sub : subRecords state σ.txnId = subRecords σ.state σ.txnId := by
    funext x
    simp [subRecords, noted]
  simp [maps, withState, cells, noted, sub]

variable {id : ObjectId}

theorem maps_write {x : Nat} {v : Option Entry} (cells : state.cells = update σ.state.cells id v)
    (here : state.recorded x = Maps.record (σ.state.recorded x) id (σ.state.cells id))
    (other : ∀ y, y ≠ x → state.recorded y = σ.state.recorded y) :
    (σ.withState state).maps = σ.maps.write id v (σ.under x) := by
  unfold under
  split
  · rename_i same
    subst same
    have sub : subRecords state σ.txnId = subRecords σ.state σ.txnId := by
      funext y
      by_cases top : y = σ.txnId
      · simp [subRecords, top]
      · rw [subRecords_ne top, subRecords_ne top, other y top]
    simp [maps, withState, Maps.write, cells, here, sub]
  rename_i ne
  have sub : subRecords state σ.txnId = update (subRecords σ.state σ.txnId) x
      (Maps.record (subRecords σ.state σ.txnId x) id (σ.state.cells id)) := by
    funext y
    by_cases same : y = x
    · subst same
      rw [update_self, subRecords_ne ne, subRecords_ne ne, here]
    · rw [update_of_ne same]
      simp [subRecords, other y same]
  simp [maps, withState, Maps.write, cells, sub, other _ (Ne.symm ne)]

theorem Admitted.admits {x : Nat} (adm : σ.Admitted x id) (ids : σ.Ids) :
    σ.maps.Admits σ.marks id (σ.under x) := by
  have fresh : (∀ y ∈ σ.liveSubxids, σ.state.recorded y id = none) →
      ∀ y ∈ σ.maps.live, σ.maps.sub y id = none := by
    intro none_ y live
    have := (ids.live y live).1
    change subRecords σ.state σ.txnId y id = none
    rw [subRecords_ne (by omega)]
    exact none_ y live
  unfold under
  split
  · rename_i same
    subst same
    exact fun free => fresh (adm free).1
  rename_i ne
  intro free
  have same : subRecords σ.state σ.txnId x = σ.state.recorded x := subRecords_ne ne
  obtain ⟨none_, unchanged⟩ := adm (same ▸ free)
  refine ⟨fresh none_, fun mark mem => ?_⟩
  obtain ⟨level, here, rfl⟩ := mem_map.mp mem
  exact unchanged ne level here

variable {level : SavepointLevel}

theorem Inv.savepoint_le (inv : σ.Inv) (mem : level ∈ σ.savepoints) :
    level.subxid ≤ σ.writingXid := by
  have descending := inv.undo.descending
  unfold marks at descending
  unfold writingXid
  cases levels : σ.savepoints with
  | nil =>
    rw [levels] at mem
    exact absurd mem not_mem_nil
  | cons newest below =>
    rw [levels] at mem descending
    rcases mem with _ | ⟨_, mem⟩
    · exact le_rfl
    · exact ((pairwise_cons.mp descending).1 _ (mem_map_of_mem mem)).le

theorem Inv.writes (inv : σ.Inv) : σ.maps.Writes σ.marks (σ.under σ.writingXid) := by
  unfold under
  split
  · trivial
  rename_i ne
  refine ⟨?_, fun mark mem => ?_⟩
  · unfold writingXid at ne ⊢
    cases levels : σ.savepoints with
    | nil =>
      rw [levels] at ne
      exact absurd rfl ne
    | cons newest below =>
      exact inv.ids.levels newest (levels ▸ .head _)
  · obtain ⟨level, here, rfl⟩ := mem_map.mp mem
    exact inv.savepoint_le here

theorem Inv.writesTop : σ.maps.Writes σ.marks (σ.under σ.txnId) := by
  unfold under
  rw [if_pos rfl]
  trivial

/-! ### Statements -/

/-- A change of the engine that keeps entries and records. -/
theorem Inv.same (inv : σ.Inv) (cells : state.cells = σ.state.cells)
    (noted : ∀ x, state.recorded x = σ.state.recorded x) : (σ.withState state).Inv := by
  obtain ⟨ids, undo⟩ := inv
  refine ⟨⟨ids.top, ids.next, ids.live, ids.distinct, ids.levels, ids.faithful, ?_⟩, ?_⟩
  · intro x le
    exact (noted x).trans (ids.fresh x le)
  · rw [maps_withState cells noted]
    exact undo

/-- The writes of a statement, one after the other. -/
structure Written (σ : Session) (x : Nat) (id : ObjectId) (state : StorageState) : Prop where
  cells : ∃ v, state.cells = update σ.state.cells id v
  here : state.recorded x = Maps.record (σ.state.recorded x) id (σ.state.cells id)
  other : ∀ y, y ≠ x → state.recorded y = σ.state.recorded y

theorem Inv.write {x : Nat} (inv : σ.Inv)
    (old : x < σ.nextXid) (writes : σ.maps.Writes σ.marks (σ.under x))
    (admits : σ.maps.Admits σ.marks id (σ.under x)) (wrote : σ.Written x id state) :
    (σ.withState state).Inv := by
  obtain ⟨ids, undo⟩ := inv
  obtain ⟨⟨v, cells⟩, here, other⟩ := wrote
  refine ⟨⟨ids.top, ids.next, ids.live, ids.distinct, ids.levels, ids.faithful, ?_⟩, ?_⟩
  · intro y le
    exact (other y (by have : σ.nextXid ≤ y := le; omega)).trans (ids.fresh y le)
  · rw [maps_write cells here other]
    exact undo.write admits writes

theorem written_touch {x : Nat} (used : x ≠ 0) (t : Touch) :
    σ.Written x t.id (σ.state.touch x t) := by
  refine ⟨⟨t.new.entry (σ.state.recordBefore x t.id).nextArc, ?_⟩, ?_, fun y ne => ?_⟩
  · rw [touch, cells_install, cells_recordBefore]
  · rw [touch, recorded_install, recorded_recordBefore used]
  · rw [touch, recorded_install, recorded_recordBefore_ne ne]

/-- The touches of a statement keep the invariant, and leave the later ones admitted. -/
theorem Inv.touchAll {x : Nat} (used : x ≠ 0) (touches : List Touch) (inv : σ.Inv)
    (old : x < σ.nextXid) (writes : σ.maps.Writes σ.marks (σ.under x))
    (admits : ∀ t ∈ touches, σ.maps.Admits σ.marks t.id (σ.under x)) :
    (σ.withState (σ.state.touchAll x touches)).Inv ∧
      (σ.withState (σ.state.touchAll x touches)).maps.Writes σ.marks (σ.under x) ∧
      ∀ id, σ.maps.Admits σ.marks id (σ.under x) →
        (σ.withState (σ.state.touchAll x touches)).maps.Admits σ.marks id (σ.under x) := by
  induction touches generalizing σ with
  | nil => exact ⟨inv, writes, fun _ admits => admits⟩
  | cons t rest ih =>
    have wrote := written_touch (σ := σ) used t
    have hit := inv.write old writes (admits t (.head _)) wrote
    obtain ⟨⟨v, cells⟩, here, other⟩ := wrote
    have maps := maps_write cells here other
    have writes' : (σ.withState (σ.state.touch x t)).maps.Writes σ.marks (σ.under x) := by
      rw [maps]
      exact writes.write
    have admits' : ∀ id, σ.maps.Admits σ.marks id (σ.under x) →
        (σ.withState (σ.state.touch x t)).maps.Admits σ.marks id (σ.under x) := by
      intro id admits
      rw [maps]
      exact admits.write writes
    obtain ⟨done, writes'', admits''⟩ := ih hit old writes' fun t' mem =>
      admits' t'.id (admits t' (mem_cons_of_mem t mem))
    exact ⟨done, writes'', fun id h => admits'' id (admits' id h)⟩

theorem Inv.writing (inv : σ.Inv) : σ.writingXid ≠ 0 ∧ σ.writingXid < σ.nextXid := by
  have ids := inv.ids
  unfold writingXid
  cases levels : σ.savepoints with
  | nil => exact ⟨ids.top, ids.next⟩
  | cons level below =>
    have := ids.live _ (ids.levels level (levels ▸ .head _))
    exact ⟨ne_of_gt (lt_of_le_of_lt (Nat.zero_le _) this.1), this.2⟩

theorem Inv.ddl (inv : σ.Inv) {ddl : Ddl} {made : Nat} (ord : σ.Ordered (.ddl ddl made)) :
    (σ.withState ((σ.state.touchAll σ.writingXid ((ddl.effect σ.state).1.take made)).addUnpublished
      σ.writingXid (ddl.effect σ.state).2)).Inv := by
  have hit := (inv.touchAll inv.writing.1 _ inv.writing.2 inv.writes fun t mem =>
    (ord t mem).admits inv.ids).1
  exact hit.same (cells_addUnpublished _) fun x => recorded_addUnpublished _

/-- Recording an object without changing it is a write of the value that it has. -/
theorem written_startIndex {x : Nat} (used : x ≠ 0) (schema : IndexSchema) :
    σ.Written x (.index schema.id) (σ.state.startIndex x schema) := by
  refine ⟨⟨σ.state.cells (.index schema.id), ?_⟩, ?_, fun y ne => ?_⟩
  · rw [startIndex, cells_addUnpublished, cells_recordBefore, update_eq_self]
  · rw [startIndex, recorded_addUnpublished, recorded_recordBefore used]
  · rw [startIndex, recorded_addUnpublished, recorded_recordBefore_ne ne]

theorem cells_publishIndex {s : StorageState} {x : Nat} (schema : IndexSchema) :
    ∃ v, (s.publishIndex x schema).cells = update s.cells (.index schema.id) v := by
  refine ⟨(NewEntry.relation (.index schema) false).entry s.nextArc, ?_⟩
  unfold publishIndex
  dsimp only
  split <;> exact cells_install _

theorem recorded_publishIndex {s : StorageState} {x y : Nat} (schema : IndexSchema) :
    (s.publishIndex x schema).recorded y = s.recorded y := by
  unfold publishIndex
  dsimp only
  split
  · rfl
  · exact recorded_withRollback fun _ => rfl

theorem written_publishIndex {x : Nat} (used : x ≠ 0) (schema : IndexSchema) :
    σ.Written x (.index schema.id) ((σ.state.startIndex x schema).publishIndex x schema) := by
  obtain ⟨⟨w, started⟩, here, other⟩ := written_startIndex used schema
  obtain ⟨v, inst⟩ := cells_publishIndex schema
  refine ⟨⟨v, ?_⟩, ?_, fun y ne => ?_⟩
  · rw [inst, started, update_idem]
  · rw [recorded_publishIndex, here]
  · rw [recorded_publishIndex, other y ne]

theorem Inv.createIndex (inv : σ.Inv) {schema : IndexSchema} (built : Bool)
    (ord : σ.Admitted σ.writingXid (.index schema.id)) :
    (σ.withState (if built then (σ.state.startIndex σ.writingXid schema).publishIndex
      σ.writingXid schema else σ.state.startIndex σ.writingXid schema)).Inv := by
  cases built with
  | false =>
    exact inv.write inv.writing.2 inv.writes (ord.admits inv.ids)
      (written_startIndex inv.writing.1 schema)
  | true =>
    exact inv.write inv.writing.2 inv.writes (ord.admits inv.ids)
      (written_publishIndex inv.writing.1 schema)

theorem cells_publishUpdate {s : StorageState} {x : Nat} (update : TruncateUpdate) :
    (s.publishUpdate x update).cells = (s.touchAll x update.touches).cells := by
  unfold publishUpdate
  dsimp only
  split <;> rfl

theorem recorded_publishUpdate {s : StorageState} {x y : Nat} (update : TruncateUpdate) :
    (s.publishUpdate x update).recorded y = (s.touchAll x update.touches).recorded y := by
  unfold publishUpdate
  dsimp only
  split
  · exact recorded_withRollback fun _ => rfl
  · rfl

theorem Inv.publishUpdates (updates : List TruncateUpdate) (inv : σ.Inv)
    (admits : ∀ u ∈ updates, ∀ t ∈ u.touches, σ.maps.Admits σ.marks t.id (σ.under σ.txnId)) :
    (σ.withState (updates.foldl (fun s u => s.publishUpdate σ.txnId u) σ.state)).Inv := by
  induction updates generalizing σ with
  | nil => exact inv
  | cons u rest ih =>
    obtain ⟨hit, -, later⟩ := inv.touchAll inv.ids.top u.touches inv.ids.next Inv.writesTop
      (admits u (.head _))
    have pub := hit.same (cells_publishUpdate u) fun _ => recorded_publishUpdate u
    refine ih pub fun u' mem t mem' => ?_
    rw [maps_withState (cells_publishUpdate u) fun _ => recorded_publishUpdate u]
    exact later t.id (admits u' (mem_cons_of_mem u mem) t mem')

theorem Inv.publishTruncate (inv : σ.Inv) {updates : List TruncateUpdate}
    (ord : σ.Ordered (.publishTruncate updates))
    (pub : σ.state.publishTruncateTransactional σ.txnId updates = some state) :
    (σ.withState state).Inv := by
  unfold publishTruncateTransactional at pub
  split at pub
  · cases pub
    have inst := inv.publishUpdates updates fun u mem t mem' =>
      (ord u mem t mem').admits inv.ids
    exact inst.same rfl fun x => recorded_withRollback fun _ => rfl
  · cases pub

/-! ### Savepoints -/

theorem lookup_foldl_insert (keys : List ObjectId) (value : ObjectId → Option Entry)
    (prior : Before) (j : ObjectId) :
    (keys.foldl (fun objects id => objects.insert id (value id)) prior).lookup j =
      if j ∈ keys then some (value j) else prior.lookup j := by
  induction keys generalizing prior with
  | nil => rfl
  | cons id rest ih =>
    rw [foldl_cons, ih]
    by_cases same : j = id
    · subst same
      simp
    · simp [same, lookup_insert_ne same]

theorem savepoint_faithful (s : StorageState) (name : String) (txnId subxid : Nat) :
    (⟨name, subxid, s.savepoint txnId, s.objects⟩ : SavepointLevel).Faithful := by
  intro id
  simp only [savepoint, SavepointLevel.top]
  cases found : s.rollback.lookup txnId with
  | none => rfl
  | some undo =>
    simp only [elim_some, bind_some]
    rw [lookup_foldl_insert]
    cases noted : undo.before.lookup id with
    | none => rw [if_neg (by rw [mem_keys_iff, noted]; exact nofun)]; rfl
    | some v => rw [if_pos (by rw [mem_keys_iff, noted]; rfl)]; rfl

theorem Ids.sub_fresh (ids : σ.Ids) (id : ObjectId) : σ.maps.sub σ.nextXid id = none := by
  change subRecords σ.state σ.txnId σ.nextXid id = none
  rw [subRecords_ne (ne_of_gt ids.next), ids.fresh _ (le_refl _)]

theorem Inv.marks_lt (inv : σ.Inv) : ∀ mark ∈ σ.marks, mark.sub < σ.nextXid := by
  intro mark mem
  obtain ⟨level, here, rfl⟩ := mem_map.mp mem
  exact (inv.ids.live _ (inv.ids.levels level here)).2

theorem Inv.savepoint (inv : σ.Inv) (name : String) :
    (σ.establish ⟨name, σ.nextXid, σ.state.savepoint σ.txnId, σ.state.objects⟩).Inv := by
  have ids := inv.ids
  refine ⟨⟨ids.top, Nat.lt_succ_of_lt ids.next, fun x mem => ?_, ?_, fun level mem => ?_,
    fun level mem => ?_, fun x le => ids.fresh x (Nat.le_of_succ_le le)⟩, ?_⟩
  · rcases mem_append.mp mem with mem | mem
    · exact ⟨(ids.live x mem).1, Nat.lt_succ_of_lt (ids.live x mem).2⟩
    · cases mem_singleton.mp mem
      exact ⟨ids.next, Nat.lt_succ_self _⟩
  · refine nodup_append.mpr ⟨ids.distinct, nodup_singleton _, fun x mem y mem' => ?_⟩
    cases mem_singleton.mp mem'
    exact ne_of_lt (ids.live x mem).2
  · rcases mem with _ | ⟨_, mem⟩
    · exact mem_append_right _ (mem_singleton.mpr rfl)
    · exact mem_append_left _ (ids.levels level mem)
  · rcases mem with _ | ⟨_, mem⟩
    · exact savepoint_faithful σ.state name σ.txnId σ.nextXid
    · exact ids.faithful level mem
  · exact inv.undo.establish ids.sub_fresh (fun y mem => (ids.live y mem).2) inv.marks_lt

variable {name : String}

theorem findLevel_suffix {levels below : List SavepointLevel}
    (found : findLevel name levels = some (level, below)) : level :: below <:+ levels := by
  induction levels with
  | nil => cases found
  | cons newest rest ih =>
    unfold findLevel at found
    split at found
    · cases found
      exact suffix_rfl
    · exact (ih found).trans (suffix_cons _ _)

variable {below : List SavepointLevel}

theorem Inv.release (inv : σ.Inv) (found : findLevel name σ.savepoints = some (level, below)) :
    { σ with savepoints := below }.Inv := by
  have suffix := (suffix_cons level below).trans (findLevel_suffix found)
  obtain ⟨ids, undo⟩ := inv
  exact ⟨⟨ids.top, ids.next, ids.live, ids.distinct, fun k mem => ids.levels k (suffix.subset mem),
    fun k mem => ids.faithful k (suffix.subset mem), ids.fresh⟩, undo.suffix (suffix.map _)⟩

/-! ### Rollback -/

theorem cells_rollbackToSavepoint (faithful : level.Faithful) :
    (σ.state.rollbackToSavepoint σ.txnId level.storage).cells = σ.maps.backTo level.mark := by
  funext id
  have target := faithful id
  have now := before_getD (s := σ.state) (x := σ.txnId) id
  have listed : id ∈ ((σ.state.rollback.lookup σ.txnId).getD .default).before.keys ++
      (level.storage.rollback.elim [] fun r => r.before.keys) ↔
      (σ.state.recorded σ.txnId id).isSome = true ∨ (level.top id).isSome = true := by
    rw [mem_append, mem_keys_iff, now]
    refine or_congr Iff.rfl ?_
    unfold SavepointLevel.top
    cases level.storage.rollback with
    | none => exact ⟨nofun, nofun⟩
    | some undo => exact mem_keys_iff
  refine (lookup_foldl_target _ (savepointTarget _ _) _ id).trans ?_
  change _ = if (level.top id).isSome then level.established.lookup id else _
  unfold savepointTarget
  rw [target, now]
  cases marked : level.top id with
  | some w =>
    rw [if_pos (listed.mpr (.inr (by rw [marked]; rfl)))]
    rfl
  | none =>
    change _ = (σ.state.recorded σ.txnId id).getD (σ.state.cells id)
    cases noted : σ.state.recorded σ.txnId id with
    | some w =>
      rw [if_pos (listed.mpr (.inl (by rw [noted]; rfl)))]
      rfl
    | none =>
      rw [if_neg fun mem => ?_]
      · rfl
      rcases listed.mp mem with h | h
      · rw [noted] at h
        cases h
      · rw [marked] at h
        cases h

theorem recorded_rollbackToSavepoint (s : StorageState) (txnId : Nat) (level : SavepointLevel) :
    (s.rollbackToSavepoint txnId level.storage).recorded txnId = level.top ∧
      ∀ y, y ≠ txnId → (s.rollbackToSavepoint txnId level.storage).recorded y = s.recorded y := by
  unfold rollbackToSavepoint recorded SavepointLevel.top
  cases level.storage.rollback with
  | none =>
    refine ⟨funext fun id => ?_, fun y ne => funext fun id => ?_⟩
    · simp
    · simp [lookup_erase_ne ne]
  | some undo =>
    refine ⟨funext fun id => ?_, fun y ne => funext fun id => ?_⟩
    · simp
    · simp [lookup_insert_ne ne]

/-- Undoing subtransactions one after the other, each of them once. -/
theorem rollbackSubxids_eq (xs : List Nat) (uniq : xs.Nodup) (s : StorageState) :
    (rollbackSubxids s xs).cells = undoSubs s.recorded xs s.cells ∧
      ∀ y, (rollbackSubxids s xs).recorded y =
        if y ∈ xs then fun _ => none else s.recorded y := by
  induction xs generalizing s with
  | nil => exact ⟨rfl, fun _ => rfl⟩
  | cons x rest ih =>
    obtain ⟨first, rest_distinct⟩ := nodup_cons.mp uniq
    obtain ⟨cells, noted⟩ := ih rest_distinct (s.rollbackTxn x).1
    have unchanged : ∀ y ∈ rest, (s.rollbackTxn x).1.recorded y = s.recorded y := by
      intro y mem
      have ne : y ≠ x := fun same => first (same ▸ mem)
      rw [recorded_rollbackTxn, if_neg ne]
    refine ⟨?_, fun y => ?_⟩
    · refine cells.trans ?_
      rw [cells_rollbackTxn]
      exact undoSubs_congr unchanged
    refine (noted y).trans ?_
    rw [recorded_rollbackTxn]
    by_cases here : y = x
    · subst here
      simp
    · simp [here]

theorem Inv.maps_rollbackTo (inv : σ.Inv) (here : level ∈ σ.savepoints) :
    (σ.rollbackTo level below).maps = σ.maps.rollbackTo level.mark σ.nextXid := by
  have ids := inv.ids
  have rolled : (σ.liveSubxids.filter (level.subxid ≤ ·)).Nodup := ids.distinct.filter _
  obtain ⟨cells, noted⟩ := rollbackSubxids_eq _ rolled
    (σ.state.rollbackToSavepoint σ.txnId level.storage)
  obtain ⟨top, others⟩ := recorded_rollbackToSavepoint σ.state σ.txnId level
  have notTop : ∀ y ∈ σ.liveSubxids, y ≠ σ.txnId := fun y mem => ne_of_gt (ids.live y mem).1
  have now : (σ.rollbackTo level below).state.cells =
      undoSubs σ.maps.sub (σ.liveSubxids.filter (level.subxid ≤ ·)) (σ.maps.backTo level.mark) := by
    refine cells.trans ?_
    rw [cells_rollbackToSavepoint (ids.faithful level here)]
    refine undoSubs_congr fun y mem => ?_
    have ne := notTop y (mem_filter.mp mem).1
    rw [others y ne]
    exact (subRecords_ne ne).symm
  have topRecord : (σ.rollbackTo level below).state.recorded σ.txnId = level.top := by
    refine (noted σ.txnId).trans ?_
    rw [if_neg fun mem => notTop _ (mem_filter.mp mem).1 rfl, top]
  have subs : subRecords (σ.rollbackTo level below).state σ.txnId = fun y =>
      if y ∈ σ.liveSubxids ∧ level.subxid ≤ y then fun _ => none
      else subRecords σ.state σ.txnId y := by
    funext y
    by_cases isTop : y = σ.txnId
    · have : ¬(y ∈ σ.liveSubxids ∧ level.subxid ≤ y) := fun h => notTop y h.1 isTop
      rw [if_neg this]
      simp [subRecords, isTop]
    rw [subRecords_ne isTop, subRecords_ne isTop]
    refine (noted y).trans ?_
    rw [others y isTop]
    simp
  exact Maps.mk.injEq .. ▸ ⟨now, topRecord, subs, rfl⟩

theorem Inv.rollbackTo (inv : σ.Inv) (found : findLevel name σ.savepoints = some (level, below)) :
    (σ.rollbackTo level below).Inv := by
  have suffix := findLevel_suffix found
  have here : level ∈ σ.savepoints := suffix.subset (.head _)
  have ids := inv.ids
  refine ⟨⟨ids.top, Nat.lt_succ_of_lt ids.next, fun x mem => ?_, ?_, fun k mem => ?_, fun k mem => ?_,
    fun x le => ?_⟩, ?_⟩
  · rcases mem_append.mp mem with mem | mem
    · have live := ids.live x (mem_filter.mp mem).1
      exact ⟨live.1, Nat.lt_succ_of_lt live.2⟩
    · cases mem_singleton.mp mem
      exact ⟨ids.next, Nat.lt_succ_self _⟩
  · refine nodup_append.mpr ⟨ids.distinct.filter _, nodup_singleton _, fun x mem y mem' => ?_⟩
    cases mem_singleton.mp mem'
    exact ne_of_lt (ids.live x (mem_filter.mp mem).1).2
  · rcases mem with _ | ⟨_, mem⟩
    · exact mem_append_right _ (mem_singleton.mpr rfl)
    have live := ids.levels k (suffix.subset (.tail _ mem))
    have older := (pairwise_cons.mp (inv.undo.descending.sublist (suffix.map _).sublist)).1
      k.mark (mem_map_of_mem mem)
    exact mem_append_left _ (mem_filter.mpr ⟨live, decide_eq_true older⟩)
  · rcases mem with _ | ⟨_, mem⟩
    · exact ids.faithful level here
    · exact ids.faithful k (suffix.subset (.tail _ mem))
  · have rolled : (σ.liveSubxids.filter (level.subxid ≤ ·)).Nodup := ids.distinct.filter _
    refine ((rollbackSubxids_eq _ rolled _).2 x).trans ?_
    split
    · rfl
    have : σ.nextXid < x := le
    have := ids.next
    rw [(recorded_rollbackToSavepoint _ _ _).2 x (by omega)]
    exact ids.fresh x (by omega)
  · rw [inv.maps_rollbackTo here]
    exact inv.undo.rollbackTo (suffix.map _) ids.sub_fresh (fun y mem => (ids.live y mem).2)
      inv.marks_lt

/-- After `ROLLBACK TO` every object is what it was when the savepoint was established. -/
theorem Inv.cells_rollbackTo (inv : σ.Inv)
    (found : findLevel name σ.savepoints = some (level, below))
    (id : ObjectId) : (σ.rollbackTo level below).state.cells id = level.established.lookup id := by
  have here : level ∈ σ.savepoints := (findLevel_suffix found).subset (.head _)
  have restorable := inv.undo.restorable level.mark (mem_map_of_mem here)
  have now : (σ.rollbackTo level below).maps.now = level.mark.now := by
    rw [inv.maps_rollbackTo here]
    exact Maps.rollbackTo_now restorable
  exact congrFun now id

theorem Inv.cells_rollback (inv : σ.Inv) : σ.rollback.state.cells = fun id => σ.begun.lookup id := by
  have ids := inv.ids
  obtain ⟨cells, noted⟩ := rollbackSubxids_eq _ (nodup_reverse.mpr ids.distinct) σ.state
  have notTop : ∀ y ∈ σ.liveSubxids, y ≠ σ.txnId := fun y mem => ne_of_gt (ids.live y mem).1
  have top : (rollbackSubxids σ.state σ.liveSubxids.reverse).recorded σ.txnId =
      σ.state.recorded σ.txnId := by
    rw [noted, if_neg fun mem => notTop _ (mem_reverse.mp mem) rfl]
  refine Eq.trans ?_ (Maps.rollbackAll_now inv.undo.whole)
  refine (cells_rollbackTxn).trans ?_
  rw [top, cells]
  refine congrArg _ (undoSubs_congr fun y mem => ?_)
  exact (subRecords_ne (notTop y (mem_reverse.mp mem))).symm

theorem Inv.rollback (inv : σ.Inv) : σ.rollback.Inv := by
  have ids := inv.ids
  have records : ∀ y, σ.rollback.state.recorded y = if y = σ.txnId then fun _ => none
      else if y ∈ σ.liveSubxids.reverse then fun _ => none else σ.state.recorded y := by
    intro y
    refine (recorded_rollbackTxn).trans ?_
    rw [(rollbackSubxids_eq _ (nodup_reverse.mpr ids.distinct) σ.state).2]
  refine ⟨⟨ids.top, ids.next, nofun, nodup_nil, nofun, nofun, fun x le => ?_⟩, ?_, nofun, trivial,
    .nil⟩
  · rw [records]
    split
    · rfl
    split
    · rfl
    · exact ids.fresh x le
  have top : σ.rollback.maps.top = fun _ => none := (records σ.txnId).trans (if_pos rfl)
  refine ⟨fun i w noted => ?_, fun i _ x mem => absurd mem not_mem_nil, fun i _ _ => ?_⟩
  · rw [top] at noted
    cases noted
  · exact congrFun inv.cells_rollback i

/-! ### Runs -/

theorem begun_step {stmt : Statement} (taken : σ.step stmt = some σ') : σ'.begun = σ.begun := by
  cases stmt with
  | publishTruncate updates =>
    obtain ⟨state, -, rfl⟩ := map_eq_some_iff.mp taken
    rfl
  | release name =>
    obtain ⟨⟨level, below⟩, -, rfl⟩ := map_eq_some_iff.mp taken
    rfl
  | rollbackTo name =>
    obtain ⟨⟨level, below⟩, -, rfl⟩ := map_eq_some_iff.mp taken
    rfl
  | _ =>
    cases taken
    rfl

/-- Every statement that is in order keeps the invariant. -/
theorem Inv.step {stmt : Statement} (inv : σ.Inv) (ord : σ.Ordered stmt)
    (taken : σ.step stmt = some σ') : σ'.Inv := by
  cases stmt with
  | ddl ddl made =>
    cases taken
    exact inv.ddl ord
  | createIndex schema built =>
    cases taken
    exact inv.createIndex built ord
  | prepareTruncate update =>
    cases taken
    refine inv.same ?_ fun x => ?_ <;> unfold prepareTruncate <;> split
    · exact cells_addUnpublished _
    · rfl
    · exact recorded_addUnpublished _
    · rfl
  | publishTruncate updates =>
    obtain ⟨state, pub, rfl⟩ := map_eq_some_iff.mp taken
    exact inv.publishTruncate ord pub
  | savepoint name =>
    cases taken
    exact inv.savepoint name
  | release name =>
    obtain ⟨⟨level, below⟩, found, rfl⟩ := map_eq_some_iff.mp taken
    exact inv.release found
  | rollbackTo name =>
    obtain ⟨⟨level, below⟩, found, rfl⟩ := map_eq_some_iff.mp taken
    exact inv.rollbackTo found
  | rollback =>
    cases taken
    exact inv.rollback

theorem Inv.start {txnId : Nat} (top : txnId ≠ 0)
    (fresh : ∀ x, txnId ≤ x → state.rollback.lookup x = none) : (start state txnId).Inv := by
  have unrecorded : ∀ x, txnId ≤ x → state.recorded x = fun _ => none := by
    intro x le
    funext id
    rw [recorded, fresh x le]
    rfl
  refine ⟨⟨top, Nat.lt_succ_self _, nofun, nodup_nil, nofun, nofun, fun x le =>
    unrecorded x (Nat.le_of_succ_le le)⟩, ⟨fun i w recorded => ?_, fun i _ x mem =>
    absurd mem not_mem_nil, fun _ _ _ => rfl⟩, nofun, trivial, .nil⟩
  have : (Session.start state txnId).maps.top = fun _ => none := unrecorded txnId (le_refl _)
  rw [this] at recorded
  cases recorded

end Session

/-- In every transaction block whose statements are in order, `ROLLBACK TO` gives every table,
index, sequence and TOAST counter the entry that it had when the savepoint was established, and
`ROLLBACK` the one from before the transaction. -/
theorem rollback_restores {state : StorageState} {txnId : Nat} {statements : List Session.Statement}
    {σ : Session} (top : txnId ≠ 0) (fresh : ∀ x, txnId ≤ x → state.rollback.lookup x = none)
    (run : Transition.Run Session.step Session.Ordered (.start state txnId) statements σ) :
    (∀ name level below, Session.findLevel name σ.savepoints = some (level, below) →
      ∃ σ', σ.step (.rollbackTo name) = some σ' ∧
        ∀ id, σ'.state.objects.lookup id = level.established.lookup id) ∧
    (∃ σ', σ.step .rollback = some σ' ∧
      ∀ id, σ'.state.objects.lookup id = state.objects.lookup id) := by
  have keeps : ∀ (σ : Session) a σ', (σ.Inv ∧ σ.begun = state.objects) → σ.Ordered a →
      σ.step a = some σ' → (σ'.Inv ∧ σ'.begun = state.objects) := by
    rintro σ a σ' ⟨inv, begun⟩ ordered taken
    exact ⟨inv.step ordered taken, (Session.begun_step taken).trans begun⟩
  obtain ⟨inv, begun⟩ := run.invariant keeps ⟨Session.Inv.start top fresh, rfl⟩
  refine ⟨fun name level below found => ⟨σ.rollbackTo level below, ?_, inv.cells_rollbackTo found⟩,
    σ.rollback, rfl, fun id => ?_⟩
  · simp only [Session.step, found, map_some]
  · rw [← begun]
    exact congrFun inv.cells_rollback id

section Examples

open Session

/-- A storage engine with one table. -/
def oneTable : StorageState :=
  ⟨(∅ : Objects).insert (.table 1) (.generation ⟨0, .table ⟨1, 1, none, false⟩, false⟩), ∅, [], 1⟩

/-- `ALTER` of a table with the storage id that it has, and `CREATE`. -/
def alter (table storageId : Nat) : Statement :=
  .ddl (.updateTableSchema ⟨table, storageId, none, false⟩ []) 1

def create (table storageId : Nat) : Statement :=
  .ddl (.createTable ⟨table, storageId, none, false⟩) 1

def truncateTo (table storageId : Nat) : List Statement :=
  [.prepareTruncate ⟨⟨table, storageId, none, false⟩, none, []⟩,
    .publishTruncate [⟨⟨table, storageId, none, false⟩, none, []⟩]]

theorem rollback_restores_nested : ∃ statements σ σ',
    Transition.Run Session.step Session.Ordered (.start oneTable 5) statements σ ∧
    σ.step (.rollbackTo "a") = some σ' ∧ σ.state.objects.lookup (.table 1) =
      some (.generation ⟨3, .table ⟨1, 4, none, false⟩, false⟩) ∧
    σ'.state.objects.lookup (.table 1) =
      some (.generation ⟨1, .table ⟨1, 1, none, false⟩, false⟩) := by
  let statements : List Statement :=
    alter 1 1 :: .savepoint "a" :: create 2 2 :: .savepoint "b" :: truncateTo 1 4
  obtain ⟨σ, run, current, established⟩ : ∃ σ,
      Transition.Run Session.step Session.Ordered (.start oneTable 5) statements σ ∧
      σ.state.objects.lookup (.table 1) =
        some (.generation ⟨3, .table ⟨1, 4, none, false⟩, false⟩) ∧
      (findLevel "a" σ.savepoints).map (fun found => found.1.established.lookup (.table 1)) =
        some (some (.generation ⟨1, .table ⟨1, 1, none, false⟩, false⟩)) :=
    Transition.Run.evaluated (by decide +kernel)
  obtain ⟨⟨level, below⟩, found, established⟩ := map_eq_some_iff.mp established
  obtain ⟨σ', taken, restored⟩ :=
    (rollback_restores (by decide) (fun _ _ => rfl) run).1 "a" level below found
  exact ⟨statements, σ, σ', run, taken, current, (restored (.table 1)).trans established⟩

/-- Two statement sequences that are not in order. A table created under a savepoint and
altered under a nested one is still there after the rollback to the outer savepoint, since the
inner record is put back last. A table altered under a savepoint and then truncated has the
altered generation after the rollback of the transaction, since TRUNCATE records it under the
top-level id. -/
theorem rolled_back_changes_survive :
    (Transition.exec Session.step (fun _ _ => true) (.start oneTable 5)
      [.savepoint "a", create 2 2, .savepoint "b", alter 2 2, .rollbackTo "a"]).map
        (fun σ => (σ.savepoints.map fun level => level.established.lookup (.table 2),
          σ.state.objects.lookup (.table 2))) =
      some ([none], some (.generation ⟨1, .table ⟨2, 2, none, false⟩, false⟩)) ∧
    (Transition.exec Session.step (fun _ _ => true) (.start oneTable 5)
      (.savepoint "a" :: alter 1 1 :: truncateTo 1 4 ++ [.rollback])).map
        (fun σ => (σ.begun.lookup (.table 1), σ.state.objects.lookup (.table 1))) =
      some (some (.generation ⟨0, .table ⟨1, 1, none, false⟩, false⟩),
        some (.generation ⟨1, .table ⟨1, 1, none, false⟩, false⟩)) := by
  constructor <;> decide +kernel

end Examples

end Saguaro.Relations
