/-
A relation file is not removed while it is in use.

`World.Inv` is the invariant of the engine with its open transactions: the engine's state is
sound, and each transaction knows its savepoints and has ids of its own. Every step that meets
`World.Orderly` keeps it, and `used_files_not_removed` reads off every run of such steps that
what is about to be removed is not in use. Runs that do not meet the condition remove files of
installed relations; they are at the end.
-/

import Saguaro.Relations.Sound

namespace Saguaro.Relations

open StorageState Reclaim List Option Transition SavepointLevel

/-! ### Open transactions -/

def Phase.pending : Phase → List Nat
  | .undoing xids _ => xids
  | .committing xids => xids
  | _ => []

/-- The ids of a transaction. -/
def Block.xids (txnId : Nat) (block : Block) : List Nat :=
  txnId :: (block.liveSubxids ++ block.savepoints.map subxid)

namespace World

variable {w w' : World} {x y txnId : Nat} {block : Block} {savepoints : List SavepointLevel}

structure BlockInv (w : World) (txnId : Nat) (block : Block) : Prop where
  top : ∀ x ∈ block.liveSubxids ++ block.savepoints.map subxid, x ≠ txnId
  pending : ∀ x ∈ block.phase.pending, x ∈ block.liveSubxids ∨ (x = txnId ∧ block.savepoints = [])
  target : ∀ xids level below, block.phase = .undoing xids (some (level, below)) →
    level :: below <:+ block.savepoints
  anchored : ∀ level ∈ block.savepoints, Anchored w.state txnId level.storage
  building : ∀ schema, block.phase = .building schema →
    (∃ v, w.state.recorded (w.writingXid txnId block) (.index schema.id) = some v) ∧
      w.state.objects.lookup (.index schema.id) = none

structure Inv (w : World) : Prop where
  sound : w.Sound
  positive : 0 < w.nextXid
  below : ∀ txnId block, w.blocks.lookup txnId = some block →
    ∀ x ∈ block.xids txnId, 0 < x ∧ x < w.nextXid
  apart : ∀ txnId block txnId' block', w.blocks.lookup txnId = some block →
    w.blocks.lookup txnId' = some block' →
    ∀ x, x ∈ block.xids txnId → x ∈ block'.xids txnId' → txnId = txnId'
  block : ∀ txnId block, w.blocks.lookup txnId = some block → w.BlockInv txnId block

theorem writingXid_mem (w : World) (txnId : Nat) (block : Block) :
    w.writingXid txnId block ∈ block.xids txnId := by
  unfold writingXid Session.writingXid session Block.xids
  cases block.savepoints with
  | nil => exact .head _
  | cons level below =>
    exact .tail _ (mem_append_right _ (.head _))

/-- A transaction does not notice the steps of others. -/
theorem BlockInv.frame (inv : w.BlockInv txnId block) (frame : Frame x w.state w'.state)
    (other : x ∉ block.xids txnId) : w'.BlockInv txnId block where
  top := inv.top
  pending := inv.pending
  target := inv.target
  anchored level mem := (inv.anchored level mem).frame frame fun same =>
    other (same ▸ .head _)
  building schema phase := by
    obtain ⟨⟨v, recorded⟩, absent⟩ := inv.building schema phase
    have ne : w.writingXid txnId block ≠ x := fun same => other (same ▸ writingXid_mem w txnId block)
    refine ⟨⟨v, ?_⟩, ((frame _ ne).2 _ v recorded).trans absent⟩
    rw [frame.recorded (y := w'.writingXid txnId block) ne]
    exact recorded

/-- What the transaction itself writes keeps its levels, unless it writes as the top id
below one of them. -/
theorem BlockInv.anchored_write {s' : StorageState} (inv : w.BlockInv txnId block)
    (frame : Frame x w.state s') (other : txnId ≠ x ∨ block.savepoints = []) :
    ∀ level ∈ block.savepoints, Anchored s' txnId level.storage := by
  intro level mem
  rcases other with ne | none_
  · exact (inv.anchored level mem).frame frame ne
  · rw [none_] at mem
    cases mem

/-- A new or changed block, with ids that no other block has. -/
theorem Inv.put (inv : w.Inv) (block' : Block) (sound : w'.Sound)
    (blocks : ∀ t, w'.blocks.lookup t = if t = txnId then some block' else w.blocks.lookup t)
    (le : w.nextXid ≤ w'.nextXid) (below : ∀ y ∈ block'.xids txnId, 0 < y ∧ y < w'.nextXid)
    (apart : ∀ t b, t ≠ txnId → w.blocks.lookup t = some b → ∀ y ∈ block'.xids txnId, y ∉ b.xids t)
    (own : w'.BlockInv txnId block')
    (others : ∀ t b, t ≠ txnId → w.blocks.lookup t = some b → w'.BlockInv t b) : w'.Inv := by
  have found : ∀ t b, w'.blocks.lookup t = some b →
      t = txnId ∧ b = block' ∨ t ≠ txnId ∧ w.blocks.lookup t = some b := by
    intro t b here
    rw [blocks] at here
    split at here
    · exact .inl ⟨‹_›, (some.inj here).symm⟩
    · exact .inr ⟨‹_›, here⟩
  refine ⟨sound, lt_of_lt_of_le inv.positive le, fun t b here y mem => ?_,
    fun t b t' b' here here' y mem mem' => ?_, fun t b here => ?_⟩
  · rcases found t b here with ⟨rfl, rfl⟩ | ⟨-, old⟩
    · exact below y mem
    · exact (inv.below t b old y mem).imp_right fun lt => lt_of_lt_of_le lt le
  · rcases found t b here with ⟨rfl, rfl⟩ | ⟨ne, old⟩ <;>
      rcases found t' b' here' with ⟨rfl, rfl⟩ | ⟨ne', old'⟩
    · rfl
    · exact absurd mem' (apart t' b' ne' old' y mem)
    · exact absurd mem (apart t b ne old y mem')
    · exact inv.apart t b t' b' old old' y mem mem'
  · rcases found t b here with ⟨rfl, rfl⟩ | ⟨ne, old⟩
    · exact own
    · exact others t b ne old

/-- A step of one transaction. -/
theorem Inv.act (inv : w.Inv) (block' : Block) (found : w.blocks.lookup txnId = some block) (sound : w'.Sound)
    (frame : Frame x w.state w'.state) (mine : x ∈ block.xids txnId)
    (blocks : ∀ t, w'.blocks.lookup t = if t = txnId then some block' else w.blocks.lookup t)
    (le : w.nextXid ≤ w'.nextXid)
    (xids : ∀ y ∈ block'.xids txnId, y ∈ block.xids txnId ∨ (w.nextXid ≤ y ∧ y < w'.nextXid))
    (own : w'.BlockInv txnId block') : w'.Inv := by
  refine inv.put block' sound blocks le (fun y mem => ?_) (fun t b ne here y mem mem' => ?_) own
    fun t b ne here => ?_
  · rcases xids y mem with prior | ⟨fresh, below⟩
    · exact (inv.below _ _ found y prior).imp_right fun lt => lt_of_lt_of_le lt le
    · exact ⟨lt_of_lt_of_le inv.positive fresh, below⟩
  · rcases xids y mem with prior | ⟨fresh, -⟩
    · exact ne (inv.apart t b txnId block here found y mem' prior)
    · exact absurd (inv.below t b here y mem').2 (not_lt.mpr fresh)
  · exact (inv.block t b here).frame frame fun mem =>
      ne (inv.apart t b txnId block here found x mem mine)

/-- A step that no transaction takes. -/
theorem Inv.aside (inv : w.Inv) (sound : w'.Sound) (frame : Frame 0 w.state w'.state)
    (blocks : w'.blocks = w.blocks) (xids : w'.nextXid = w.nextXid) : w'.Inv := by
  refine ⟨sound, xids ▸ inv.positive, fun t b here => ?_, fun t b t' b' here here' => ?_,
    fun t b here => ?_⟩
  · rw [xids]
    exact inv.below t b (blocks ▸ here)
  · exact inv.apart t b t' b' (blocks ▸ here) (blocks ▸ here')
  have here := blocks ▸ here
  refine (inv.block t b here).frame frame fun mem => ?_
  exact absurd (inv.below t b here 0 mem).1 (lt_irrefl 0)

theorem running_eq (here : w.running txnId = some block) :
    w.blocks.lookup txnId = some block ∧ block.phase = .running := by
  unfold running at here
  split at here
  · rename_i found
    cases here
    exact ⟨found, rfl⟩
  · cases here

/-! ### Statements -/

theorem fits_table (id : Nat) (schema : TableSchema) (dropped : Bool) :
    (⟨.table id, .relation (.table schema) dropped⟩ : Touch).Fits := by
  rintro arc g ⟨⟩
  rfl

theorem fits_index (id : Nat) (schema : IndexSchema) (dropped : Bool) :
    (⟨.index id, .relation (.index schema) dropped⟩ : Touch).Fits := by
  rintro arc g ⟨⟩
  rfl

theorem fits_markTableDropped {s : StorageState} {table : Nat} :
    ∀ t ∈ s.markTableDropped table, t.Fits := by
  intro t mem
  rcases mem_append.mp mem with mem | mem
  · split at mem
    · rcases mem_append.mp mem with mem | mem
      · split at mem
        · cases mem_singleton.mp mem
          exact nofun
        · cases mem
      · cases mem_singleton.mp mem
        exact fits_table _ _ _
    · cases mem_singleton.mp mem
      exact nofun
  · obtain ⟨index, -, rfl⟩ := mem_map.mp mem
    exact fits_index _ _ _

theorem fits_createTable {schema : TableSchema} : ∀ t ∈ createTable schema, t.Fits := by
  intro t mem
  rcases mem with _ | ⟨_, mem⟩
  · exact fits_table _ _ _
  unfold toastTouch at mem
  split at mem
  · cases mem_singleton.mp mem
    exact nofun
  · cases mem

/-- Statements install tables as tables and indexes as indexes. -/
theorem fits_effect {s : StorageState} {ddl : Session.Ddl} : ∀ t ∈ (ddl.effect s).1, t.Fits := by
  intro t mem
  cases ddl with
  | createTable schema => exact fits_createTable t mem
  | dropTable table =>
    change t ∈ s.dropTable table at mem
    unfold dropTable at mem
    split at mem
    · cases mem
    rcases mem_append.mp mem with mem | mem
    · exact fits_markTableDropped t mem
    · obtain ⟨toast, -, mem⟩ := mem_flatMap.mp mem
      exact fits_markTableDropped t mem
  | updateTableSchema schema indexes =>
    change t ∈ (s.updateTableSchema schema indexes).1 at mem
    unfold updateTableSchema at mem
    split at mem
    · cases mem
    split at mem
    · cases mem
    rcases mem_append.mp mem with mem | mem
    · exact fits_createTable t mem
    · obtain ⟨index, -, rfl⟩ := mem_map.mp mem
      exact fits_index _ _ _
  | dropIndex index =>
    change t ∈ s.dropIndex index at mem
    unfold dropIndex at mem
    split at mem
    · cases mem
    · cases mem_singleton.mp mem
      exact fits_index _ _ _
  | createSequence id definition =>
    cases mem_singleton.mp mem
    exact nofun
  | dropSequence id =>
    change t ∈ s.dropSequence id at mem
    unfold dropSequence at mem
    split at mem
    · cases mem_singleton.mp mem
      exact nofun
    · cases mem

theorem Inv.xid_pos (inv : w.Inv) (found : w.blocks.lookup txnId = some block)
    (mem : x ∈ block.xids txnId) : x ≠ 0 := ne_of_gt (inv.below txnId block found x mem).1

/-- Under a savepoint the writing id is not the top-level one. -/
theorem BlockInv.writing (inv : w.BlockInv txnId block) :
    txnId ≠ w.writingXid txnId block ∨ block.savepoints = [] := by
  unfold writingXid Session.writingXid session
  cases levels : block.savepoints with
  | nil => exact .inr rfl
  | cons level below =>
    refine .inl fun same => inv.top level.subxid ?_ same.symm
    rw [levels]
    exact mem_append_right _ (.head _)

theorem BlockInv.top_fewer (inv : w.BlockInv txnId block) (fewer : savepoints ⊆ block.savepoints) :
    ∀ y ∈ block.liveSubxids ++ savepoints.map subxid, y ≠ txnId := by
  intro y mem
  refine inv.top y ?_
  rcases mem_append.mp mem with mem | mem
  · exact mem_append_left _ mem
  · exact mem_append_right _ (map_subset _ fewer mem)

/-- The engine's state does not depend on the sessions. -/
theorem Sound.rebase {blocks : AList fun _ : Nat => Block} {nextXid : Nat} (sound : w.Sound) :
    ({ w with blocks, nextXid } : World).Sound :=
  ⟨sound.pool, sound.installed, sound.restorable, sound.zero⟩

theorem xids_fewer {phase : Phase} (fewer : savepoints ⊆ block.savepoints) :
    ∀ y ∈ (⟨savepoints, block.liveSubxids, phase⟩ : Block).xids txnId, y ∈ block.xids txnId := by
  intro y mem
  rcases mem with _ | ⟨_, mem⟩
  · exact .head _
  refine .tail _ ?_
  rcases mem_append.mp mem with mem | mem
  · exact mem_append_left _ mem
  · exact mem_append_right _ (map_subset _ fewer mem)

section

variable (inv : w.Inv)

include inv

/-- A statement that changes the engine under an id of its transaction. -/
theorem Inv.write {s' : StorageState} {o : Objects} (found : w.blocks.lookup txnId = some block)
    (wrote : (w.withState s').Sound ∧ Frame x w.state s') (mine : x ∈ block.xids txnId)
    (other : txnId ≠ x ∨ block.savepoints = []) :
    (w.resume txnId .running ⟨s', txnId, block.savepoints, block.liveSubxids, w.nextXid, o⟩).Inv := by
  obtain ⟨sound, frame⟩ := wrote
  have own := inv.block txnId block found
  refine inv.act _ found sound.rebase frame mine (w.blocks.lookup_insert_if) (le_refl _)
    (fun y mem => .inl ?_) ⟨own.top, nofun, nofun, fun level mem => ?_, nofun⟩
  · exact xids_fewer (Subset.refl _) y mem
  · exact own.anchored_write frame other level mem

/-- A new level under a new id. -/
theorem Inv.push (found : w.blocks.lookup txnId = some block) {level : SavepointLevel}
    {below : List SavepointLevel} {live : List Nat} (sound : w'.Sound) (state : w'.state = w.state)
    (blocks : ∀ t, w'.blocks.lookup t = if t = txnId then
      some ⟨level :: below, live ++ [w.nextXid], .running⟩ else w.blocks.lookup t)
    (next : w'.nextXid = w.nextXid + 1) (new : level.subxid = w.nextXid)
    (fewer : below ⊆ block.savepoints) (kept : live ⊆ block.liveSubxids)
    (anchored : Anchored w.state txnId level.storage) : w'.Inv := by
  have own := inv.block txnId block found
  have known : ∀ y ∈ live ++ [w.nextXid] ++ (level :: below).map subxid,
      y = w.nextXid ∨ y ∈ block.liveSubxids ++ block.savepoints.map subxid := by
    intro y mem
    simp only [mem_append, map_cons, mem_cons, not_mem_nil, or_false, new] at mem
    rcases mem with (mem | mem) | mem | mem
    · exact .inr (mem_append_left _ (kept mem))
    · exact .inl mem
    · exact .inl mem
    · exact .inr (mem_append_right _ (map_subset _ fewer mem))
  refine inv.act _ found sound (state ▸ .refl) (.head _) blocks
    (next ▸ Nat.le_succ _) (fun y mem => ?_) ⟨fun y mem => ?_, nofun, nofun, fun other mem => ?_, nofun⟩
  · rcases mem with _ | ⟨_, mem⟩
    · exact .inl (.head _)
    rcases known y mem with rfl | old
    · exact .inr ⟨le_refl _, next ▸ Nat.lt_succ_self _⟩
    · exact .inl (.tail _ old)
  · rcases known y mem with rfl | old
    · exact ne_of_gt (inv.below txnId block found txnId (.head _)).2
    · exact own.top y old
  rw [state]
  rcases mem with _ | ⟨_, mem⟩
  · exact anchored
  · exact own.anchored other (fewer mem)

theorem Inv.statement {stmt : Session.Statement}
    (here : w.running txnId = some block) (orderly : w.OrderlyStatement txnId block stmt)
    (taken : w.statement txnId block stmt = some w') : w'.Inv := by
  obtain ⟨found, -⟩ := running_eq here
  have own := inv.block txnId block found
  have used := inv.xid_pos found (writingXid_mem w txnId block)
  cases stmt with
  | ddl ddl made =>
    simp only [World.statement, ite_none_right_eq_some] at taken
    obtain ⟨⟨free, alloc⟩, ⟨⟩⟩ := taken
    refine inv.write found ?_ (writingXid_mem w txnId block) own.writing
    obtain ⟨sound, frame⟩ := (inv.sound.addUnpublished free used).touchAll orderly alloc
      fun t mem => fits_effect t (mem_of_mem_take mem)
    change (w.withState (((w.state.addUnpublished _ _).touchAll _ _))).Sound at sound
    rw [addUnpublished_touchAll used] at sound
    refine ⟨sound, ?_⟩
    have all := (Frame.addUnpublished (ddl.effect w.state).2).trans frame
    change Frame _ w.state ((w.state.addUnpublished _ _).touchAll _ _) at all
    rwa [addUnpublished_touchAll used] at all
  | createIndex schema built => cases taken
  | prepareTruncate update =>
    simp only [World.statement, ite_none_right_eq_some] at taken
    obtain ⟨free, ⟨⟩⟩ := taken
    refine inv.write found ?_ (writingXid_mem w txnId block) own.writing
    unfold prepareTruncate
    split
    · exact ⟨inv.sound.addUnpublished free used, .addUnpublished _⟩
    · exact ⟨inv.sound, .refl⟩
  | publishTruncate updates =>
    simp only [World.statement, ite_none_right_eq_some] at taken
    obtain ⟨⟨prep, alloc⟩, taken⟩ := taken
    obtain ⟨σ, moved, rfl⟩ := map_eq_some_iff.mp taken
    obtain ⟨s', pub, rfl⟩ := map_eq_some_iff.mp moved
    have top : txnId ∈ block.xids txnId := .head _
    have writing : w.writingXid txnId block = txnId := by
      unfold writingXid Session.writingXid session
      rw [isEmpty_iff.mp orderly.1]
    rw [writing] at prep alloc
    exact inv.write found (inv.sound.publishTransactional orderly.2 alloc prep
      (inv.xid_pos found top) pub) top (.inr (isEmpty_iff.mp orderly.1))
  | savepoint name =>
    cases taken
    exact inv.push found inv.sound.rebase rfl (w.blocks.lookup_insert_if) rfl rfl
      (Subset.refl _) (Subset.refl _) (anchored_savepoint w.state txnId)
  | release name =>
    obtain ⟨σ, released, rfl⟩ := map_eq_some_iff.mp taken
    obtain ⟨⟨level, below⟩, level_found, rfl⟩ := map_eq_some_iff.mp released
    have fewer : below ⊆ block.savepoints :=
      ((suffix_cons level below).trans (Session.findLevel_suffix level_found)).subset
    exact inv.act ⟨below, block.liveSubxids, .running⟩ found
      inv.sound.rebase .refl (.head _) (w.blocks.lookup_insert_if) (le_refl _)
      (fun y mem => .inl (xids_fewer fewer y mem))
      ⟨own.top_fewer fewer, nofun, nofun, fun level mem => own.anchored level (fewer mem), nofun⟩
  | rollbackTo name => cases taken
  | rollback => cases taken

/-! ### Steps -/

theorem Inv.start (taken : w.step .start = some w') : w'.Inv := by
  cases taken
  refine inv.put ⟨[], [], .running⟩ inv.sound.rebase (w.blocks.lookup_insert_if) (Nat.le_succ _)
    (fun y mem => ?_) (fun t b ne here y mem mem' => ?_) ⟨nofun, nofun, nofun, nofun, nofun⟩
    fun t b _ here => { inv.block t b here with }
  · cases mem_singleton.mp mem
    exact ⟨inv.positive, Nat.lt_succ_self _⟩
  · cases mem_singleton.mp mem
    exact lt_irrefl _ (inv.below t b here _ mem').2

theorem Inv.startIndex {schema : IndexSchema} (orderly : w.Orderly (.startIndex txnId schema))
    (taken : w.step (.startIndex txnId schema) = some w') : w'.Inv := by
  obtain ⟨block, here, taken⟩ := bind_eq_some_iff.mp taken
  simp only [ite_none_right_eq_some] at taken
  obtain ⟨⟨gone, free⟩, ⟨⟩⟩ := taken
  obtain ⟨found, -⟩ := running_eq here
  have own := inv.block txnId block found
  have mine := writingXid_mem w txnId block
  have used := inv.xid_pos found mine
  obtain ⟨sound, frame⟩ := inv.sound.startIndex (orderly block here) gone free used
  refine inv.act { block with phase := .building schema } found sound.rebase frame mine
    (w.blocks.lookup_insert_if) (le_refl _) (fun y mem => .inl mem)
    ⟨own.top, nofun, nofun, fun level mem => ?_, fun schema' phase => ?_⟩
  · exact own.anchored_write frame own.writing level mem
  cases phase
  refine ⟨?_, ?_⟩
  · change ∃ v, (w.state.startIndex (w.writingXid txnId block) schema).recorded
      (w.writingXid txnId block) (.index schema.id) = some v
    rw [startIndex_eq used, recorded_recordBefore_eq, if_pos ⟨rfl, used⟩, Undo.Maps.record,
      Function.update_self]
    exact ⟨_, rfl⟩
  · change (w.state.startIndex (w.writingXid txnId block) schema).cells (.index schema.id) = none
    rw [startIndex_eq used, cells_recordBefore, cells_addUnpublished]
    exact gone

theorem Inv.publishIndex (taken : w.step (.publishIndex txnId) = some w') : w'.Inv := by
  obtain ⟨block, found, taken⟩ := bind_eq_some_iff.mp taken
  have own := inv.block txnId block found
  have mine := writingXid_mem w txnId block
  split at taken
  · rename_i schema phase
    simp only [ite_none_right_eq_some] at taken
    obtain ⟨alloc, ⟨⟩⟩ := taken
    obtain ⟨⟨v, noted⟩, gone⟩ := own.building schema phase
    obtain ⟨sound, frame⟩ := inv.sound.publishIndex noted gone alloc (inv.xid_pos found mine)
    refine inv.act { block with phase := .running } found sound.rebase frame mine
      (w.blocks.lookup_insert_if) (le_refl _) (fun y mem => .inl mem)
      ⟨own.top, nofun, nofun, own.anchored_write frame own.writing, nofun⟩
  · cases taken

/-- A transaction turns to something else; the engine stays. -/
theorem Inv.enter (found : w.blocks.lookup txnId = some block) {phase : Phase}
    (fewer : savepoints ⊆ block.savepoints)
    (due : ∀ x ∈ phase.pending, x ∈ block.liveSubxids ∨ (x = txnId ∧ savepoints = []))
    (target : ∀ xids level below, phase = .undoing xids (some (level, below)) →
      level :: below <:+ savepoints) (idle : ∀ schema, phase ≠ .building schema) :
    (w.enter txnId ⟨savepoints, block.liveSubxids, phase⟩).Inv := by
  have own := inv.block txnId block found
  exact inv.act ⟨savepoints, block.liveSubxids, phase⟩ found inv.sound.rebase .refl
    (.head _) (w.blocks.lookup_insert_if) (le_refl _)
    (fun y mem => .inl (xids_fewer fewer y mem))
    ⟨own.top_fewer fewer, due, target, fun level mem => own.anchored level (fewer mem),
      fun schema same => absurd same (idle schema)⟩

theorem Inv.rollbackTo {name : String}
    (taken : w.step (.rollbackTo txnId name) = some w') : w'.Inv := by
  obtain ⟨block, here, taken⟩ := bind_eq_some_iff.mp taken
  obtain ⟨⟨level, below⟩, level_found, rfl⟩ := map_eq_some_iff.mp taken
  obtain ⟨found, -⟩ := running_eq here
  have own := inv.block txnId block found
  have suffix := Session.findLevel_suffix level_found
  have anchored := own.anchored level (suffix.subset (.head _))
  obtain ⟨sound, frame⟩ := inv.sound.rollbackToSavepoint anchored
  refine inv.act _ found sound.rebase (frame txnId) (.head _)
    (w.blocks.lookup_insert_if) (le_refl _) (fun y mem => .inl mem)
    ⟨own.top, fun y mem => .inl (mem_filter.mp mem).1, fun xids level' below' phase => ?_,
      fun level mem => ?_, nofun⟩
  · cases phase
    exact suffix
  · refine (own.anchored level mem).frame (frame 0) ?_
    exact inv.xid_pos found (.head _)

theorem Inv.endNext (taken : w.step (.endNext txnId) = some w') : w'.Inv := by
  obtain ⟨block, found, taken⟩ := bind_eq_some_iff.mp taken
  have own := inv.block txnId block found
  have mine : ∀ x ∈ block.phase.pending, x ∈ block.xids txnId := by
    intro x mem
    rcases own.pending x mem with live | ⟨rfl, -⟩
    · exact .tail _ (mem_append_left _ live)
    · exact .head _
  have keeps : ∀ x ∈ block.phase.pending, ∀ s', Frame x w.state s' → ∀ level ∈ block.savepoints,
      Anchored s' txnId level.storage := by
    intro x mem s' frame level here
    rcases own.pending x mem with live | ⟨-, none_⟩
    · refine (own.anchored level here).frame frame fun same => ?_
      exact own.top x (mem_append_left _ live) same.symm
    · rw [none_] at here
      cases here
  split at taken
  · rename_i x rest target phase
    cases taken
    have next : x ∈ block.phase.pending := phase ▸ .head _
    have frame := inv.sound.frame_rollbackTxn (x := x)
    have sound := inv.sound.undo (x := x)
    refine inv.act { block with phase := .undoing rest target } found
      ⟨sound.pool, sound.installed, sound.restorable, sound.zero⟩ frame (mine x next)
      (w.blocks.lookup_insert_if) (le_refl _) (fun y mem => .inl mem)
      ⟨own.top, fun y mem => ?_, fun xids level below same => ?_, keeps x next _ frame, nofun⟩
    · exact own.pending y (phase ▸ .tail _ mem)
    · cases same
      exact own.target _ level below phase
  · rename_i x rest phase
    cases taken
    have next : x ∈ block.phase.pending := phase ▸ .head _
    obtain ⟨sound, frame⟩ := inv.sound.commit
    refine inv.act { block with phase := .committing rest } found sound.rebase frame (mine x next)
      (w.blocks.lookup_insert_if) (le_refl _) (fun y mem => .inl mem)
      ⟨own.top, fun y mem => ?_, nofun, keeps x next _ frame, nofun⟩
    exact own.pending y (phase ▸ .tail _ mem)
  · cases taken

theorem Inv.erase : ({ w with blocks := w.blocks.erase txnId } : World).Inv := by
  have old : ∀ t b, (w.blocks.erase txnId).lookup t = some b → w.blocks.lookup t = some b :=
    fun _ _ => AList.of_lookup_erase
  exact ⟨inv.sound.rebase, inv.positive, fun t b here => inv.below t b (old t b here),
    fun t b t' b' here here' => inv.apart t b t' b' (old t b here) (old t' b' here'),
    fun t b here => { inv.block t b (old t b here) with }⟩

theorem Inv.finish (taken : w.step (.finish txnId) = some w') : w'.Inv := by
  obtain ⟨block, found, taken⟩ := bind_eq_some_iff.mp taken
  have own := inv.block txnId block found
  split at taken
  · rename_i level below phase
    cases taken
    have suffix := own.target _ level below phase
    have here : level ∈ block.savepoints := suffix.subset (.head _)
    have fewer : below ⊆ block.savepoints := ((suffix_cons level below).trans suffix).subset
    exact inv.push found inv.sound.rebase rfl (w.blocks.lookup_insert_if) rfl rfl fewer
      (fun _ mem => (mem_filter.mp mem).1) (own.anchored level here)
  · cases taken
    exact inv.erase
  · cases taken
    exact inv.erase
  · cases taken

theorem Inv.publishTruncate {updates : List TruncateUpdate}
    (orderly : w.Orderly (.publishTruncate txnId updates))
    (taken : w.step (.publishTruncate txnId updates) = some w') : w'.Inv := by
  obtain ⟨block, here, taken⟩ := bind_eq_some_iff.mp taken
  simp only [ite_none_right_eq_some] at taken
  obtain ⟨⟨none_, prep, alloc⟩, taken⟩ := taken
  obtain ⟨s', pub, rfl⟩ := map_eq_some_iff.mp taken
  obtain ⟨found, phase⟩ := running_eq here
  have own := inv.block txnId block found
  obtain ⟨sound, frame⟩ := inv.sound.publishAutocommit orderly alloc prep pub
  refine inv.act block found sound frame (.head _) (fun t => ?_) (le_refl _)
    (fun y mem => .inl mem) ⟨own.top, own.pending, own.target, fun level mem => ?_, fun schema eq => ?_⟩
  · split
    · subst t
      exact found
    · rfl
  · rw [isEmpty_iff.mp none_] at mem
    cases mem
  · rw [phase] at eq
    cases eq

/-- Snapshots, clean-ups and removals leave entries, records and sessions alone. -/
theorem Inv.settle (objects : w'.state.objects = w.state.objects)
    (undo : w'.state.rollback = w.state.rollback) (arcs : w'.state.nextArc = w.state.nextArc)
    (blocks : w'.blocks = w.blocks) (xids : w'.nextXid = w.nextXid)
    (fixed : w.pool.Settled w'.pool) : w'.Inv := by
  have cells : w'.state.cells = w.state.cells := by
    unfold StorageState.cells
    rw [objects]
  have noted : ∀ y, w'.state.recorded y = w.state.recorded y := by
    intro y
    unfold StorageState.recorded
    rw [undo]
  refine inv.aside (inv.sound.settle cells noted arcs ?_ fixed) ?_ blocks xids
  · rw [undo]
    exact inv.sound.zero
  · exact fun y _ => ⟨by rw [undo], fun id _ _ => congrFun cells id⟩

end

/-- The pool after a change of the retired generations, the files about to be removed and the
snapshots. -/
theorem settled_lists (objects : w'.state.objects = w.state.objects)
    (rollback : w'.state.rollback = w.state.rollback)
    (retired : ∀ r ∈ w'.state.retiredGenerations, r ∈ w.state.retiredGenerations ∨ r ∈ w.candidates)
    (candidates : ∀ r ∈ w'.candidates, r ∈ w.candidates ∨
      (r ∈ w.state.retiredGenerations ∧ w.referenced r = false))
    (doomed : ∀ f ∈ w'.doomed, f ∈ w.doomed)
    (snapshots : ∀ o ∈ w'.snapshots, o ∈ w.snapshots ∨ o = w.state.objects) :
    w.pool.Settled w'.pool where
  cur := by
    funext id
    change entryGen (w'.state.objects.lookup id) = entryGen (w.state.objects.lookup id)
    rw [objects]
  before := by
    funext y id
    change (w'.state.recorded y id).map entryGen = (w.state.recorded y id).map entryGen
    unfold StorageState.recorded
    rw [rollback]
  unpub y s mem := by
    obtain ⟨r, found, rest⟩ := mem_unpub.mp mem
    exact mem_unpub.mpr ⟨r, rollback ▸ found, rest⟩
  retired := by
    rintro R ⟨r, mem, rfl⟩
    rw [mem_retirements] at mem
    rcases mem with mem | ⟨y, mem⟩
    · rcases retired r mem with old | candidate
      · exact .inl ⟨r, mem_retirements.mpr (.inl old), rfl⟩
      refine .inr ?_
      rintro s ⟨f, listed, rfl⟩
      exact .inl (.inr ⟨r, candidate, f, listed, rfl⟩)
    · refine .inl ⟨r, mem_retirements.mpr (.inr ⟨y, ?_⟩), rfl⟩
      unfold supersededOf at mem ⊢
      rwa [rollback] at mem
  doomed := by
    rintro s (⟨f, mem, rfl⟩ | ⟨r, mem, f, listed, rfl⟩)
    · exact .inl (.inl ⟨f, doomed f mem, rfl⟩)
    rcases candidates r mem with old | ⟨retired, unreferenced⟩
    · exact .inl (.inr ⟨r, old, f, listed, rfl⟩)
    refine .inr ⟨r.retired, ⟨r, mem_retirements.mpr (.inl retired), rfl⟩, ⟨f, listed, rfl⟩,
      fun id h held ref => ?_⟩
    obtain ⟨g, mem, rfl⟩ := held_of_pool held
    have alive : w.referenced r = true :=
      any_eq_true.mpr ⟨g.arc, ref, any_eq_true.mpr ⟨(id, g), mem, by simp⟩⟩
    rw [unreferenced] at alive
    cases alive
  snaps := by
    rintro σ ⟨o, mem, rfl⟩
    rcases snapshots o mem with old | rfl
    · exact .inl ⟨o, old, rfl⟩
    · exact .inr rfl

/-- Every step that meets the condition keeps the invariant. -/
theorem Inv.step {action : Action} (inv : w.Inv) (orderly : w.Orderly action)
    (taken : w.step action = some w') : w'.Inv := by
  cases action with
  | start => exact inv.start taken
  | statement txnId stmt =>
    obtain ⟨block, here, taken⟩ := bind_eq_some_iff.mp taken
    exact inv.statement here (orderly block here) taken
  | startIndex txnId schema => exact inv.startIndex orderly taken
  | publishIndex txnId => exact inv.publishIndex taken
  | abandonIndex txnId =>
    obtain ⟨block, found, taken⟩ := bind_eq_some_iff.mp taken
    split at taken
    · cases taken
      exact inv.enter found (Subset.refl _) nofun nofun nofun
    · cases taken
  | rollbackTo txnId name => exact inv.rollbackTo taken
  | rollback txnId =>
    obtain ⟨block, here, rfl⟩ := map_eq_some_iff.mp taken
    refine inv.enter (running_eq here).1 (nil_subset _) (fun x mem => ?_) nofun nofun
    rcases mem_append.mp mem with mem | mem
    · exact .inl (mem_reverse.mp mem)
    · exact .inr ⟨mem_singleton.mp mem, rfl⟩
  | commit txnId =>
    obtain ⟨block, here, rfl⟩ := map_eq_some_iff.mp taken
    refine inv.enter (running_eq here).1 (nil_subset _) (fun x mem => ?_) nofun nofun
    rcases mem_append.mp mem with mem | mem
    · exact .inl mem
    · exact .inr ⟨mem_singleton.mp mem, rfl⟩
  | endNext txnId => exact inv.endNext taken
  | finish txnId => exact inv.finish taken
  | publishTruncate txnId updates => exact inv.publishTruncate orderly taken
  | setTableSchema schema =>
    simp only [World.step, ite_none_right_eq_some] at taken
    obtain ⟨same, taken⟩ := taken
    obtain ⟨s', set, rfl⟩ := map_eq_some_iff.mp taken
    obtain ⟨sound, frame⟩ := inv.sound.setTableSchema orderly same set
    exact inv.aside sound frame rfl rfl
  | capture =>
    cases taken
    refine inv.settle rfl rfl rfl rfl rfl (settled_lists rfl rfl (fun _ => .inl) (fun _ => .inl)
      (fun _ mem => mem) fun o mem => ?_)
    exact (mem_cons.mp mem).symm
  | release snap =>
    cases taken
    exact inv.settle rfl rfl rfl rfl rfl (settled_lists rfl rfl (fun _ => .inl) (fun _ => .inl)
      (fun _ mem => mem) fun o mem => .inl (mem_of_mem_eraseIdx mem))
  | collect =>
    cases taken
    refine inv.settle rfl rfl rfl rfl rfl (settled_lists rfl rfl
      (fun r mem => .inl (mem_filter.mp mem).1) (fun r mem => ?_) (fun _ mem => mem)
      fun _ => .inl)
    refine (mem_append.mp mem).imp_right fun mem => ?_
    obtain ⟨retired, unreferenced⟩ := mem_filter.mp mem
    exact ⟨retired, by simpa using unreferenced⟩
  | removeCandidate =>
    simp only [World.step] at taken
    split at taken
    · cases taken
    rename_i r rest cands
    cases taken
    exact inv.settle rfl rfl rfl rfl rfl (settled_lists rfl rfl (fun _ => .inl)
      (fun r mem => .inl (cands ▸ .tail _ mem)) (fun _ mem => mem)
      fun _ => .inl)
  | requeueCandidate =>
    simp only [World.step] at taken
    split at taken
    · cases taken
    rename_i r rest cands
    cases taken
    refine inv.settle rfl rfl rfl rfl rfl (settled_lists rfl rfl (fun r' mem => ?_)
      (fun r mem => .inl (cands ▸ .tail _ mem)) (fun _ mem => mem)
      fun _ => .inl)
    refine (mem_append.mp mem).imp_right fun mem => ?_
    rw [cands, mem_singleton.mp mem]
    exact .head _
  | removeDoomed =>
    simp only [World.step] at taken
    split at taken
    · cases taken
    rename_i f rest doomed
    cases taken
    exact inv.settle rfl rfl rfl rfl rfl (settled_lists rfl rfl (fun _ => .inl) (fun _ => .inl)
      (fun f mem => doomed ▸ .tail _ mem) fun _ => .inl)
  | giveUp cands doomed =>
    cases taken
    refine inv.settle rfl rfl rfl rfl rfl (settled_lists rfl rfl (fun _ => .inl)
      (fun r mem => .inl ?_) (fun f mem => ?_) fun _ => .inl)
    · split at mem
      · cases mem
      · exact mem
    dsimp only at mem
    split at mem
    · cases mem
    · exact mem

/-! ### Safety -/

/-- What the engine holds, the pool holds: a savepoint's copies are the engine's. -/
theorem Inv.heldAt {id : ObjectId} {g : Generation} (inv : w.Inv) (mem : (id, g) ∈ w.held) :
    w.pool.HeldAt id g.gen := by
  have inst : w.state.cells id = some (.generation g) → w.pool.HeldAt id g.gen := fun here =>
    .inl (entryGen_eq_some.mpr ⟨g, here, rfl⟩)
  have noted : ∀ x, w.state.recorded x id = some (some (.generation g)) →
      w.pool.HeldAt id g.gen := fun x here =>
    .inr (.inl ⟨x, congrArg (Option.map entryGen) here⟩)
  unfold held at mem
  simp only [mem_append, mem_flatMap] at mem
  rcases mem with ((mem | ⟨⟨x, r⟩, found, mem⟩) | ⟨storage, saved, mem⟩) | ⟨o, snap, mem⟩
  · exact inst (Objects.mem_generations.mp mem)
  · exact noted x (recorded_eq_some.mpr
      ⟨r, AList.mem_lookup_iff.mpr found, Before.mem_generations.mp mem⟩)
  · obtain ⟨⟨txnId, block⟩, found, here⟩ := mem_flatMap.mp saved
    obtain ⟨level, level_mem, rfl⟩ := mem_map.mp here
    have anchored := (inv.block txnId block (AList.mem_lookup_iff.mpr found)).anchored level level_mem
    rcases mem_append.mp mem with mem | mem
    · rw [anchored.1] at mem
      cases lookup : w.state.rollback.lookup txnId with
      | none =>
        rw [lookup] at mem
        cases mem
      | some r =>
        rw [lookup] at mem
        exact noted txnId (recorded_eq_some.mpr ⟨r, lookup, Before.mem_generations.mp mem⟩)
    · have saved := (anchored.2 id).symm.trans (Before.mem_generations.mp mem)
      obtain ⟨v, -, now⟩ := map_eq_some_iff.mp saved
      exact inst now
  · exact .inr (.inr ⟨_, ⟨o, snap, rfl⟩,
      entryGen_eq_some.mpr ⟨g, Objects.mem_generations.mp mem, rfl⟩⟩)

/-- What is about to be removed is not in use. -/
theorem Inv.unused (inv : w.Inv) {f : FileId} (doomed : f.store ∈ w.pool.doomed) : ¬w.Used f := by
  rintro ⟨⟨id, g⟩, mem, alive, file⟩
  refine inv.sound.pool.safe doomed (inv.heldAt mem) ?_ (Relation.mem_files.mp file).symm
  simpa [Generation.gen] using alive

theorem doomed_of_removes {action : Action} {f : FileId} (mem : f ∈ w.removes action) :
    f.store ∈ w.pool.doomed := by
  unfold removes at mem
  split at mem
  · cases first : w.candidates.head? with
    | none =>
      rw [first] at mem
      cases mem
    | some r =>
      rw [first] at mem
      exact .inr ⟨r, mem_of_mem_head? first, f, mem, rfl⟩
  · exact .inl ⟨f, mem_of_mem_take mem, rfl⟩
  · cases mem

/-- The relations that an engine is opened with: each has storage and an identity of its own,
and is of the kind of its object. -/
def Opened (objects : Objects) (nextArc : Nat) : Prop :=
  ∀ e ∈ objects.generations, e.2.relation.fits e.1 = true ∧ e.2.arc < nextArc ∧
    ∀ e' ∈ objects.generations, (e.2.relation.store = e'.2.relation.store → e.1 = e'.1) ∧
      (e.2.arc = e'.2.arc → e.2 = e'.2)

instance (objects : Objects) (nextArc : Nat) : Decidable (Opened objects nextArc) :=
  inferInstanceAs (Decidable (∀ _ ∈ _, _))

theorem Inv.opened {objects : Objects} {nextArc nextXid : Nat} (opened : Opened objects nextArc)
    (pos : 0 < nextXid) : (World.opened objects nextArc nextXid).Inv := by
  have held : ∀ id h, (World.opened objects nextArc nextXid).pool.HeldAt id h →
      ∃ g, (id, g) ∈ objects.generations ∧ g.gen = h := by
    rintro id h (current | ⟨x, noted⟩ | ⟨σ, ⟨o, mem, -⟩, -⟩)
    · obtain ⟨g, here, eq⟩ := entryGen_eq_some.mp current
      exact ⟨g, Objects.mem_generations.mpr here, eq⟩
    · cases noted
    · cases mem
  have empty : ∀ x, (World.opened objects nextArc nextXid).pool.unpub x = ∅ := by
    refine fun x => Set.eq_empty_of_forall_notMem fun s mem => ?_
    obtain ⟨f, ⟨⟩, -⟩ := mem
  refine ⟨⟨⟨fun i j g h heldG heldH same => ?_, fun i j g h heldG heldH same => ?_, fun i g here => ?_,
    nofun, nofun, nofun, nofun, nofun, ?_, ?_, ?_, fun x s mem => ?_, fun x y s mem => ?_, ?_, ?_, ?_⟩,
    fun id g here => ?_, nofun, rfl⟩, pos, nofun, nofun, nofun⟩
  · obtain ⟨a, memA, rfl⟩ := held i g heldG
    obtain ⟨b, memB, rfl⟩ := held j h heldH
    exact ((opened _ memA).2.2 _ memB).1 same
  · obtain ⟨a, memA, rfl⟩ := held i g heldG
    obtain ⟨b, memB, rfl⟩ := held j h heldH
    exact congrArg Generation.gen (((opened _ memA).2.2 _ memB).2 same)
  · obtain ⟨a, mem, rfl⟩ := held i g here
    exact (opened _ mem).2.1
  · rintro R ⟨r, ⟨⟩, -⟩
  · rintro R ⟨r, ⟨⟩, -⟩
  · rintro R ⟨r, ⟨⟩, -⟩
  · rw [empty] at mem
    cases mem
  · rw [empty] at mem
    cases mem
  · rintro R ⟨r, ⟨⟩, -⟩
  · rintro s (⟨f, mem, -⟩ | ⟨r, mem, -⟩) <;> cases mem
  · rintro s (⟨f, mem, -⟩ | ⟨r, mem, -⟩) <;> cases mem
  · exact (opened _ (Objects.mem_generations.mpr here)).1

end World

/-- **A relation file in use is not removed.** In every run of an opened engine whose steps all
meet the condition, a step removes a file only when no installed relation, no relation that a
rollback could restore and no relation of a captured snapshot uses it. -/
theorem used_files_not_removed {objects : Objects} {nextArc nextXid : Nat}
    {actions : List World.Action} {w : World} (opened : World.Opened objects nextArc)
    (positive : 0 < nextXid)
    (run : Transition.Run World.step World.Orderly (.opened objects nextArc nextXid) actions w) :
    ∀ action, ∀ f ∈ w.removes action, ¬w.Used f := by
  have inv : w.Inv := run.invariant (fun _ _ _ inv orderly taken => inv.step orderly taken)
    (World.Inv.opened opened positive)
  exact fun action f mem => inv.unused (World.doomed_of_removes mem)

section Examples

open World

instance (w : World) (f : FileId) : Decidable (w.Used f) :=
  inferInstanceAs (Decidable (∃ _ ∈ _, _ ∧ _))

/-- Two tables, with storage ids 1 and 2. -/
def twoTables : Objects :=
  ((∅ : Objects).insert (.table 1) (.generation ⟨0, .table ⟨1, 1, none, false⟩, false⟩)).insert
    (.table 2) (.generation ⟨1, .table ⟨2, 2, none, false⟩, false⟩)

def inTransaction (txnId : Nat) (statements : List Session.Statement) : List Action :=
  statements.map (.statement txnId)

/-- One transaction alters a table under a savepoint and goes back to it while another
truncates the other table twice and commits; then the files of the first truncated generation
are removed. -/
theorem used_files_not_removed_interleaved : ∃ actions w,
    Transition.Run World.step World.Orderly (.opened twoTables 2 1) actions w ∧
    FileId.heap 1 ∈ w.removes .removeCandidate ∧ ¬w.Used (.heap 1) := by
  let actions : List Action := .start :: inTransaction 1 [.savepoint "a", alter 2 2] ++
      .start :: inTransaction 3 (truncateTo 1 5) ++ [.rollbackTo 1 "a", .endNext 1, .finish 1] ++
      inTransaction 3 (truncateTo 1 6) ++ [.commit 3, .endNext 3, .finish 3, .collect]
  obtain ⟨w, run, removed⟩ : ∃ w, Transition.Run World.step World.Orderly (.opened twoTables 2 1)
      actions w ∧ FileId.heap 1 ∈ w.removes .removeCandidate :=
    Transition.Run.evaluated (by decide +kernel)
  exact ⟨actions, w, run, removed,
    used_files_not_removed (by decide +kernel) (by decide) run _ _ removed⟩

/-- Three runs that do not meet the condition. A table is altered and truncated in one
transaction that is rolled back: the superseded generation is retired, and its files are those
of the restored one. A table's compression is set while a snapshot holds the generation before;
TRUNCATE retires the files with a reference to the new generation only. TRUNCATE runs under a
savepoint: its files stay among the unpublished ones of the subtransaction, and the rollback
removes them while they are installed. -/
theorem used_files_removed : (Transition.exec World.step (fun _ _ => true) (.opened twoTables 2 1)
      (.start :: inTransaction 1 (alter 1 1 :: truncateTo 1 5) ++
        [.rollback 1, .endNext 1, .finish 1, .collect, .removeCandidate])).map (fun w =>
          (w.removes .removeCandidate, w.installed (.table 1), decide (w.Used (.heap 1)))) =
      some ([.heap 1, .primaryIndex 1], some ⟨0, .table ⟨1, 1, none, false⟩, false⟩, true) ∧
    (Transition.exec World.step (fun _ _ => true) (.opened twoTables 2 1)
      (.capture :: .setTableSchema ⟨1, 1, none, false⟩ :: .start ::
        .statement 1 (.prepareTruncate ⟨⟨1, 5, none, false⟩, none, []⟩) ::
        [.publishTruncate 1 [⟨⟨1, 5, none, false⟩, none, []⟩], .collect])).map (fun w =>
          (w.removes .removeCandidate, decide (w.Used (.heap 1)))) =
      some ([.heap 1, .primaryIndex 1], true) ∧
    (Transition.exec World.step (fun _ _ => true) (.opened twoTables 2 1)
      (.start :: inTransaction 1 (.savepoint "a" :: truncateTo 1 5) ++
        [.rollback 1, .endNext 1])).map (fun w =>
          (w.removes .removeDoomed, w.installed (.table 1), decide (w.Used (.heap 5)))) =
      some ([.heap 5], some ⟨2, .table ⟨1, 5, none, false⟩, false⟩, true) := by
  refine ⟨?_, ?_, ?_⟩ <;> decide +kernel

end Examples

end Saguaro.Relations
