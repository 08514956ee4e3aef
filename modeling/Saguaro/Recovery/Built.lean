/-
Pages as their records build them.

`Built rs p`: redoing the records `rs`, the oldest first, on the empty page gives `p`, and
each of them finds a page older than itself. A page on disk, in a write that may be torn,
or in a dirty frame is the page after the first so many of its records.
-/

import Saguaro.Recovery.World

namespace Saguaro.Recovery

open Storage Buffer Wal Result List Block Except

variable {fmt : PageFormat} {χ : Type}

inductive Built : List (WalEntry χ) → Page fmt → Prop where
  | nil : Built [] (zero _)
  | snoc {rs : List (WalEntry χ)} {p q : Page fmt} {e : WalEntry χ} : Built rs p →
      pageLsn p < e.record.lsn → redo p e.record.lsn e.record.kind = .ok q → isValid q = true →
      pageLsn q = e.record.lsn → Built (rs ++ [e]) q

section Built

variable {rs : List (WalEntry χ)} {p q : Page fmt} {e : WalEntry χ}

theorem Built.snoc_inv (built : Built (rs ++ [e]) q) : ∃ p, Built rs p ∧ pageLsn p < e.record.lsn ∧
    redo p e.record.lsn e.record.kind = .ok q ∧ isValid q = true ∧ pageLsn q = e.record.lsn := by
  generalize same : rs ++ [e] = all at built
  cases built with
  | nil => simp at same
  | snoc prior newer redone valid stamped =>
    obtain ⟨rfl, rfl⟩ := append_inj' same rfl |>.imp id fun h => (cons.inj h).1
    exact ⟨_, prior, newer, redone, valid, stamped⟩

theorem Built.nil_inv (built : Built ([] : List (WalEntry χ)) q) : q = zero _ := by
  generalize same : ([] : List (WalEntry χ)) = all at built
  cases built with
  | nil => rfl
  | snoc => simp at same

section

variable (built : Built rs p)

include built

theorem Built.unique (again : Built rs q) : p = q := by
  induction built generalizing q with
  | nil => exact again.nil_inv.symm
  | snoc _ _ redone _ _ ih =>
    obtain ⟨p', prior, -, redone', -⟩ := again.snoc_inv
    obtain rfl := ih prior
    exact ok.inj (redone.symm.trans redone')

theorem Built.replay :
    replay (zero fmt.pageSize) (rs.map fun e => (e.record.lsn, e.record.kind)) = .ok p := by
  induction built with
  | nil => rfl
  | snoc _ _ redone _ _ ih =>
    rw [map_append, replay_append, ih]
    simp [Except.bind, Storage.replay, redone, bind]

theorem Built.take (j : Nat) : ∃ q : Page fmt, Built (rs.take j) q := by
  induction built with
  | nil => exact ⟨_, by simpa using Built.nil⟩
  | @snoc rs p q e before newer redone valid stamped ih =>
    rcases lt_or_ge rs.length j with lt | le
    · refine ⟨q, ?_⟩
      rw [take_of_length_le (by simp only [length_append, length_singleton]; omega)]
      exact before.snoc newer redone valid stamped
    · rwa [take_append_of_le_length le]

/-- A page that its records built is trusted by recovery. -/
theorem Built.trusted : (if isValid p then p else zero _) = p := by
  cases built with
  | nil => exact ite_self _
  | snoc _ _ _ valid _ => exact if_pos valid

theorem Built.lsn_le (mem : e ∈ rs) : e.record.lsn ≤ pageLsn p := by
  induction built with
  | nil => cases mem
  | snoc _ newer _ _ stamped ih =>
    rcases mem_append.mp mem with old | new
    · exact stamped ▸ (ih old).trans newer.le
    · rw [mem_singleton.mp new, stamped]

/-- The page before a record, and what the record makes of it. -/
theorem Built.next {j : Nat} (at_ : rs[j]? = some e) :
    ∃ s q : Page fmt, Built (rs.take j) s ∧ Built (rs.take (j + 1)) q ∧ pageLsn s < e.record.lsn ∧
      redo s e.record.lsn e.record.kind = .ok q := by
  obtain ⟨q, upTo⟩ := built.take (j + 1)
  obtain ⟨lt, rfl⟩ := List.getElem?_eq_some_iff.mp at_
  have cut := take_succ_eq_append_getElem lt
  obtain ⟨s, prior, newer, redone, -⟩ := Built.snoc_inv (cut ▸ upTo)
  exact ⟨s, q, prior, upTo, newer, redone⟩

end

end Built

/-! ### Redo of one record -/

section Redo

variable {d q : Page fmt} {lsn : Nat} {kind : WalRecordKind χ}

theorem applied_of_applyPhysicalRedo {appl : Bool} (newer : pageLsn d < lsn)
    (redone : applyPhysicalRedo d lsn kind = .ok (appl, q)) : appl = true := by
  unfold applyPhysicalRedo at redone
  rw [if_neg (not_le.mpr newer)] at redone
  cases kind with
  | heapInit =>
    cases redone
    rfl
  | heapInsert =>
    obtain ⟨_, -, more⟩ := bind_eq_ok.mp redone
    obtain ⟨_, -, ⟨⟩⟩ := bind_eq_ok.mp more
    rfl
  | heapDelete | heapUpdateHeader =>
    obtain ⟨_, -, ⟨⟩⟩ := bind_eq_ok.mp redone
    rfl
  | fullPageImage =>
    simp only at redone
    split at redone
    · cases redone
    · cases redone
      rfl
  | _ => cases redone

/-- A record that `redo` applies is applied by recovery, and published. -/
theorem applies_of_redo (newer : pageLsn d < lsn) (redone : redo d lsn kind = .ok q) :
    ∃ plain, normalizeFpi fmt kind = .ok plain ∧ applyPhysicalRedo d lsn plain = .ok (true, q) := by
  obtain ⟨plain, norm, more⟩ := bind_eq_ok.mp redone
  obtain ⟨⟨appl, d'⟩, done, ⟨⟩⟩ := bind_eq_ok.mp more
  obtain rfl := applied_of_applyPhysicalRedo newer done
  exact ⟨plain, norm, done⟩

theorem isBase_normalizeFpi {plain : WalRecordKind χ} (base : isBase kind = true)
    (norm : normalizeFpi fmt kind = .ok plain) :
    (∃ fileId pageNum, plain = .heapInit fileId pageNum) ∨
      ∃ fileId pageNum image, plain = .fullPageImage fileId pageNum image := by
  cases kind with
  | heapInit => exact .inl ⟨_, _, (ok.inj norm).symm⟩
  | fullPageImage => exact .inr ⟨_, _, _, (ok.inj norm).symm⟩
  | fullPageImageCompressed =>
    obtain ⟨image, -, same⟩ := bind_eq_ok.mp norm
    exact .inr ⟨_, _, image, (ok.inj same).symm⟩
  | _ => cases base

/-- The redo of a base record does not read the page. -/
theorem redo_base {d' : Page fmt} (base : isBase kind = true) (newer : pageLsn d < lsn)
    (newer' : pageLsn d' < lsn) : redo d lsn kind = redo d' lsn kind := by
  unfold redo
  cases norm : normalizeFpi fmt kind with
  | error => simp only [bind, Except.bind]
  | ok plain =>
    have same : applyPhysicalRedo d lsn plain = applyPhysicalRedo d' lsn plain := by
      rcases isBase_normalizeFpi base norm with ⟨_, _, rfl⟩ | ⟨_, _, _, rfl⟩ <;>
        simp [applyPhysicalRedo, not_le.mpr newer, not_le.mpr newer']
    simp [bind, Except.bind, same]

@[simp] theorem pageLsn_zero : pageLsn (Block.zero fmt.pageSize) = 0 := by
  have zero : (Block.zero fmt.pageSize).slice PAGE_LSN_OFFSET 8 = replicate 8 0 := by
    refine ext_getElem (by simp [Block.slice]) fun i _ _ => ?_
    simp [Block.slice, Block.byte, Block.zero]
  rw [pageLsn, Block.readLe, zero]
  rfl

end Redo

/-! ### Edits -/

section Edits

variable {f : Frame (Page fmt)} {key : PageKey} {edit : Edit fmt} {d : Page fmt} {lsn : Nat}
  {kind : WalRecordKind χ}

theorem pageKey_fpiRecordKind {fileId pageNum : UInt32} {image : Page fmt} :
    pageKey (fpiRecordKind (χ := χ) fileId pageNum image) = some (fileId, pageNum) := by
  unfold fpiRecordKind
  split <;> rfl

theorem pageKey_run {q : Page fmt} (ran : edit.run key.1 key.2 d lsn = .ok (kind, q)) :
    pageKey kind = some key := by
  cases edit with
  | init =>
    cases ran
    rfl
  | insert rowBytes needsFpi =>
    obtain ⟨_, -, same⟩ := bind_eq_ok.mp ran
    cases ok.inj same
    cases needsFpi with
    | true => exact pageKey_fpiRecordKind
    | false => rfl
  | stamp slot xmax tCtid infomask needsFpi =>
    obtain ⟨_, -, same⟩ := bind_eq_ok.mp ran
    cases ok.inj same
    cases needsFpi with
    | true => exact pageKey_fpiRecordKind
    | false => rfl
  | delete =>
    obtain ⟨_, -, same⟩ := bind_eq_ok.mp ran
    cases ok.inj same
    rfl
  | fullImage image =>
    cases ok.inj ran
    exact pageKey_fpiRecordKind

/-- On a frame whose next record is a full image, redo of the record does not depend on the
page it is replayed on. -/
theorem redo_run_of_needsFpi {p q : Page fmt} (can : canEdit f edit = true) (fpi : f.needsFpi = true)
    (ran : edit.run key.1 key.2 f.data lsn = .ok (kind, q)) (newer : pageLsn p < lsn) :
    redo p lsn kind = .ok q := by
  cases edit with
  | init =>
    cases ran
    simp [redo, normalizeFpi, applyPhysicalRedo, not_le.mpr newer, pure, Except.pure]
  | insert rowBytes needsFpi =>
    simp only [canEdit, fpi, Bool.and_eq_true, beq_iff_eq] at can
    obtain ⟨⟨rfl, -⟩, -⟩ := can
    obtain ⟨_, -, ⟨⟩⟩ := bind_eq_ok.mp ran
    exact redo_fpiRecordKind newer
  | stamp slot xmax tCtid infomask needsFpi =>
    simp only [canEdit, fpi, Bool.and_eq_true, beq_iff_eq] at can
    obtain ⟨rfl, -⟩ := can
    obtain ⟨_, -, ⟨⟩⟩ := bind_eq_ok.mp ran
    exact redo_fpiRecordKind newer
  | delete => cases can
  | fullImage image =>
    cases ran
    exact redo_fpiRecordKind newer

/-- The engine only leaves valid pages. -/
theorem valid_run {q : Page fmt} (can : canEdit f edit = true)
    (ran : edit.run key.1 key.2 f.data lsn = .ok (kind, q)) : isValid q = true := by
  cases edit with
  | init =>
    cases ran
    exact isValid_iff.mpr ⟨_, (valid_initPage fmt _).1.setPageLsn lsn⟩
  | insert rowBytes needsFpi =>
    simp only [canEdit, Bool.and_eq_true, beq_iff_eq, Bool.not_eq_true'] at can
    obtain ⟨⟨-, data⟩, ne⟩ := can
    obtain ⟨⟨slot, image⟩, ins, ⟨⟩⟩ := bind_eq_ok.mp ran
    obtain ⟨h, checked, -⟩ := insertRow_eq_ok.mp ins
    have long : 0 < rowBytes.length := by
      cases rowBytes with
      | nil => cases ne
      | cons => exact Nat.succ_pos _
    obtain ⟨h', valid, -⟩ := (validate_eq_ok.mp checked).insertRow data long ins
    exact isValid_iff.mpr ⟨h', valid.setPageLsn lsn⟩
  | stamp slot xmax tCtid infomask needsFpi =>
    simp only [canEdit, Bool.and_eq_true, beq_iff_eq] at can
    obtain ⟨image, set, ⟨⟩⟩ := bind_eq_ok.mp ran
    obtain ⟨s, checked, -⟩ := bind_eq_ok.mp set
    obtain ⟨h, read, -⟩ := bind_eq_ok.mp checked
    obtain ⟨valid, -⟩ := (validate_eq_ok.mp read).setTupleHeader can.2 set
    exact isValid_iff.mpr ⟨h, valid.setPageLsn lsn⟩
  | delete => cases can
  | fullImage image =>
    cases ran
    obtain ⟨h, valid⟩ := isValid_iff.mp can
    exact isValid_iff.mpr ⟨h, valid.setPageLsn lsn⟩

end Edits

end Saguaro.Recovery
