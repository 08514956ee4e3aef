/-
Lock owners, resources and modes (`crates/server/src/lock_manager.rs`,
`crates/common/src/locking.rs`).

The modes of one family are totally ordered from weakest to strongest, and a
stronger mode is compatible with no more than a weaker one
(`ObjectLockMode.compatible_of_covers`): this is what lets every rollback path
weaken a grant without looking at the other owners.
-/

import Saguaro.Common.Error
import Saguaro.Mvcc.Snapshot
import Mathlib.Order.Basic

namespace Saguaro.Locks

/-- A logical lock owner; savepoint ids are canonicalized to their top-level id. -/
inductive LockOwner where
  | transaction (xid : TxnId)
  | statement (id : Nat)
  deriving DecidableEq, Repr

/-- `NormalizedCatalogName`: an ASCII-lowercased name. -/
structure NormalizedCatalogName where
  name : String
  deriving DecidableEq, Repr

def NormalizedCatalogName.new (name : String) : NormalizedCatalogName := ⟨name.map Char.toLower⟩

/-- A lockable object. Row keys are an arbitrary type `K`. -/
inductive LockResource (K : Type) where
  | schema (schema : Nat)
  | catalogName (schema : Nat) (name : NormalizedCatalogName)
  | table (table : TableId)
  | tuple (table : TableId) (key : K)
  | sequence (sequence : Nat)
  deriving DecidableEq, Repr

inductive RelationLockMode where
  | accessShare
  | rowShare
  | rowExclusive
  | share
  | accessExclusive
  deriving DecidableEq, Repr

inductive SequenceLockMode where
  | access
  | exclusive
  deriving DecidableEq, Repr

inductive CatalogLockMode where
  | access
  | exclusive
  deriving DecidableEq, Repr

/-- Row lock strengths, weakest first. -/
inductive TupleLockMode where
  | keyShare
  | share
  | noKeyUpdate
  | update
  deriving DecidableEq, Repr

inductive ObjectLockMode where
  | catalog (mode : CatalogLockMode)
  | relation (mode : RelationLockMode)
  | sequence (mode : SequenceLockMode)
  | tuple (mode : TupleLockMode)
  deriving DecidableEq, Repr

/-! The derived `Ord` of the source compares declaration positions. -/

def RelationLockMode.rank : RelationLockMode → Nat
  | .accessShare => 0
  | .rowShare => 1
  | .rowExclusive => 2
  | .share => 3
  | .accessExclusive => 4

def SequenceLockMode.rank : SequenceLockMode → Nat
  | .access => 0
  | .exclusive => 1

def CatalogLockMode.rank : CatalogLockMode → Nat
  | .access => 0
  | .exclusive => 1

def TupleLockMode.rank : TupleLockMode → Nat
  | .keyShare => 0
  | .share => 1
  | .noKeyUpdate => 2
  | .update => 3

/-- `max` by position; Rust's `max` keeps its second argument on a tie. -/
def maxBy {M : Type} (rank : M → Nat) (left right : M) : M :=
  if rank right < rank left then left else right

def relationCompatible : RelationLockMode → RelationLockMode → Bool
  | .accessShare, right => right ≠ .accessExclusive
  | .rowShare, right => right ≠ .accessExclusive
  | .rowExclusive, right => right = .accessShare ∨ right = .rowShare ∨ right = .rowExclusive
  | .share, right => right = .accessShare ∨ right = .rowShare
  | .accessExclusive, _ => false

def tupleCompatible : TupleLockMode → TupleLockMode → Bool
  | .keyShare, right => right ≠ .update
  | .share, right => right = .keyShare ∨ right = .share
  | .noKeyUpdate, right => right = .keyShare
  | .update, _ => false

namespace ObjectLockMode

/-- `ObjectLockMode::compatible`. -/
def compatible : ObjectLockMode → ObjectLockMode → Bool
  | .catalog .access, .catalog .access => true
  | .catalog _, .catalog _ => false
  | .relation left, .relation right => relationCompatible left right
  | .tuple left, .tuple right => tupleCompatible left right
  | .sequence .access, .sequence .access => true
  | .sequence _, .sequence _ => false
  | _, _ => false

/-- `ObjectLockMode::covers`. -/
def covers : ObjectLockMode → ObjectLockMode → Bool
  | .catalog held, .catalog requested => decide (requested.rank ≤ held.rank)
  | .relation held, .relation requested => decide (requested.rank ≤ held.rank)
  | .sequence held, .sequence requested => decide (requested.rank ≤ held.rank)
  | .tuple held, .tuple requested => decide (requested.rank ≤ held.rank)
  | _, _ => false

/-- `ObjectLockMode::strongest`. -/
def strongest : ObjectLockMode → ObjectLockMode → Result ObjectLockMode
  | .catalog left, .catalog right => .ok (.catalog (maxBy CatalogLockMode.rank left right))
  | .relation left, .relation right => .ok (.relation (maxBy RelationLockMode.rank left right))
  | .sequence left, .sequence right => .ok (.sequence (maxBy SequenceLockMode.rank left right))
  | .tuple left, .tuple right => .ok (.tuple (maxBy TupleLockMode.rank left right))
  | _, _ => .error (.internal "object lock modes have different resource types")

theorem compatible_symm (m n : ObjectLockMode) : m.compatible n = n.compatible m := by
  rcases m with m | m | m | m <;> rcases n with n | n | n | n <;> cases m <;> cases n <;> rfl

@[simp] theorem covers_refl (m : ObjectLockMode) : m.covers m = true := by
  cases m <;> simp [covers]

section

variable {l m n : ObjectLockMode} (h : l.covers m = true)

include h

theorem covers_trans (h' : m.covers n = true) : l.covers n = true := by
  cases l <;> cases m <;> simp [covers] at h <;> cases n <;> simp [covers] at h' ⊢ <;> omega

/-- **Weakening a grant keeps it compatible.** -/
theorem compatible_of_covers (compat : l.compatible n = true) : m.compatible n = true := by
  rcases l with l | l | l | l <;> rcases m with m | m | m | m <;> simp only [covers] at h <;>
    first
    | cases h
    | (rcases n with n | n | n | n <;> cases l <;> cases m <;> cases n <;>
        first | rfl | (revert compat; decide) | (revert h; decide))

end

/-- A request its holder does not cover is the strongest of the two. -/
theorem strongest_eq_right {held requested : ObjectLockMode}
    (uncov : held.covers requested = false) {m : ObjectLockMode}
    (h : held.strongest requested = .ok m) : m = requested := by
  cases held <;> cases requested <;> simp [covers, strongest, maxBy] at uncov h ⊢ <;>
    rw [← h] <;> simp <;> intro lt <;> omega

end ObjectLockMode

/-- `ObjectLockRequest`. -/
structure ObjectLockRequest (K : Type) where
  resource : LockResource K
  mode : ObjectLockMode
  deriving DecidableEq, Repr

/-- A resource is permanently typed: which family of modes it takes. -/
def LockResource.admits {K : Type} : LockResource K → ObjectLockMode → Bool
  | .schema _, .catalog _ => true
  | .catalogName _ _, .catalog _ => true
  | .table _, .relation _ => true
  | .tuple _ _, .tuple _ => true
  | .sequence _, .sequence _ => true
  | _, _ => false

/-- `validate_request`. -/
def validateRequest {K : Type} (request : ObjectLockRequest K) : Result Unit :=
  if request.resource.admits request.mode then .ok ()
  else .error (.internal "object lock mode does not match resource")

/-- Two modes of one resource always have a strongest. -/
theorem LockResource.strongest_of_admits {K : Type} {res : LockResource K}
    {m n : ObjectLockMode} (hm : res.admits m = true) (hn : res.admits n = true) :
    ∃ s, m.strongest n = .ok s := by
  cases res <;> cases m <;> simp [admits] at hm <;> cases n <;> simp [admits] at hn <;>
    exact ⟨_, rfl⟩

/-- The modes of one resource are totally ordered. -/
theorem LockResource.covers_of_admits {K : Type} {res : LockResource K}
    {m n : ObjectLockMode} (hm : res.admits m = true) (hn : res.admits n = true)
    (uncov : m.covers n = false) : n.covers m = true := by
  cases res <;> cases m <;> simp [admits] at hm <;> cases n <;> simp [admits] at hn <;>
    simp [ObjectLockMode.covers] at uncov ⊢ <;> omega

end Saguaro.Locks
