/-
The grant table against the ledger of acquisitions.

The table is read here as two functions, from a resource and an owner to the mode
held and to the generation of the grant. `GrantsOk` is what the table alone
satisfies, `LedgerOk` ties it to the live acquisitions. Generations carry the
argument for rollbacks: a receipt only applies while the grant has the generation
the receipt created, every later acquisition of the row carries a larger one, and
every earlier one is covered by the mode the receipt goes back to.
-/

import Saguaro.Locks.Sessions

namespace Saguaro.Locks

open List ObjectLockMode

variable {K : Type} [DecidableEq K]

/-- The row a receipt is about. -/
def TupleGrantReceipt.row {K : Type} (r : TupleGrantReceipt K) : LockResource K :=
  .tuple r.tag.table r.tag.key

/-- A value for each resource and owner. -/
abbrev Holding (K : Type) (V : Type) := LockResource K → LockOwner → Option V

/-- Change the value of one owner at one resource. -/
def Holding.set {V : Type} (f : Holding K V) (resource : LockResource K) (owner : LockOwner)
    (v : Option V) : Holding K V := fun r o => if r = resource ∧ o = owner then v else f r o

/-- Change all values of one owner. -/
def Holding.setOwner {V : Type} (f : Holding K V) (owner : LockOwner)
    (v : LockResource K → Option V) : Holding K V := fun r o => if o = owner then v r else f r o

section

variable {V : Type} {f : Holding K V} {resource r : LockResource K} {owner o : LockOwner}

variable {v : Option V}

@[simp] theorem Holding.set_self : f.set resource owner v resource owner = v := by
  simp [Holding.set]

theorem Holding.set_other (other : r = resource → o ≠ owner) :
    f.set resource owner v r o = f r o := by
  simp only [Holding.set]
  rw [if_neg]
  rintro ⟨same, rfl⟩
  exact other same rfl

omit [DecidableEq K] in
@[simp] theorem Holding.setOwner_self {v : LockResource K → Option V} :
    f.setOwner owner v r owner = v r := by
  simp [Holding.setOwner]

omit [DecidableEq K] in
theorem Holding.setOwner_other {v : LockResource K → Option V} (ne : o ≠ owner) :
    f.setOwner owner v r o = f r o := by
  simp [Holding.setOwner, ne]

omit [DecidableEq K] in
theorem Holding.setOwner_same (f : Holding K V) (owner : LockOwner) :
    f.setOwner owner (fun r => f r owner) = f := by
  funext r o
  by_cases own : o = owner
  · subst own
    simp
  · rw [Holding.setOwner_other own]

theorem Holding.setOwner_set (f : Holding K V) {resource : LockResource K}
    {owner : LockOwner} {g : LockResource K → Option V} :
    (f.set resource owner v).setOwner owner g = f.setOwner owner g := by
  funext r o
  by_cases own : o = owner
  · subst own
    simp
  · rw [Holding.setOwner_other own, Holding.setOwner_other own, Holding.set_other fun _ => own]

end

/-! ### The table -/

structure GrantsOk (held : Holding K ObjectLockMode) (generation : Holding K Nat) (next : Nat) :
    Prop where
  typed : ∀ r o m, held r o = some m → r.admits m = true
  compatible : ∀ r o o' m m', o ≠ o' → held r o = some m → held r o' = some m' →
    m.compatible m' = true
  paired : ∀ table key o,
    (generation (.tuple table key) o).isSome = (held (.tuple table key) o).isSome
  issued : ∀ r o n, generation r o = some n → n ≤ next

/-- The resource `r` is a row. -/
def LockResource.isTuple {K : Type} : LockResource K → Bool
  | .tuple _ _ => true
  | _ => false

variable {held : Holding K ObjectLockMode} {generation : Holding K Nat} {next next' : Nat}
  {resource : LockResource K} {owner : LockOwner}

namespace GrantsOk

theorem set {v : Option ObjectLockMode} {n : Option Nat} (h : GrantsOk held generation next)
    (resource : LockResource K) (owner : LockOwner) (later : next ≤ next') (typed : ∀ m, v = some m → resource.admits m = true)
    (compatible : ∀ m, v = some m → ∀ o' m', o' ≠ owner → held resource o' = some m' →
      m.compatible m' = true)
    (paired : resource.isTuple = true → n.isSome = v.isSome) (issued : ∀ k, n = some k → k ≤ next') :
    GrantsOk (held.set resource owner v) (generation.set resource owner n) next' where
  typed r o m hm := by
    by_cases here : r = resource ∧ o = owner
    · obtain ⟨rfl, rfl⟩ := here
      exact typed m (by simpa using hm)
    · exact h.typed r o m (by simpa [Holding.set, here] using hm)
  compatible r o o' m m' ne hm hm' := by
    by_cases same : r = resource
    · subst same
      by_cases ho : o = owner
      · subst ho
        rw [Holding.set_other fun _ => ne.symm] at hm'
        exact compatible m (by simpa using hm) o' m' ne.symm hm'
      rw [Holding.set_other fun _ => ho] at hm
      by_cases ho' : o' = owner
      · subst ho'
        rw [compatible_symm]
        exact compatible m' (by simpa using hm') o m ho hm
      · rw [Holding.set_other fun _ => ho'] at hm'
        exact h.compatible r o o' m m' ne hm hm'
    · rw [Holding.set_other fun eq => absurd eq same] at hm hm'
      exact h.compatible r o o' m m' ne hm hm'
  paired table key o := by
    by_cases here : LockResource.tuple table key = resource ∧ o = owner
    · obtain ⟨rfl, rfl⟩ := here
      simpa using paired rfl
    · simpa [Holding.set, here] using h.paired table key o
  issued r o k hk := by
    by_cases here : r = resource ∧ o = owner
    · obtain ⟨rfl, rfl⟩ := here
      exact issued k (by simpa using hk)
    · exact le_trans (h.issued r o k (by simpa [Holding.set, here] using hk)) later

omit [DecidableEq K] in
/-- One owner's grants are replaced by weaker ones. -/
theorem setOwner {v : LockResource K → Option ObjectLockMode} {n : LockResource K → Option Nat}
    (h : GrantsOk held generation next) (later : next ≤ next')
    (weaker : ∀ r m, v r = some m → r.admits m = true ∧
      ∃ m', held r owner = some m' ∧ m'.covers m = true)
    (paired : ∀ table key, (n (.tuple table key)).isSome = (v (.tuple table key)).isSome)
    (issued : ∀ r k, n r = some k → k ≤ next') :
    GrantsOk (held.setOwner owner v) (generation.setOwner owner n) next' where
  typed r o m hm := by
    by_cases ho : o = owner
    · subst ho
      exact (weaker r m (by simpa using hm)).1
    · exact h.typed r o m (by simpa [Holding.setOwner, ho] using hm)
  compatible r o o' m m' ne hm hm' := by
    by_cases ho : o = owner
    · subst ho
      rw [Holding.setOwner_other ne.symm] at hm'
      obtain ⟨-, k, hk, covers⟩ := weaker r m (by simpa using hm)
      exact compatible_of_covers covers (h.compatible r o o' k m' ne hk hm')
    rw [Holding.setOwner_other ho] at hm
    by_cases ho' : o' = owner
    · subst ho'
      obtain ⟨-, k, hk, covers⟩ := weaker r m' (by simpa using hm')
      rw [compatible_symm]
      exact compatible_of_covers covers (h.compatible r o' o k m ne.symm hk hm)
    · rw [Holding.setOwner_other ho'] at hm'
      exact h.compatible r o o' m m' ne hm hm'
  paired table key o := by
    by_cases ho : o = owner
    · subst ho
      simpa using paired table key
    · simpa [Holding.setOwner, ho] using h.paired table key o
  issued r o k hk := by
    by_cases ho : o = owner
    · subst ho
      exact issued r k (by simpa using hk)
    · exact le_trans (h.issued r o k (by simpa [Holding.setOwner, ho] using hk)) later

end GrantsOk

/-! ### The ledger -/

/-- What a receipt promises about the live acquisitions. -/
structure ReceiptOk (next : Nat) (live : List (Given K)) (r : TupleGrantReceipt K)
    (ticket : Nat) : Prop where
  issued : r.grantedGeneration ≤ next
  previousIssued : ∀ n, r.previousGeneration = some n → n ≤ next
  paired : r.previousGeneration.isSome = r.previous.isSome
  weaker : ∀ p, r.previous = some p → (tuple r.granted).covers (.tuple p) = true
  /-- It goes back to the grant it found, or it created the generation it names and
  goes back to a mode that covers what was given before. -/
  back : r.previous = some r.granted ∧ r.previousGeneration = some r.grantedGeneration ∨
    (∀ g ∈ live, g.changed = true → g.generation = some r.grantedGeneration → g.ticket = ticket) ∧
    ∀ g ∈ live, g.changed = true → g.resource = r.row → g.owner = .transaction r.owner →
      ∀ n, g.generation = some n → n < r.grantedGeneration →
        (∃ p, r.previous = some p ∧ (tuple p).covers g.mode = true) ∧
        ∃ k, r.previousGeneration = some k ∧ n ≤ k

structure LedgerOk (held : Holding K ObjectLockMode) (generation : Holding K Nat) (next : Nat)
    (live : List (Given K)) (receipts : List (TupleGrantReceipt K × Nat))
    (snapshots : List (OwnerGrantSnapshot K × Nat)) (tickets : Nat) : Prop where
  retained : ∀ g ∈ live, g.changed = true →
    ∃ m, held g.resource g.owner = some m ∧ m.covers g.mode = true
  generated : ∀ g ∈ live, g.changed = true → g.resource.isTuple = true →
    ∃ n, g.generation = some n ∧ ∃ k, generation g.resource g.owner = some k ∧ n ≤ k
  bounded : ∀ g ∈ live, g.changed = true → ∀ n, g.generation = some n → n ≤ next
  ticketed : ∀ g ∈ live, g.ticket < tickets
  receipt : ∀ r t, (r, t) ∈ receipts → ReceiptOk next live r t
  snapshot : ∀ s t, (s, t) ∈ snapshots → t ≤ tickets ∧ (s.grants.map Prod.fst).Nodup ∧
    (∀ r m, (r, m) ∈ s.grants → r.admits m = true) ∧
    ∀ g ∈ live, g.changed = true → g.owner = s.owner → g.ticket < t →
      ∃ m, (g.resource, m) ∈ s.grants ∧ m.covers g.mode = true

variable {live live' : List (Given K)} {receipts : List (TupleGrantReceipt K × Nat)}
  {snapshots : List (OwnerGrantSnapshot K × Nat)} {tickets : Nat}

omit [DecidableEq K] in
theorem ReceiptOk.mono {r : TupleGrantReceipt K} {t : Nat} (h : ReceiptOk next live r t)
    (later : next ≤ next') (sub : live' ⊆ live) : ReceiptOk next' live' r t where
  issued := le_trans h.issued later
  previousIssued n hn := le_trans (h.previousIssued n hn) later
  paired := h.paired
  weaker := h.weaker
  back := h.back.imp id fun ⟨own, earlier⟩ =>
    ⟨fun g hg => own g (sub hg), fun g hg => earlier g (sub hg)⟩

namespace LedgerOk

section

variable (h : LedgerOk held generation next live receipts snapshots tickets)

include h

omit [DecidableEq K] in
/-- Forgetting acquisitions keeps the ledger. -/
theorem mono (sub : live' ⊆ live) :
    LedgerOk held generation next live' receipts snapshots tickets where
  retained g hg := h.retained g (sub hg)
  generated g hg := h.generated g (sub hg)
  bounded g hg := h.bounded g (sub hg)
  ticketed g hg := h.ticketed g (sub hg)
  receipt r t mem := (h.receipt r t mem).mono (le_refl _) sub
  snapshot s t mem := by
    obtain ⟨le, nodup, typed, covered⟩ := h.snapshot s t mem
    exact ⟨le, nodup, typed, fun g hg => covered g (sub hg)⟩

/-- A receipt applies: its own acquisition leaves the ledger, and the grant goes
back to what the receipt found. -/
theorem rollback {r : TupleGrantReceipt K} {t : Nat} (mem : (r, t) ∈ receipts)
    (hm : held r.row (.transaction r.owner) = some (.tuple r.granted))
    (hn : generation r.row (.transaction r.owner) = some r.grantedGeneration)
    (sub : live' ⊆ live) (gone : ∀ g ∈ live', g.ticket ≠ t) :
    LedgerOk (held.set r.row (.transaction r.owner) (r.previous.map .tuple))
      (generation.set r.row (.transaction r.owner) r.previousGeneration) next live' receipts
      snapshots tickets := by
  have kept := h.mono sub
  have found := h.receipt r t mem
  -- What is left at the row is earlier than the receipt, so its `previous` covers it.
  have cov : ∀ g ∈ live', g.changed = true → g.resource = r.row → g.owner = .transaction r.owner →
      (∃ m, r.previous.map tuple = some m ∧ m.covers g.mode = true) ∧
        ∃ n, g.generation = some n ∧ ∃ k, r.previousGeneration = some k ∧ n ≤ k := by
    intro g hg diff atRow byOwner
    obtain ⟨n, gen, k, hk, le⟩ := kept.generated g hg diff (by rw [atRow]; rfl)
    rw [atRow, byOwner, hn] at hk
    cases hk
    rcases found.back with ⟨same, sameGen⟩ | ⟨own, earlier⟩
    · obtain ⟨m, held', covers⟩ := kept.retained g hg diff
      rw [atRow, byOwner, hm] at held'
      cases held'
      exact ⟨⟨_, by rw [same]; rfl, covers⟩, n, gen, _, sameGen, le⟩
    have ne : n ≠ r.grantedGeneration := by
      rintro rfl
      exact gone g hg (own g (sub hg) diff gen)
    obtain ⟨⟨p, hp, covers⟩, k, hk, le'⟩ :=
      earlier g (sub hg) diff atRow byOwner n gen (lt_of_le_of_ne le ne)
    exact ⟨⟨_, by rw [hp]; rfl, covers⟩, n, gen, k, hk, le'⟩
  refine ⟨?_, ?_, kept.bounded, kept.ticketed, kept.receipt, kept.snapshot⟩
  · intro g hg diff
    by_cases here : g.resource = r.row ∧ g.owner = .transaction r.owner
    · rw [here.1, here.2, Holding.set_self]
      exact (cov g hg diff here.1 here.2).1
    · rw [Holding.set_other fun eq eq' => here ⟨eq, eq'⟩]
      exact kept.retained g hg diff
  intro g hg diff row
  by_cases here : g.resource = r.row ∧ g.owner = .transaction r.owner
  · rw [here.1, here.2, Holding.set_self]
    exact (cov g hg diff here.1 here.2).2
  · rw [Holding.set_other fun eq eq' => here ⟨eq, eq'⟩]
    exact kept.generated g hg diff row

omit [DecidableEq K] in
/-- An acquisition that found its request covered adds nothing. -/
theorem note {g : Given K} (same : g.changed = false) (ticket : g.ticket = tickets) :
    LedgerOk held generation next (g :: live) receipts snapshots (tickets + 1) := by
  have old : ∀ g' ∈ g :: live, g'.changed = true → g' ∈ live := by
    intro g' hg diff
    rcases hg with _ | ⟨_, mem⟩
    · rw [same] at diff
      cases diff
    · exact mem
  refine ⟨fun g' hg c => h.retained g' (old g' hg c) c, fun g' hg c => h.generated g' (old g' hg c) c,
    fun g' hg c => h.bounded g' (old g' hg c) c, ?_, ?_, ?_⟩
  · intro g' hg
    rcases hg with _ | ⟨_, mem⟩
    · omega
    · exact Nat.lt_succ_of_lt (h.ticketed g' mem)
  · intro r t mem
    obtain ⟨issued, previousIssued, paired, weaker, back⟩ := h.receipt r t mem
    refine ⟨issued, previousIssued, paired, weaker, back.imp id fun ⟨own, earlier⟩ => ⟨?_, ?_⟩⟩
    · exact fun g' hg c => own g' (old g' hg c) c
    · exact fun g' hg c => earlier g' (old g' hg c) c
  · intro s t mem
    obtain ⟨le, nodup, typed, cov⟩ := h.snapshot s t mem
    exact ⟨Nat.le_succ_of_le le, nodup, typed, fun g' hg c => cov g' (old g' hg c) c⟩

/-- An acquisition that changed the grant, from one it is stronger than. -/
theorem acquire {g : Given K} (ticket : g.ticket = tickets) (later : next ≤ next')
    (more : ∀ m, held g.resource g.owner = some m → g.mode.covers m = true)
    (issued : ∀ k, generation g.resource g.owner = some k → k ≤ next)
    (fresh : ∀ n, g.generation = some n → next < n ∧ n ≤ next')
    (row : g.resource.isTuple = true → g.generation.isSome = true) :
    LedgerOk (held.set g.resource g.owner (some g.mode))
      (generation.set g.resource g.owner (g.generation <|> generation g.resource g.owner)) next'
      (g :: live) receipts snapshots (tickets + 1) := by
  refine ⟨?_, ?_, ?_, ?_, ?_, ?_⟩
  · intro g' hg diff
    by_cases here : g'.resource = g.resource ∧ g'.owner = g.owner
    · refine ⟨g.mode, by rw [here.1, here.2, Holding.set_self], ?_⟩
      rcases hg with _ | ⟨_, mem⟩
      · exact covers_refl _
      obtain ⟨m, hm, covers⟩ := h.retained g' mem diff
      rw [here.1, here.2] at hm
      exact covers_trans (more m hm) covers
    rw [Holding.set_other fun eq eq' => here ⟨eq, eq'⟩]
    rcases hg with _ | ⟨_, mem⟩
    · exact absurd ⟨rfl, rfl⟩ here
    · exact h.retained g' mem diff
  · intro g' hg diff isRow
    rcases hg with _ | ⟨_, mem⟩
    · obtain ⟨n, hn⟩ := Option.isSome_iff_exists.mp (row isRow)
      exact ⟨n, hn, n, by simp [hn], le_refl n⟩
    obtain ⟨n, hn, k, hk, le⟩ := h.generated g' mem diff isRow
    by_cases here : g'.resource = g.resource ∧ g'.owner = g.owner
    · rw [here.1] at isRow
      obtain ⟨m, hm⟩ := Option.isSome_iff_exists.mp (row isRow)
      rw [here.1, here.2] at hk
      refine ⟨n, hn, m, by simp [here, hm], ?_⟩
      have := fresh m hm
      have := issued k hk
      omega
    · rw [Holding.set_other fun eq eq' => here ⟨eq, eq'⟩]
      exact ⟨n, hn, k, hk, le⟩
  · intro g' hg diff n hn
    rcases hg with _ | ⟨_, mem⟩
    · exact (fresh n hn).2
    · exact le_trans (h.bounded g' mem diff n hn) later
  · intro g' hg
    rcases hg with _ | ⟨_, mem⟩
    · omega
    · exact Nat.lt_succ_of_lt (h.ticketed g' mem)
  · intro r t mem
    obtain ⟨prior, previousBefore, paired, weaker, back⟩ := h.receipt r t mem
    refine ⟨le_trans prior later, fun n hn => le_trans (previousBefore n hn) later, paired, weaker,
      back.imp id fun ⟨own, earlier⟩ => ⟨?_, ?_⟩⟩
    · intro g' hg diff hn
      rcases hg with _ | ⟨_, old⟩
      · have := fresh _ hn
        omega
      · exact own g' old diff hn
    intro g' hg diff atRow byOwner n hn lt
    rcases hg with _ | ⟨_, old⟩
    · have := fresh n hn
      omega
    · exact earlier g' old diff atRow byOwner n hn lt
  · intro s t mem
    obtain ⟨le, nodup, typed, cov⟩ := h.snapshot s t mem
    refine ⟨Nat.le_succ_of_le le, nodup, typed, fun g' hg diff byOwner prior => ?_⟩
    rcases hg with _ | ⟨_, old⟩
    · omega
    · exact cov g' old diff byOwner prior

omit [DecidableEq K]

theorem addReceipt {r : TupleGrantReceipt K} {t : Nat} (ok : ReceiptOk next live r t) :
    LedgerOk held generation next live ((r, t) :: receipts) snapshots tickets where
  retained := h.retained
  generated := h.generated
  bounded := h.bounded
  ticketed := h.ticketed
  receipt r' t' mem := by
    rcases mem_cons.mp mem with eq | old
    · cases eq
      exact ok
    · exact h.receipt r' t' old
  snapshot := h.snapshot

/-- A snapshot of an owner's grants covers everything it was given so far. -/
theorem addSnapshot {s : OwnerGrantSnapshot K} (nodup : (s.grants.map Prod.fst).Nodup)
    (grants : ∀ r m, (r, m) ∈ s.grants ↔ held r s.owner = some m)
    (typed : ∀ r m, held r s.owner = some m → r.admits m = true) :
    LedgerOk held generation next live receipts ((s, tickets) :: snapshots) tickets where
  retained := h.retained
  generated := h.generated
  bounded := h.bounded
  ticketed := h.ticketed
  receipt := h.receipt
  snapshot s' t' mem := by
    rcases mem_cons.mp mem with eq | old
    · cases eq
      refine ⟨le_refl _, nodup, fun r m hm => typed r m ((grants r m).mp hm), ?_⟩
      intro g hg changed byOwner _
      obtain ⟨m, hm, covers⟩ := h.retained g hg changed
      exact ⟨m, (grants _ _).mpr (byOwner ▸ hm), covers⟩
    · exact h.snapshot s' t' old

/-- An owner goes back to a snapshot, or to nothing: what is left of its ledger has
to be covered by what it keeps. -/
theorem setOwner {v : LockResource K → Option ObjectLockMode} {n : LockResource K → Option Nat}
    (later : next ≤ next')
    (sub : live' ⊆ live) (cov : ∀ g ∈ live', g.changed = true → g.owner = owner →
      ∃ m, v g.resource = some m ∧ m.covers g.mode = true)
    (fresh : ∀ table key m, v (.tuple table key) = some m →
      ∃ k, n (.tuple table key) = some k ∧ next ≤ k) :
    LedgerOk (held.setOwner owner v) (generation.setOwner owner n) next' live' receipts snapshots
      tickets := by
  have kept := h.mono sub
  refine ⟨?_, ?_, fun g hg c k hk => le_trans (kept.bounded g hg c k hk) later, kept.ticketed,
    fun r t mem => (kept.receipt r t mem).mono later (fun _ m => m), kept.snapshot⟩
  · intro g hg diff
    by_cases own : g.owner = owner
    · rw [own, Holding.setOwner_self]
      exact cov g hg diff own
    · rw [Holding.setOwner_other own]
      exact kept.retained g hg diff
  intro g hg diff row
  by_cases own : g.owner = owner
  · obtain ⟨m, hm, -⟩ := cov g hg diff own
    obtain ⟨k, hk, -⟩ := kept.generated g hg diff row
    rw [own, Holding.setOwner_self]
    cases hr : g.resource with
    | tuple table key =>
      rw [hr] at hm
      obtain ⟨j, hj, le⟩ := fresh table key m hm
      exact ⟨k, hk, j, hj, le_trans (kept.bounded g hg diff k hk) le⟩
    | _ => rw [hr] at row; cases row
  · rw [Holding.setOwner_other own]
    exact kept.generated g hg diff row

end

end LedgerOk

end Saguaro.Locks
