/-
Safety of the lock table.

In every reachable world different owners of a resource hold compatible modes, no
owner holds less than an acquisition of its own that it has not rolled back, and
no request was granted past an earlier, conflicting one (`lockTable_safe`).

The last two are about acquisitions that changed a grant. A request the owner's
grant covers already is answered from that grant: it takes no place in the queue,
and it goes away with the grant it found. `lock_unique_conflict` relies on that
when it gives back a key reservation that later requests were answered from.
-/

import Saguaro.Locks.Table

namespace Saguaro.Locks

open Transition List Option Function Holding ObjectLockMode World

variable {K : Type} [DecidableEq K]

/-! ### The invariant -/

/-- What a blocked `acquire_one` call remembers is still true. -/
structure CallOk (st : LockState K) (registry : Registry) (o : LockOwner)
    (origin : Option (TxnId × TupleLockTag K)) (call : Call K) : Prop where
  owner : call.owner = o
  admits : call.request.resource.admits call.request.mode = true
  previous : call.previous = st.grantOf call.request.resource o
  previousGeneration : call.previousGeneration = st.generationOf call.request.resource o
  uncovered : ∀ m, call.previous = some m → m.covers call.request.mode = false
  tuple : ∀ xid tag, origin = some (xid, tag) →
    call.request.resource = .tuple tag.table tag.key ∧ xid ∈ registry.active ∧
      o = .transaction (registry.topOf xid)

structure RegistryOk (registry : Registry) : Prop where
  active : ∀ x ∈ registry.active, x < registry.nextTxnId
  subtrans : ∀ x ∈ registry.subtrans, x < registry.nextTxnId

structure Inv (w : World K) : Prop where
  grants : GrantsOk w.locks.grantOf w.locks.generationOf w.locks.nextTupleGrantGeneration
  queues : QueuesOk w.locks
  ledger : LedgerOk w.locks.grantOf w.locks.generationOf w.locks.nextTupleGrantGeneration w.live
    w.receipts w.snapshots w.nextTicket
  calls : ∀ o origin call, w.blocked o = some (.acquire origin call) →
    CallOk w.locks w.registry o origin call
  registry : RegistryOk w.registry
  fair : w.Fair fun g => g.changed = true

theorem Inv.init (managerId : Nat) (first : TxnId) : Inv (World.init K managerId first) where
  grants := by constructor <;> simp [World.init, LockState.grantOf, LockState.generationOf]
  queues := by constructor <;> simp [World.init, LockState.queueOf]
  ledger := by constructor <;> simp [World.init]
  calls := by simp [World.init]
  registry := by constructor <;> simp [World.init, Registry.new]
  fair := by simp [World.Fair, World.init]

/-- What a granted call does to the table. -/
theorem CallOk.granted_table {w : World K} {st : LockState K} {owner : LockOwner}
    {origin : Option (TxnId × TupleLockTag K)} {call : Call K}
    (ok : CallOk w.locks w.registry owner origin call)
    (same : SameTable w.locks st) : (granted st call).grantOf =
        set w.locks.grantOf call.request.resource owner (some call.request.mode) ∧
      (granted st call).generationOf = set w.locks.generationOf call.request.resource owner
        (issue w.locks.nextTupleGrantGeneration call.request.mode <|>
          w.locks.generationOf call.request.resource owner) ∧
      (granted st call).nextTupleGrantGeneration =
        (issue w.locks.nextTupleGrantGeneration call.request.mode).getD
          w.locks.nextTupleGrantGeneration := by
  refine ⟨?_, ?_, by rw [← same.next]; rfl⟩
  · rw [granted, grantOf_putGrant, ok.owner, ← same.grantOf]
    rfl
  · rw [granted, generationOf_putGrant, ok.owner, ← same.generationOf, ← same.next]
    rfl

namespace Inv

variable {w : World K} {st st' : LockState K} {owner : LockOwner}

/-- A change of the manager's state that leaves the table alone. -/
theorem frame (h : Inv w) (same : SameTable w.locks st) (queues : QueuesOk st) :
    Inv { w with locks := st } where
  grants := by
    rw [same.grantOf, same.generationOf, same.next]
    exact h.grants
  queues := queues
  ledger := by
    rw [same.grantOf, same.generationOf, same.next]
    exact h.ledger
  calls o origin call hb := by
    obtain ⟨own, admits, previous, generation, uncovered, from_⟩ := h.calls o origin call hb
    refine ⟨own, admits, ?_, ?_, uncovered, from_⟩
    · rw [same.grantOf]
      exact previous
    · rw [same.generationOf]
      exact generation
  registry := h.registry
  fair := h.fair

theorem setBlocked (h : Inv w) (owner : LockOwner) {b : Option (Blocked K)}
    (call : ∀ origin call, b = some (.acquire origin call) →
      CallOk w.locks w.registry owner origin call) : Inv (w.setBlocked owner b) where
  grants := h.grants
  queues := h.queues
  ledger := h.ledger
  calls o origin c hb := by
    change update w.blocked owner b o = _ at hb
    by_cases same : o = owner
    · subst same
      rw [update_self] at hb
      exact call origin c hb
    · rw [update_of_ne same] at hb
      exact h.calls o origin c hb
  registry := h.registry
  fair := h.fair

variable {origin : Option (TxnId × TupleLockTag K)} {call : Call K}

/-- The calls of the other owners do not notice a change of this owner's grants. -/
theorem calls_of_set (h : Inv w) {held : LockResource K → Option ObjectLockMode}
    {generation : LockResource K → Option Nat}
    (grants : st.grantOf = setOwner w.locks.grantOf owner held)
    (gens : st.generationOf = setOwner w.locks.generationOf owner generation)
    {o : LockOwner} (ne : o ≠ owner)
    (hb : w.blocked o = some (.acquire origin call)) : CallOk st w.registry o origin call := by
  obtain ⟨own, admits, prev, gen, uncov, from_⟩ := h.calls o origin call hb
  refine ⟨own, admits, ?_, ?_, uncov, from_⟩
  · rw [grants, setOwner_other ne]
    exact prev
  · rw [gens, setOwner_other ne]
    exact gen

/-! ### Acquisition -/

omit [DecidableEq K] in
/-- The shape of a receipt. -/
theorem tupleReceipt_eq {xid : TxnId} {tag : TupleLockTag K}
    {prev : Option ObjectLockMode} {previousGeneration gen : Option Nat}
    {granted : ObjectLockMode} {r : TupleGrantReceipt K}
    (ok : tupleReceipt st xid tag (.acquired prev previousGeneration granted gen) =
      .ok (some r)) : r.owner = xid ∧ r.tag = tag ∧ prev = r.previous.map .tuple ∧
      r.previousGeneration = previousGeneration ∧ granted = .tuple r.granted ∧
      gen = some r.grantedGeneration := by
  unfold tupleReceipt at ok
  dsimp only at ok
  split at ok <;> simp at ok
  all_goals
    subst ok
    exact ⟨rfl, rfl, rfl, rfl, rfl, rfl⟩

omit [DecidableEq K] in
/-- The receipts a completed call adds are the receipt of its acquisition. -/
theorem ledger_receipts {held : Holding K ObjectLockMode} {gen : Holding K Nat}
    {next tickets : Nat} {live : List (Given K)} {snapshots : List (OwnerGrantSnapshot K × Nat)}
    {res : AcquireOne}
    (h : LedgerOk held gen next live w.receipts snapshots tickets)
    (ok : ∀ xid tag r, origin = some (xid, tag) →
      tupleReceipt st (w.registry.topOf xid) tag res = .ok (some r) →
      ReceiptOk next live r w.nextTicket) :
    LedgerOk held gen next live (w.receiptFor st origin res ++ w.receipts) snapshots
      tickets := by
  unfold receiptFor
  cases origin with
  | none => exact h
  | some from_ =>
    dsimp only
    split
    · rename_i r hr
      exact h.addReceipt (ok _ _ r rfl hr)
    · exact h

/-- A request that the owner's grant covers. -/
theorem covered (h : Inv w) {res : LockResource K} {held : ObjectLockMode} :
    Inv (w.complete origin owner res w.locks.nextRequestId (w.locks, .done (.ok (.acquired
      (some held) (w.locks.generationOf res owner) held
      (w.locks.generationOf res owner))))) := by
  have freed := h.setBlocked owner (b := none) (by simp)
  refine ⟨h.grants, h.queues, ledger_receipts ?_ ?_, freed.calls, h.registry, ?_⟩
  · exact h.ledger.note (by simp) rfl
  · intro xid tag r from_ hr
    obtain ⟨-, rfl, prev, gen, granted, grantedGeneration⟩ := tupleReceipt_eq hr
    have issued : r.grantedGeneration ≤ w.locks.nextTupleGrantGeneration :=
      h.grants.issued _ _ _ grantedGeneration
    have same : r.previous = some r.granted := by
      rw [granted] at prev
      cases hp : r.previous with
      | none => simp [hp] at prev
      | some p => simpa [hp] using prev.symm
    have sameGeneration : r.previousGeneration = some r.grantedGeneration :=
      gen.trans grantedGeneration
    refine ⟨issued, ?_, by simp [same, sameGeneration], ?_, .inl ⟨same, sameGeneration⟩⟩
    · intro n hn
      rw [sameGeneration] at hn
      cases hn
      exact issued
    intro p hp
    rw [same] at hp
    cases hp
    exact covers_refl _
  · intro g hg diff
    rcases hg with _ | ⟨_, old⟩
    · simp at diff
    · exact h.fair g old diff

/-- The mode a call asks for is stronger than what its owner holds. -/
theorem stronger (h : Inv w) (ok : CallOk w.locks w.registry owner origin call) {m : ObjectLockMode}
    (hm : w.locks.grantOf call.request.resource owner = some m) :
    call.request.mode.covers m = true :=
  LockResource.covers_of_admits (h.grants.typed _ _ _ hm) ok.admits
    (ok.uncovered m (ok.previous.trans hm))

omit [DecidableEq K] in
theorem issue_of_isTuple {res : LockResource K} {mode : ObjectLockMode} (next : Nat)
    (admits : res.admits mode = true) (row : res.isTuple = true) :
    issue next mode = some (next + 1) := by
  cases res <;> cases mode <;> simp [LockResource.admits, LockResource.isTuple] at admits row
  rfl

theorem issue_fresh {mode : ObjectLockMode} {next n : Nat} (h : issue next mode = some n) :
    n = next + 1 ∧ (issue next mode).getD next = next + 1 := by
  cases mode <;> simp [issue] at h ⊢
  exact h.symm

theorem le_issue (mode : ObjectLockMode) (next : Nat) : next ≤ (issue next mode).getD next := by
  cases mode <;> simp [issue]

/-- A granted call: its owner gets the mode it asked for. -/
theorem granted (h : Inv w)
    (ok : CallOk w.locks w.registry owner origin call) (same : SameTable w.locks st)
    (qs : QueuesOk st)
    (compatible : ∀ o m, o ≠ owner → w.locks.grantOf call.request.resource o = some m →
      call.request.mode.compatible m = true)
    (fair : ∀ q ∈ w.locks.queueOf call.request.resource, q.id < call.requestId →
      q.owner ≠ owner → call.request.mode.compatible q.mode = true) :
    Inv (w.complete origin owner call.request.resource call.requestId (granted st call,
      .done (.ok (.acquired call.previous call.previousGeneration call.request.mode
        (issue st.nextTupleGrantGeneration call.request.mode))))) := by
  obtain ⟨grants, gens, counter⟩ := ok.granted_table same
  refine ⟨?_, ⟨fun r => ?_, fun r => ?_⟩, ledger_receipts ?_ ?_, ?_, h.registry, ?_⟩
  · change GrantsOk (Locks.granted st call).grantOf (Locks.granted st call).generationOf
      (Locks.granted st call).nextTupleGrantGeneration
    rw [grants, gens, counter]
    refine h.grants.set _ _ (le_issue _ _) ?_ ?_ ?_ ?_
    · rintro m ⟨⟩
      exact ok.admits
    · rintro m ⟨⟩ o' m' ne hm'
      exact compatible o' m' ne hm'
    · intro row
      rw [issue_of_isTuple _ ok.admits row]
      rfl
    intro k hk
    cases hi : issue w.locks.nextTupleGrantGeneration call.request.mode with
    | none =>
      rw [hi] at hk
      exact h.grants.issued _ _ k hk
    | some n =>
      rw [hi] at hk
      cases hk
      exact le_refl _
  · exact qs.sorted r
  · exact qs.numbered r
  · change LedgerOk (Locks.granted st call).grantOf (Locks.granted st call).generationOf
      (Locks.granted st call).nextTupleGrantGeneration _ _ _ _
    rw [grants, gens, counter, same.next]
    refine LedgerOk.acquire (g := ⟨w.nextTicket, owner, call.request.resource, call.request.mode,
        issue w.locks.nextTupleGrantGeneration call.request.mode,
        call.previous ≠ some call.request.mode, call.requestId,
        w.locks.queueOf call.request.resource⟩)
      h.ledger rfl (le_issue _ _) (fun m hm => h.stronger ok hm)
      (fun k hk => h.grants.issued _ _ k hk) ?_ ?_
    · intro n hn
      obtain ⟨rfl, eq⟩ := issue_fresh hn
      exact ⟨Nat.lt_succ_self _, le_of_eq eq.symm⟩
    · intro row
      simp [issue_of_isTuple _ ok.admits row]
  · intro xid tag r from_ hr
    obtain ⟨row, -, own⟩ := ok.tuple xid tag from_
    obtain ⟨hown, rfl, prev, generation, mode, grantedGeneration⟩ := tupleReceipt_eq hr
    change ReceiptOk (Locks.granted st call).nextTupleGrantGeneration _ r w.nextTicket
    rw [counter]
    rw [same.next] at grantedGeneration ⊢
    obtain ⟨fresh, bound⟩ := issue_fresh grantedGeneration
    rw [bound]
    have previous' := prev.symm.trans ok.previous
    have generation' := generation.trans ok.previousGeneration
    rw [row] at previous' generation'
    refine ⟨le_of_eq fresh, fun n hn => ?_, ?_, fun p hp => ?_, .inr ⟨?_, ?_⟩⟩
    · exact Nat.le_succ_of_le (h.grants.issued _ _ n (generation' ▸ hn))
    · rw [generation', h.grants.paired, ← previous', isSome_map]
    · rw [← mode]
      exact h.stronger ok (by rw [row, ← previous', hp]; rfl)
    · intro g hg counts gen
      rcases hg with _ | ⟨_, old⟩
      · rfl
      · have := h.ledger.bounded g old counts _ gen
        omega
    intro g hg counts atRow byOwner n gen lt
    rcases hg with _ | ⟨_, old⟩
    · change issue _ _ = some n at gen
      rw [gen] at grantedGeneration
      cases grantedGeneration
      exact absurd lt (lt_irrefl _)
    have here : g.owner = owner := by rw [byOwner, hown, own]
    have isRow : g.resource.isTuple = true := by rw [atRow]; rfl
    obtain ⟨m, hm, covers⟩ := h.ledger.retained g old counts
    obtain ⟨n', gen', k, hk, le⟩ := h.ledger.generated g old counts isRow
    rw [gen] at gen'
    cases gen'
    rw [atRow, here] at hm hk
    change w.locks.grantOf (.tuple r.tag.table r.tag.key) owner = some m at hm
    rw [← previous'] at hm
    obtain ⟨p, hp, rfl⟩ := map_eq_some_iff.mp hm
    exact ⟨⟨p, hp, covers⟩, k, generation'.trans hk, le⟩
  · intro o origin' call' hb
    change update w.blocked owner none o = _ at hb
    by_cases own : o = owner
    · subst own
      rw [update_self] at hb
      cases hb
    rw [update_of_ne own] at hb
    obtain ⟨own', admits, prev, gen, uncov, tuple⟩ := h.calls o origin' call' hb
    refine ⟨own', admits, ?_, ?_, uncov, tuple⟩
    · change _ = (Locks.granted st call).grantOf _ _
      rw [grants, set_other fun _ => own]
      exact prev
    · change _ = (Locks.granted st call).generationOf _ _
      rw [gens, set_other fun _ => own]
      exact gen
  · intro g hg counts
    rcases hg with _ | ⟨_, old⟩
    · exact fair
    · exact h.fair g old counts

/-- A call that gives up leaves no trace but the missing request. -/
theorem withdrawn (h : Inv w) (same : SameTable w.locks st) (qs : QueuesOk st) :
    Inv { w.setBlocked owner none with locks := Locks.withdraw st call } :=
  (h.setBlocked owner (by simp)).frame (same.trans (withdraw_sameTable st call)) (qs.withdraw call)

/-- One iteration of the wait loop, from a state whose table is the world's. -/
theorem attempted (h : Inv w)
    {cancel : Option CancelReason} (ok : CallOk w.locks w.registry owner origin call)
    (same : SameTable w.locks st) (qs : QueuesOk st)
    (seen : w.locks.queueOf call.request.resource ⊆ st.queueOf call.request.resource) :
    Inv (w.complete origin owner call.request.resource call.requestId
      (attempt st call cancel)) := by
  have sound : call.Sound := by
    refine ⟨ok.admits, fun m hm => ⟨?_, ok.uncovered m hm⟩⟩
    exact h.grants.typed _ _ m (ok.previous ▸ hm)
  rcases attempt_cases st cancel sound with eq | ⟨e, eq⟩ | eq | ⟨free, eq⟩
  · rw [eq]
    refine (h.setBlocked owner ?_).frame
      ⟨same.id, same.grants, same.generations, same.next⟩ (qs.of_queues rfl rfl)
    rintro origin' call' ⟨⟩
    exact ok
  · rw [eq]
    exact h.withdrawn same qs
  · rw [eq]
    exact h.withdrawn same qs
  rw [eq]
  obtain ⟨holders, waits⟩ := requestBlockers_eq_nil qs free
  rw [ok.owner, same.grantOf] at holders
  rw [ok.owner] at waits
  exact h.granted ok (same.trans (withdraw_sameTable st call)) (qs.withdraw call) holders fun q mem => waits q (seen mem)

theorem acquire (h : Inv w)
    (req : ObjectLockRequest K) {policy : TupleLockWaitPolicy} {cancel : Option CancelReason}
    (tuple : ∀ xid tag, origin = some (xid, tag) →
      req.resource = .tuple tag.table tag.key ∧ xid ∈ w.registry.active ∧
        owner = .transaction (w.registry.topOf xid)) :
    Inv (w.complete origin owner req.resource w.locks.nextRequestId
      (acquireOne w.locks owner req policy cancel)) := by
  rcases acquireOne_cases w.locks owner req policy cancel with
    ⟨e, eq⟩ | ⟨held, -, -, eq⟩ | ⟨admits, uncov, eq⟩
  · rw [eq]
    exact h.setBlocked owner (by simp)
  · rw [eq]
    exact h.covered
  rw [eq]
  have ok : CallOk w.locks w.registry owner origin ⟨owner, req, policy,
      w.locks.nextRequestId, w.locks.grantOf req.resource owner,
      w.locks.generationOf req.resource owner⟩ := ⟨rfl, admits, rfl, rfl, uncov, tuple⟩
  refine h.attempted ok ⟨rfl, rfl, rfl, rfl⟩ (h.queues.enqueue rfl) fun q mem => ?_
  rw [queueOf_enqueue, if_pos rfl]
  exact mem_append_left _ mem

end Inv

/-! ### Rollback -/

/-- Receipts that apply one after another keep the table and the ledger; their
acquisitions leave the ledger. -/
theorem Replays.keeps {xid : TxnId} {next tickets : Nat}
    {receipts : List (TupleGrantReceipt K × Nat)} {snapshots : List (OwnerGrantSnapshot K × Nat)}
    {cs : List (TupleGrantReceipt K × Nat)}
    {view : LockResource K → Option ObjectLockMode × Option Nat} :
    ∀ {held : Holding K ObjectLockMode} {gen : Holding K Nat} {live : List (Given K)},
      Replays xid (fun r => (held r (.transaction xid), gen r (.transaction xid)))
        (cs.map Prod.fst) view → (∀ c ∈ cs, c ∈ receipts) → GrantsOk held gen next →
      LedgerOk held gen next live receipts snapshots tickets →
      GrantsOk (held.setOwner (.transaction xid) fun r => (view r).1)
        (gen.setOwner (.transaction xid) fun r => (view r).2) next ∧
      LedgerOk (held.setOwner (.transaction xid) fun r => (view r).1)
        (gen.setOwner (.transaction xid) fun r => (view r).2) next
        (live.filter fun g => !(cs.map Prod.snd).contains g.ticket) receipts snapshots tickets := by
  induction cs with
  | nil =>
    intro held gen live replays _ grants ledger
    cases replays
    rw [setOwner_same, setOwner_same]
    exact ⟨grants, ledger.mono filter_sublist.subset⟩
  | cons c cs ih =>
    obtain ⟨r, t⟩ := c
    intro held gen live replays known grants ledger
    cases replays with
    | cons own applies rest =>
      subst own
      obtain ⟨hm, hn⟩ := Prod.mk.inj applies
      have receipt := ledger.receipt r t (known _ (.head _))
      have viewed : update
          (fun r' => (held r' (.transaction r.owner), gen r' (.transaction r.owner)))
          r.row (r.previous.map ObjectLockMode.tuple, r.previousGeneration) =
          fun r' => (held.set r.row (.transaction r.owner) (r.previous.map .tuple) r'
            (.transaction r.owner), gen.set r.row (.transaction r.owner)
              r.previousGeneration r' (.transaction r.owner)) := by
        funext r'
        by_cases here : r' = r.row
        · subst here
          simp
        · rw [update_of_ne here, set_other fun eq => absurd eq here,
            set_other fun eq => absurd eq here]
      rw [viewed] at rest
      have weaker : ∀ m, r.previous.map ObjectLockMode.tuple = some m →
          (ObjectLockMode.tuple r.granted).covers m = true := by
        intro m mapped
        obtain ⟨p, hp, rfl⟩ := map_eq_some_iff.mp mapped
        exact receipt.weaker p hp
      have grants' := grants.set r.row (.transaction r.owner) (le_refl _) (fun m hp => by
          obtain ⟨p, -, rfl⟩ := map_eq_some_iff.mp hp
          rfl)
        (fun m hp o' m' ne hm' => compatible_of_covers (weaker m hp)
          (grants.compatible _ _ _ _ _ ne.symm hm hm'))
        (fun _ => by rw [receipt.paired, isSome_map]) receipt.previousIssued
      have ledger' := ledger.rollback (known _ (.head _)) hm hn (filter_sublist).subset
        (fun g hg => of_decide_eq_true (mem_filter.mp hg).2)
      obtain ⟨grantsEnd, ledgerEnd⟩ := ih rest (fun c mem => known c (.tail _ mem)) grants' ledger'
      rw [setOwner_set, setOwner_set] at grantsEnd ledgerEnd
      refine ⟨grantsEnd, ledgerEnd.mono fun g hg => ?_⟩
      obtain ⟨mem, kept⟩ := mem_filter.mp hg
      simp only [map_cons, contains_cons, Bool.not_eq_true', Bool.or_eq_false_iff,
        beq_eq_false_iff_ne] at kept
      exact mem_filter.mpr ⟨mem_filter.mpr ⟨mem, by simpa using kept.1⟩, by simpa using kept.2⟩

namespace Inv

variable {w : World K} {owner : LockOwner}

/-- A change of one owner's grants while it is not blocked. -/
theorem regrant (h : Inv w) {st : LockState K} {live : List (Given K)}
    {held : LockResource K → Option ObjectLockMode} {generation : LockResource K → Option Nat}
    (idle : w.blocked owner = none)
    (grants : st.grantOf = setOwner w.locks.grantOf owner held)
    (generations : st.generationOf = setOwner w.locks.generationOf owner generation)
    (queues : QueuesOk st)
    (table : GrantsOk (setOwner w.locks.grantOf owner held)
      (setOwner w.locks.generationOf owner generation) st.nextTupleGrantGeneration)
    (ledger : LedgerOk (setOwner w.locks.grantOf owner held)
      (setOwner w.locks.generationOf owner generation) st.nextTupleGrantGeneration live
      w.receipts w.snapshots w.nextTicket) : Inv { w with locks := st, live } where
  grants := by
    rw [grants, generations]
    exact table
  queues := queues
  ledger := by
    rw [grants, generations]
    exact ledger
  calls o origin call hb := by
    have ne : o ≠ owner := by
      rintro rfl
      rw [idle] at hb
      cases hb
    exact h.calls_of_set grants generations ne hb
  registry := h.registry
  fair := h.fair

theorem receipts_paired (h : Inv w) {changes : List (TupleGrantReceipt K × Nat)}
    (known : ∀ c ∈ changes, c ∈ w.receipts) :
    ∀ r ∈ changes.map Prod.fst, r.previousGeneration.isSome = r.previous.isSome := by
  intro r mem
  obtain ⟨⟨r', t⟩, mem', rfl⟩ := mem_map.mp mem
  exact (h.ledger.receipt r' t (known _ mem')).paired

theorem restoreTuple (h : Inv w) {changes : List (TupleGrantReceipt K × Nat)}
    (idle : w.blocked owner = none) (known : ∀ c ∈ changes, c ∈ w.receipts) :
    (∃ e, restoreTupleChanges w.locks owner (changes.map Prod.fst) = (w.locks, .error e)) ∨
      ∃ st, restoreTupleChanges w.locks owner (changes.map Prod.fst) = (st, .ok ()) ∧ Inv { w with
          locks := st
          live := w.live.filter fun g => !(changes.map Prod.snd).contains g.ticket } := by
  rcases restoreTupleChanges_cases w.locks owner (h.receipts_paired known) with
    ⟨e, refused, -⟩ | ⟨xid, view, st, rfl, replays, eq, same, grants, gens⟩
  · exact .inl ⟨e, refused⟩
  refine .inr ⟨st, eq, ?_⟩
  rw [← map_reverse] at replays
  obtain ⟨table, ledger⟩ := replays.keeps
    (fun c mem => known c (mem_reverse.mp mem)) h.grants h.ledger
  refine h.regrant idle grants gens (h.queues.of_queues same.queues same.requests) ?_ ?_
  · rw [same.next]
    exact table
  rw [same.next]
  refine ledger.mono fun g hg => ?_
  obtain ⟨mem, kept⟩ := mem_filter.mp hg
  exact mem_filter.mpr ⟨mem, by simpa using kept⟩

theorem snapshot (h : Inv w) (owner : LockOwner) (guardId : Nat) :
    Inv { w with snapshots := (ownerSnapshot w.locks owner guardId, w.nextTicket) ::
      w.snapshots } where
  grants := h.grants
  queues := h.queues
  ledger := h.ledger.addSnapshot nodup_ownerSnapshot (fun _ _ => mem_ownerSnapshot)
    fun r m => h.grants.typed r owner m
  calls := h.calls
  registry := h.registry
  fair := h.fair

omit [DecidableEq K] in
theorem tuple_of_admits {table : TableId} {key : K} {m : ObjectLockMode}
    (admits : (LockResource.tuple table key).admits m = true) : ∃ t, m = .tuple t := by
  cases m <;> simp [LockResource.admits] at admits
  exact ⟨_, rfl⟩

theorem restore (h : Inv w) (guardId : Nat) {snap : OwnerGrantSnapshot K × Nat}
    (idle : w.blocked owner = none) (known : snap ∈ w.snapshots) :
    (∃ e, restoreOwner w.locks owner guardId snap.1 = (w.locks, .error e)) ∨
      ∃ st, restoreOwner w.locks owner guardId snap.1 = (st, .ok ()) ∧ Inv { w with
          locks := st
          live := w.live.filter fun g => g.owner ≠ owner || g.ticket < snap.2 } := by
  obtain ⟨-, nodup, typed, cov⟩ := h.ledger.snapshot snap.1 snap.2 known
  rcases restoreOwner_cases w.locks owner guardId nodup with refused |
    ⟨st, mode, gen, eq, own, later, qs, requests, -, grants, gens, listed, weaker, fresh⟩
  · exact .inl refused
  refine .inr ⟨st, eq, h.regrant idle grants gens (h.queues.of_queues qs requests) ?_ ?_⟩
  · refine h.grants.setOwner later (fun r m hm => ⟨typed r m ((listed r m).mp hm), weaker r m hm⟩)
      ?_ ?_
    · intro table key
      have here := fresh (.tuple table key)
      cases hm : mode (.tuple table key) with
      | none =>
        rw [hm] at here
        simp [here]
      | some m =>
        obtain ⟨t, rfl⟩ := tuple_of_admits (typed _ m ((listed _ m).mp hm))
        rw [hm] at here
        obtain ⟨k, hk, -⟩ := here
        simp [hk]
    intro r k hk
    have here := fresh r
    split at here
    · obtain ⟨k', hk', -, le⟩ := here
      rw [hk] at hk'
      cases hk'
      exact le
    · rw [hk] at here
      cases here
  · refine h.ledger.setOwner later filter_sublist.subset ?_ ?_
    · intro g hg diff byOwner
      obtain ⟨mem, kept⟩ := mem_filter.mp hg
      have prior : g.ticket < snap.2 := by simpa [byOwner] using kept
      obtain ⟨m, listedAs, covers⟩ := cov g mem diff (byOwner.trans own.symm) prior
      exact ⟨m, (listed _ _).mpr listedAs, covers⟩
    intro table key m hm
    obtain ⟨t, rfl⟩ := tuple_of_admits (typed _ m ((listed _ m).mp hm))
    have here := fresh (.tuple table key)
    rw [hm] at here
    obtain ⟨k, hk, lt, -⟩ := here
    exact ⟨k, hk, le_of_lt lt⟩

theorem release (h : Inv w) (idle : w.blocked owner = none) : Inv { w with
      locks := releaseOwner w.locks owner
      live := w.live.filter fun g => g.owner ≠ owner } := by
  obtain ⟨grants, gens, qs⟩ := releaseOwner_spec w.locks owner
  refine h.regrant idle grants gens
    (h.queues.sublist (fun r => by rw [qs]; exact filter_sublist) rfl) ?_ ?_
  · exact h.grants.setOwner (le_refl _) (by simp) (by simp) (by simp)
  refine h.ledger.setOwner (le_refl _) filter_sublist.subset ?_ (by simp)
  intro g hg _ byOwner
  exact absurd byOwner (of_decide_eq_true (mem_filter.mp hg).2)

/-! ### Owners, waits and the registry -/

theorem guards (h : Inv w) {guards : List (LockOwner × Nat)} : Inv { w with guards } :=
  ⟨h.grants, h.queues, h.ledger, h.calls, h.registry, h.fair⟩

omit [DecidableEq K] in
theorem createGuard_frame (st : LockState K) (owner : LockOwner) :
    SameTable st (createGuard st owner).1 ∧ (createGuard st owner).1.queues = st.queues ∧
      (createGuard st owner).1.nextRequestId = st.nextRequestId := by
  unfold createGuard
  split
  · exact ⟨.refl st, rfl, rfl⟩
  · split <;> exact ⟨⟨rfl, rfl, rfl, rfl⟩, rfl, rfl⟩

/-- Asking for a guard. -/
theorem guarded (h : Inv w) {out : LockState K × Result (LockOwner × Nat)}
    (same : SameTable w.locks out.1) (qs : out.1.queues = w.locks.queues)
    (requests : out.1.nextRequestId = w.locks.nextRequestId) : Inv (w.guarded out) := by
  obtain ⟨st, res⟩ := out
  have framed := h.frame same (h.queues.of_queues qs requests)
  cases res with
  | error e => exact framed
  | ok guard => exact framed.guards

omit [DecidableEq K] in
/-- `wait_for` touches nothing but the wait-for graph. -/
theorem waitLoop_frame (st : LockState K) (reg : Registry) (waiter : LockOwner)
    (bsub : TxnId) (cancel : Option CancelReason) :
    ∃ waitsFor, (waitLoop st reg waiter bsub cancel).1 = { st with waitsFor } := by
  unfold waitLoop
  split
  · exact ⟨_, rfl⟩
  · split <;> exact ⟨_, rfl⟩

theorem waited (h : Inv w) {out : LockState K × Option (Result Unit)} {bsub : TxnId}
    (same : ∃ waitsFor, out.1 = { w.locks with waitsFor }) : Inv (w.waited owner bsub out) := by
  obtain ⟨st, res⟩ := out
  obtain ⟨waitsFor, rfl⟩ := same
  have framed : Inv { w with locks := { w.locks with waitsFor } } :=
    h.frame ⟨rfl, rfl, rfl, rfl⟩ (h.queues.of_queues rfl rfl)
  cases res with
  | none => exact framed.setBlocked owner (by rintro _ _ ⟨⟩)
  | some res => exact framed.setBlocked owner (by rintro _ _ ⟨⟩)

/-- The registry may change as long as no blocked row lock's xid does. -/
theorem registered (h : Inv w) {registry : Registry} (ok : RegistryOk registry)
    (kept : ∀ xid o call tag, w.blocked o = some (.acquire (some (xid, tag)) call) →
      xid ∈ w.registry.active → o = .transaction (w.registry.topOf xid) →
      xid ∈ registry.active ∧ registry.topOf xid = w.registry.topOf xid) :
    Inv { w with registry } where
  grants := h.grants
  queues := h.queues
  ledger := h.ledger
  calls o origin call hb := by
    obtain ⟨own, admits, previous, generation, uncovered, tuple⟩ := h.calls o origin call hb
    refine ⟨own, admits, previous, generation, uncovered, fun xid tag from_ => ?_⟩
    subst from_
    obtain ⟨row, active, top⟩ := tuple xid tag rfl
    obtain ⟨active', top'⟩ := kept xid o call tag hb active top
    exact ⟨row, active', by rw [top']; exact top⟩
  registry := ok
  fair := h.fair

theorem begin (h : Inv w) : Inv { w with registry := w.registry.registerAllocated.2 } := by
  refine h.registered ⟨fun x mem => ?_, fun x mem => ?_⟩ fun xid _ _ _ _ act _ => ⟨.tail _ act, rfl⟩
  · rcases mem with _ | ⟨_, old⟩
    · exact Nat.lt_succ_self _
    · exact Nat.lt_succ_of_lt (h.registry.active x old)
  · exact Nat.lt_succ_of_lt (h.registry.subtrans x mem)

theorem savepoint (h : Inv w) (top : TxnId) :
    Inv { w with registry := (w.registry.registerSubxidAllocated top).2 } := by
  refine h.registered ⟨fun x mem => ?_, fun x mem => ?_⟩ fun xid _ _ _ _ act _ =>
    ⟨.tail _ act, ?_⟩
  · rcases mem with _ | ⟨_, old⟩
    · exact Nat.lt_succ_self _
    · exact Nat.lt_succ_of_lt (h.registry.active x old)
  · rcases (AList.mem_insert _).mp mem with rfl | old
    · exact Nat.lt_succ_self _
    · exact Nat.lt_succ_of_lt (h.registry.subtrans x old)
  · have ne : xid ≠ w.registry.nextTxnId := ne_of_lt (h.registry.active xid act)
    simp [Registry.topOf, Registry.registerSubxidAllocated, AList.lookup_insert_ne ne]

theorem lookup_foldl_erase {m : AList fun _ : TxnId => TxnId} {ids : List TxnId} {x : TxnId} :
    (x ∉ ids → (ids.foldl (fun m id => m.erase id) m).lookup x = m.lookup x) ∧
      (x ∈ ids.foldl (fun m id => m.erase id) m → x ∈ m) := by
  induction ids generalizing m with
  | nil => exact ⟨fun _ => rfl, id⟩
  | cons id ids ih =>
    rw [foldl_cons]
    obtain ⟨kept, sub⟩ := ih
    refine ⟨fun gone => ?_, fun mem => (AList.mem_erase.mp (sub mem)).2⟩
    rw [mem_cons, not_or] at gone
    rw [kept gone.2, AList.lookup_erase_ne gone.1]

theorem deregister (h : Inv w) {ids : List TxnId}
    (idle : ∀ id ∈ ids, (w.blocked (.transaction (w.registry.topOf id))).isNone = true) :
    Inv { w with registry := w.registry.deregisterAll ids } := by
  refine h.registered ⟨fun x mem => ?_, fun x mem => ?_⟩ fun xid o call tag hb act top => ?_
  · exact h.registry.active x (mem_filter.mp mem).1
  · exact h.registry.subtrans x (lookup_foldl_erase.2 mem)
  have gone : xid ∉ ids := by
    intro mem
    have := idle xid mem
    rw [← top, hb] at this
    cases this
  refine ⟨mem_filter.mpr ⟨act, by simpa using gone⟩, ?_⟩
  simp [Registry.topOf, Registry.deregisterAll, lookup_foldl_erase.1 gone]

/-- One step of any owner. -/
theorem step {w' : World K} {a : Action K} (h : Inv w) (taken : w.step a = some w') : Inv w' := by
  cases a with
  | begin =>
    cases taken
    exact h.begin
  | savepoint top =>
    cases taken
    exact h.savepoint top
  | deregister ids =>
    simp only [World.step] at taken
    split at taken <;> cases taken
    rename_i idle
    exact h.deregister idle
  | statementOwner =>
    cases taken
    unfold statementOwner
    split
    · exact h.guarded (.refl _) rfl rfl
    rename_i id next _
    obtain ⟨same, qs, requests⟩ :=
      createGuard_frame { w.locks with nextStatementOwner := next } (.statement id)
    exact h.guarded ⟨same.id, same.grants, same.generations, same.next⟩ qs requests
  | transactionOwner xid =>
    cases taken
    obtain ⟨same, qs, requests⟩ := createGuard_frame w.locks (.transaction (w.registry.topOf xid))
    exact h.guarded same qs requests
  | acquire owner req cancel =>
    simp only [World.step] at taken
    split at taken <;> cases taken
    exact h.acquire req (by simp)
  | acquireTuple xid tag mode policy cancel =>
    simp only [World.step] at taken
    split at taken
    · cases taken
    split at taken <;> cases taken
    · exact h
    rename_i act
    refine h.acquire ⟨.tuple tag.table tag.key, .tuple mode⟩ ?_
    rintro _ _ ⟨⟩
    exact ⟨rfl, by simpa [Registry.isActive] using act, rfl⟩
  | waitFor waiterSubxid bsub cancel =>
    simp only [World.step] at taken
    split at taken <;> cases taken
    obtain ⟨waitsFor, eq⟩ := waitLoop_frame { w.locks with
      waitsFor := w.locks.waitsFor.insert (.transaction (w.registry.topOf waiterSubxid))
        [.transaction (w.registry.topOf bsub)] } w.registry
      (.transaction (w.registry.topOf waiterSubxid)) bsub cancel
    exact h.waited ⟨waitsFor, eq⟩
  | wake owner cancel elapsed =>
    simp only [World.step] at taken
    cases hb : w.blocked owner with
    | none =>
      rw [hb] at taken
      cases taken
    | some blocked =>
      rw [hb] at taken
      cases blocked with
      | acquire origin call =>
        cases taken
        unfold resumeAcquire
        split
        · exact h.withdrawn (.refl _) h.queues
        · exact h.attempted (h.calls owner origin call hb) (.refl _) h.queues fun _ m => m
      | conflict bsub =>
        cases taken
        refine h.waited ?_
        unfold resumeWait
        split
        · exact ⟨_, rfl⟩
        · exact waitLoop_frame _ _ _ _ _
  | restoreTuple xid changes =>
    simp only [World.step] at taken
    split at taken
    · rename_i free
      rcases h.restoreTuple (isNone_iff_eq_none.mp free.1) free.2 with
        ⟨e, eq⟩ | ⟨st, eq, next⟩
      · rw [eq] at taken
        cases taken
        exact h
      · rw [eq] at taken
        cases taken
        exact next
    · cases taken
  | snapshot owner =>
    simp only [World.step] at taken
    split at taken <;> cases taken
    exact h.snapshot owner _
  | restore owner snap =>
    simp only [World.step] at taken
    split at taken
    · rename_i free
      split at taken
      · cases taken
      rename_i guardId _
      rcases h.restore guardId (isNone_iff_eq_none.mp free.1) free.2 with
        ⟨e, eq⟩ | ⟨st, eq, next⟩
      · rw [eq] at taken
        cases taken
        exact h
      · rw [eq] at taken
        cases taken
        exact next
    · cases taken
  | release owner =>
    simp only [World.step] at taken
    split at taken <;> cases taken
    rename_i idle
    exact (h.release (isNone_iff_eq_none.mp idle)).guards

end Inv

/-! ### The lock table -/

/-- **Lock-table safety**, in every reachable world. -/
theorem lockTable_safe {managerId : Nat} {first : TxnId} {acts : List (Action K)} {w : World K}
    (run : Run World.step (fun _ _ => True) (World.init K managerId first) acts w) :
    w.Compatible ∧ w.Retained (fun g => g.changed = true) ∧ w.Fair (fun g => g.changed = true) := by
  have inv : Inv w :=
    run.invariant (fun _ _ _ h _ taken => Inv.step h taken) (Inv.init managerId first)
  exact ⟨inv.grants.compatible, inv.ledger.retained, inv.fair⟩

/-- An upgrade that waits for another owner's release, between a snapshot and a
table lock. -/
def upgrade : List (Action Nat) := [.begin, .begin, .transactionOwner 1, .transactionOwner 2,
    .acquireTuple 1 ⟨7, 10⟩ .keyShare .block none, .acquireTuple 2 ⟨7, 10⟩ .share .noWait none,
    .snapshot (.transaction 1), .acquire (.transaction 1) ⟨.table 7, .relation .rowExclusive⟩ none,
    .acquireTuple 1 ⟨7, 10⟩ .update .block none, .release (.transaction 2),
    .wake (.transaction 1) none true]

theorem lockTable_safe_upgrade :
    ∃ w, Run World.step (fun _ _ => True) (World.init Nat 1 1) upgrade w ∧
      w.live.map (fun g => (g.mode, g.changed)) = [(.tuple .update, true),
        (.relation .rowExclusive, true), (.tuple .keyShare, true)] ∧
      w.Compatible ∧ w.Retained (fun g => g.changed = true) ∧
      w.Fair (fun g => g.changed = true) := by
  obtain ⟨w, run, live⟩ : ∃ w, Run World.step (fun _ _ => True) (World.init Nat 1 1) upgrade w ∧
      w.live.map (fun g => (g.mode, g.changed)) = [(.tuple .update, true),
        (.relation .rowExclusive, true), (.tuple .keyShare, true)] := Run.evaluated (by decide)
  exact ⟨w, run, live, lockTable_safe run⟩

/-- Owner 1 locks a row, owner 2 queues up for it; owner 1 asks for the row again,
is answered from its grant, and gives the first grant back. -/
def reservation : List (Action Nat) := [.begin, .begin, .transactionOwner 1, .transactionOwner 2,
    .acquireTuple 1 ⟨7, 10⟩ .update .block none, .acquireTuple 2 ⟨7, 10⟩ .update .block none,
    .acquireTuple 1 ⟨7, 10⟩ .noKeyUpdate .block none,
    .restoreTuple 1 [(⟨1, 1, ⟨7, 10⟩, none, none, .update, 1⟩, 0)]]

/-- Counting requests that were answered from a held grant, an owner does lose a mode
it did not roll back, and a request is granted past an earlier one. -/
theorem covered_request_lost :
    ∃ w, Run World.step (fun _ _ => True) (World.init Nat 1 1) reservation w ∧
      ¬ w.Retained (fun _ => True) ∧ ¬ w.Fair (fun _ => True) := by
  obtain ⟨w, run, ⟨g, live, gone⟩, g', given, q, queued, lt, other, incompatible⟩ : ∃ w,
      Run World.step (fun _ _ => True) (World.init Nat 1 1) reservation w ∧
      (∃ g ∈ w.live, w.locks.grantOf g.resource g.owner = none) ∧
      ∃ g ∈ w.given, ∃ q ∈ g.queued, q.id < g.requestId ∧ q.owner ≠ g.owner ∧
        g.mode.compatible q.mode = false := Run.evaluated (by decide)
  refine ⟨w, run, fun retained => ?_, fun fair => ?_⟩
  · obtain ⟨m, held, -⟩ := retained g live trivial
    rw [gone] at held
    cases held
  · rw [fair g' given trivial q queued lt other] at incompatible
    cases incompatible

end Saguaro.Locks
