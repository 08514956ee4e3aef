/-
What the manager's operations do to the grant table and to the queues.

One specification for each operation, in terms of `grantOf`, `generationOf` and
`queueOf`; nothing after this module unfolds the operations.
-/

import Saguaro.Locks.Ledger

namespace Saguaro.Locks

open List Option AList Holding LockState

variable {K : Type} [DecidableEq K] {st st' : LockState K} {simulated : Simulated K}

/-- The grants, their generations and the counters behind them are as before. -/
structure SameTable (st st' : LockState K) : Prop where
  id : st'.id = st.id
  grants : st'.grants = st.grants
  generations : st'.tupleGrantGenerations = st.tupleGrantGenerations
  next : st'.nextTupleGrantGeneration = st.nextTupleGrantGeneration

namespace SameTable

omit [DecidableEq K] in
theorem refl (st : LockState K) : SameTable st st := ⟨rfl, rfl, rfl, rfl⟩

omit [DecidableEq K] in
theorem trans {st'' : LockState K} (h : SameTable st st') (h' : SameTable st' st'') :
    SameTable st st'' :=
  ⟨h'.id.trans h.id, h'.grants.trans h.grants, h'.generations.trans h.generations,
    h'.next.trans h.next⟩

theorem grantOf (h : SameTable st st') : st'.grantOf = st.grantOf := by
  funext r o
  simp [LockState.grantOf, h.grants]

theorem generationOf (h : SameTable st st') : st'.generationOf = st.generationOf := by
  funext r o
  simp [LockState.generationOf, h.generations]

end SameTable

/-! ### Queues -/

variable {requestId : Nat}

theorem queueOf_removeRequest {resource r : LockResource K} :
    (removeRequest st resource requestId).queueOf r =
      if r = resource then (st.queueOf r).filter fun q => q.id ≠ requestId else st.queueOf r := by
  unfold removeRequest
  by_cases same : r = resource
  · subst same
    rw [if_pos rfl]
    cases hq : st.queues.lookup r with
    | none => simp [queueOf, hq]
    | some queue =>
      by_cases emptied : (queue.filter fun q => q.id ≠ requestId) = []
      · simp only [queueOf, hq, emptied, isEmpty_nil, if_true, lookup_erase, getD_none, getD_some]
      have kept : (queue.filter fun q => q.id ≠ requestId).isEmpty = false := by
        simpa using emptied
      simp only [queueOf, hq, kept, Bool.false_eq_true, if_false, lookup_insert, getD_some]
  rw [if_neg same]
  cases st.queues.lookup resource with
  | none => rfl
  | some queue =>
    simp only [queueOf]
    split
    · rw [lookup_erase_ne same]
    · rw [lookup_insert_ne same]

variable {resource : LockResource K}

theorem removeRequest_frame : SameTable st (removeRequest st resource requestId) ∧
      (removeRequest st resource requestId).nextRequestId = st.nextRequestId := by
  unfold removeRequest
  cases st.queues.lookup resource with
  | none => exact ⟨.refl st, rfl⟩
  | some queue => exact ⟨⟨rfl, rfl, rfl, rfl⟩, rfl⟩

/-- Every queue is in order of arrival. -/
structure QueuesOk (st : LockState K) : Prop where
  sorted : ∀ r, (st.queueOf r).Pairwise fun q q' => q.id < q'.id
  numbered : ∀ r, ∀ q ∈ st.queueOf r, q.id < st.nextRequestId

/-- Queues that lost some requests are still in order. -/
theorem QueuesOk.sublist (h : QueuesOk st) (sub : ∀ r, (st'.queueOf r).Sublist (st.queueOf r))
    (next : st'.nextRequestId = st.nextRequestId) : QueuesOk st' where
  sorted r := (h.sorted r).sublist (sub r)
  numbered r q mem := next ▸ h.numbered r q ((sub r).subset mem)

theorem QueuesOk.of_queues (h : QueuesOk st) (qs : st'.queues = st.queues)
    (next : st'.nextRequestId = st.nextRequestId) : QueuesOk st' :=
  h.sublist (fun r => by simp [queueOf, qs]) next

theorem queueOf_enqueue {resource r : LockResource K} {queued : QueuedRequest} :
    (enqueue st resource queued).queueOf r =
      if r = resource then st.queueOf r ++ [queued] else st.queueOf r := by
  by_cases here : r = resource
  · subst here
    simp [queueOf, enqueue]
  · simp [queueOf, enqueue, lookup_insert_ne here, here]

/-- The newest request goes to the end of its queue. -/
theorem QueuesOk.enqueue (h : QueuesOk st) {queued : QueuedRequest}
    (newest : queued.id = st.nextRequestId) :
    QueuesOk (enqueue { st with nextRequestId := st.nextRequestId + 1 } resource queued) := by
  constructor <;> intro r <;> rw [queueOf_enqueue]
  · split
    · refine pairwise_append.mpr ⟨h.sorted r, by simp, fun q mem q' mem' => ?_⟩
      rw [mem_singleton.mp mem', newest]
      exact h.numbered r q mem
    · exact h.sorted r
  intro q mem
  split at mem
  · rcases mem_append.mp mem with old | new
    · exact Nat.lt_succ_of_lt (h.numbered r q old)
    · rw [mem_singleton.mp new, newest]
      exact Nat.lt_succ_self _
  · exact Nat.lt_succ_of_lt (h.numbered r q mem)

theorem QueuesOk.withdraw (h : QueuesOk st) (call : Call K) : QueuesOk (withdraw st call) := by
  refine h.sublist (fun r => ?_) removeRequest_frame.2
  change ((removeRequest st call.request.resource call.requestId).queueOf r).Sublist _
  rw [queueOf_removeRequest]
  split
  · exact filter_sublist
  · exact .refl _

theorem withdraw_sameTable (st : LockState K) (call : Call K) : SameTable st (withdraw st call) :=
  ⟨removeRequest_frame.1.id, removeRequest_frame.1.grants, removeRequest_frame.1.generations,
    removeRequest_frame.1.next⟩

/-- The queue is in order of arrival, so the scan before a request sees exactly what
arrived earlier. -/
theorem ahead_of_lt (qs : QueuesOk st)
    {q : QueuedRequest} (mem : q ∈ st.queueOf resource) (earlier : q.id < requestId) :
    q ∈ (st.queueOf resource).takeWhile fun r => r.id ≠ requestId := by
  obtain ⟨front, back, split⟩ := append_of_mem mem
  have sorted := qs.sorted resource
  rw [split] at sorted ⊢
  have prior : ∀ r ∈ front ++ [q], r.id ≠ requestId := by
    intro r hr
    rcases mem_append.mp hr with inFront | isLast
    · have := (pairwise_append.mp sorted).2.2 r inFront q (.head _)
      omega
    · rw [mem_singleton.mp isLast]
      omega
  have shape : front ++ q :: back = (front ++ [q]) ++ back := by simp
  rw [shape, takeWhile_append_of_pos (by simpa using prior)]
  simp

variable {owner : LockOwner} {mode : ObjectLockMode}

/-- An unblocked request conflicts with no other holder and with no request of
another owner that arrived before it. -/
theorem requestBlockers_eq_nil (qs : QueuesOk st)
    (free : (requestBlockers st resource requestId owner mode).isEmpty = true) :
    (∀ o m, o ≠ owner → st.grantOf resource o = some m → mode.compatible m = true) ∧
      ∀ q ∈ st.queueOf resource, q.id < requestId → q.owner ≠ owner →
        mode.compatible q.mode = true := by
  rw [List.isEmpty_iff, requestBlockers, List.append_eq_nil_iff, List.map_eq_nil_iff,
    map_eq_nil_iff, filter_eq_nil_iff, filter_eq_nil_iff] at free
  obtain ⟨holders, waits⟩ := free
  constructor
  · intro o m ne hm
    have := holders ⟨(resource, o), m⟩ (mem_lookup_iff.mp hm)
    simpa [ne] using this
  · intro q mem earlier ne
    have := waits q (ahead_of_lt qs mem earlier)
    simpa [ne] using this

/-! ### Grants -/

theorem grantOf_putGrant {n : Option Nat} : (putGrant owner st (resource, mode, n)).grantOf =
      Holding.set st.grantOf resource owner (some mode) := by
  funext r o
  by_cases here : r = resource ∧ o = owner
  · obtain ⟨rfl, rfl⟩ := here
    simp [grantOf, putGrant]
  · have ne : (r, o) ≠ (resource, owner) := fun eq => here (Prod.mk.inj eq)
    simp [grantOf, putGrant, Holding.set, here, lookup_insert_ne ne]

theorem generationOf_putGrant {n : Option Nat} :
    (putGrant owner st (resource, mode, n)).generationOf =
      Holding.set st.generationOf resource owner (n <|> st.generationOf resource owner) := by
  funext r o
  by_cases here : r = resource ∧ o = owner
  · obtain ⟨rfl, rfl⟩ := here
    cases n <;> simp [generationOf, putGrant]
  · have ne : (r, o) ≠ (resource, owner) := fun eq => here (Prod.mk.inj eq)
    cases n <;> simp [generationOf, putGrant, Holding.set, here, lookup_insert_ne ne]

/-- The generation a new grant gets. -/
def issue (next : Nat) : ObjectLockMode → Option Nat
  | .tuple _ => some (next + 1)
  | _ => none

/-- The state after a call was granted its mode. -/
def granted (st : LockState K) (call : Call K) : LockState K :=
  let generation := issue st.nextTupleGrantGeneration call.request.mode
  putGrant call.owner
    { st with nextTupleGrantGeneration := generation.getD st.nextTupleGrantGeneration }
    (call.request.resource, call.request.mode, generation)

/-- What a call that waits or is about to be granted has seen of its own grant. -/
structure Call.Sound (call : Call K) : Prop where
  admits : call.request.resource.admits call.request.mode = true
  previous : ∀ m, call.previous = some m →
    call.request.resource.admits m = true ∧ m.covers call.request.mode = false

/-- A granted call holds the mode it asked for. -/
theorem grant_cases (st : LockState K) {call : Call K} (sound : call.Sound) :
    (∃ e, grant st call = (st, .error e)) ∨
      grant st call = (granted st call, .ok (.acquired call.previous call.previousGeneration
        call.request.mode (issue st.nextTupleGrantGeneration call.request.mode))) := by
  have strongest : call.strongest = .ok call.request.mode := by
    unfold Call.strongest
    cases hp : call.previous with
    | none => rfl
    | some held =>
      obtain ⟨admits, uncov⟩ := sound.previous held hp
      obtain ⟨m, hm⟩ := LockResource.strongest_of_admits admits sound.admits
      have same := ObjectLockMode.strongest_eq_right uncov hm
      simpa [same] using hm
  unfold grant
  rw [strongest]
  cases hm : call.request.mode with
  | tuple mode =>
    simp only [checkedSucc]
    by_cases fits : st.nextTupleGrantGeneration + 1 < 2 ^ 64
    · right
      rw [if_pos fits]
      simp [granted, putGrant, issue, hm]
    · left
      rw [if_neg fits]
      exact ⟨_, rfl⟩
  | _ => right; simp [granted, putGrant, issue, hm]

/-- The ways out of one iteration of the wait loop. -/
theorem attempt_cases (st : LockState K) {call : Call K} (cancel : Option CancelReason)
    (sound : call.Sound) : attempt st call cancel = ({ st with
        waitsFor := st.waitsFor.insert call.owner (requestBlockers st call.request.resource
          call.requestId call.owner call.request.mode) }, .waiting call) ∨
      (∃ e, attempt st call cancel = (withdraw st call, .done (.error e))) ∨
      attempt st call cancel = (withdraw st call, .done (.ok .skipped)) ∨
      (requestBlockers st call.request.resource call.requestId call.owner
        call.request.mode).isEmpty = true ∧
        attempt st call cancel = (granted (withdraw st call) call, .done (.ok (.acquired
          call.previous call.previousGeneration call.request.mode
          (issue (withdraw st call).nextTupleGrantGeneration call.request.mode)))) := by
  unfold attempt
  split
  · exact .inr (.inl ⟨_, rfl⟩)
  dsimp only
  split
  · rename_i free
    rcases grant_cases (withdraw st call) sound with ⟨e, refused⟩ | given
    · exact .inr (.inl ⟨e, by rw [refused]⟩)
    · exact .inr (.inr (.inr ⟨free, by rw [given]⟩))
  split
  · exact .inr (.inl ⟨_, rfl⟩)
  · exact .inr (.inr (.inl rfl))
  · exact .inl rfl

/-- The three ways `acquire_one` goes before its wait loop: it refuses, it answers
from a grant that covers the request, or it queues up. -/
theorem acquireOne_cases (st : LockState K) (owner : LockOwner) (req : ObjectLockRequest K)
    (policy : TupleLockWaitPolicy) (cancel : Option CancelReason) :
    (∃ e, acquireOne st owner req policy cancel = (st, .done (.error e))) ∨
      (∃ held, st.grantOf req.resource owner = some held ∧ held.covers req.mode = true ∧
        acquireOne st owner req policy cancel = (st, .done (.ok (.acquired (some held)
          (st.generationOf req.resource owner) held
          (st.generationOf req.resource owner))))) ∨ req.resource.admits req.mode = true ∧
        (∀ held, st.grantOf req.resource owner = some held → held.covers req.mode = false) ∧
        acquireOne st owner req policy cancel =
          attempt (enqueue { st with nextRequestId := st.nextRequestId + 1 } req.resource
            ⟨st.nextRequestId, owner, req.mode⟩)
          ⟨owner, req, policy, st.nextRequestId, st.grantOf req.resource owner,
            st.generationOf req.resource owner⟩ cancel := by
  unfold acquireOne validateRequest
  by_cases admits : req.resource.admits req.mode = true
  · rw [if_pos admits]
    dsimp only
    split
    · exact .inl ⟨_, rfl⟩
    split
    · rename_i held hh
      obtain ⟨found, covers⟩ := filter_eq_some_iff.mp hh
      refine .inr (.inl ⟨held, found, covers, rfl⟩)
    rename_i hh
    have uncov : ∀ held, st.grantOf req.resource owner = some held →
        held.covers req.mode = false := by
      intro held found
      simpa using filter_eq_none_iff.mp hh held found
    unfold nextId
    cases hs : checkedSucc st.nextRequestId with
    | none => exact .inl ⟨_, rfl⟩
    | some next =>
      have : next = st.nextRequestId + 1 := by
        unfold checkedSucc at hs
        split at hs <;> simp at hs
        exact hs.symm
      subst this
      exact .inr (.inr ⟨admits, uncov, rfl⟩)
  · rw [if_neg admits]
    exact .inl ⟨_, rfl⟩

/-! ### Rollback by receipts -/

/-- One owner's grants, read through the simulated changes. -/
def overlay (st : LockState K) (owner : LockOwner) (simulated : Simulated K)
    (resource : LockResource K) : Option ObjectLockMode × Option Nat :=
  (simulated.lookup resource).getD (st.grantOf resource owner, st.generationOf resource owner)

/-- The receipts apply one after another to `view`, leaving `view'`. -/
inductive Replays (xid : TxnId) :
    (LockResource K → Option ObjectLockMode × Option Nat) → List (TupleGrantReceipt K) →
    (LockResource K → Option ObjectLockMode × Option Nat) → Prop where
  | nil {view} : Replays xid view [] view
  | cons {view view' r rs} : r.owner = xid →
      view r.row = (some (.tuple r.granted), some r.grantedGeneration) →
      Replays xid (Function.update view r.row (r.previous.map .tuple, r.previousGeneration)) rs
        view' → Replays xid view (r :: rs) view'

theorem overlay_insert {v : Option ObjectLockMode × Option Nat} :
    overlay st owner (simulated.insert resource v) =
      Function.update (overlay st owner simulated) resource v := by
  funext r
  by_cases same : r = resource
  · subst same
    simp [overlay]
  · simp [overlay, lookup_insert_ne same, Function.update_of_ne same]

theorem simulate_replays {xid : TxnId} {rs : List (TupleGrantReceipt K)}
    {simulated' : Simulated K}
    (done : rs.foldlM (simulateReceipt st owner xid) simulated = .ok simulated') :
    Replays xid (overlay st owner simulated) rs (overlay st owner simulated') := by
  induction rs generalizing simulated with
  | nil =>
    cases done
    exact .nil
  | cons r rs ih =>
    rw [foldlM_cons] at done
    cases hr : simulateReceipt st owner xid simulated r with
    | error e =>
      rw [hr] at done
      cases done
    | ok middle =>
      rw [hr] at done
      have rest := ih done
      unfold simulateReceipt at hr
      split at hr
      · cases hr
      rename_i mine
      dsimp only at hr
      split at hr
      · cases hr
      rename_i now
      cases hr
      rw [overlay_insert] at rest
      exact .cons (by tauto) (not_not.mp now) rest

/-- Take one grant away. -/
def takeGrant (owner : LockOwner) (st : LockState K) (resource : LockResource K) : LockState K :=
  { st with
    grants := st.grants.erase (resource, owner)
    tupleGrantGenerations := st.tupleGrantGenerations.erase (resource, owner) }

theorem holding_takeGrant :
    (takeGrant owner st resource).grantOf = Holding.set st.grantOf resource owner none ∧
      (takeGrant owner st resource).generationOf =
        Holding.set st.generationOf resource owner none := by
  constructor <;> funext r o
  all_goals
    by_cases here : r = resource ∧ o = owner
    · obtain ⟨rfl, rfl⟩ := here
      simp [grantOf, generationOf, takeGrant]
    · have ne : (r, o) ≠ (resource, owner) := fun eq => here (Prod.mk.inj eq)
      simp [grantOf, generationOf, takeGrant, Holding.set, here, lookup_erase_ne ne]

/-- What is neither a grant nor a generation is as before. -/
structure SameQueues (st st' : LockState K) : Prop where
  id : st'.id = st.id
  next : st'.nextTupleGrantGeneration = st.nextTupleGrantGeneration
  queues : st'.queues = st.queues
  requests : st'.nextRequestId = st.nextRequestId

/-- Writing the replayed grants back makes the owner's grants what they say. -/
theorem writeRestored_ok {ents : List (LockResource K × Option ObjectLockMode × Option Nat)}
    (nodup : (ents.map Prod.fst).Nodup) (paired : ∀ e ∈ ents, e.2.2.isSome = e.2.1.isSome) :
    ∃ st', writeRestored owner st ents = (st', .ok ()) ∧ SameQueues st st' ∧
      (∀ r v, (r, v) ∈ ents → st'.grantOf r owner = v.1 ∧ st'.generationOf r owner = v.2) ∧
      ∀ r o, (o = owner → r ∉ ents.map Prod.fst) →
        st'.grantOf r o = st.grantOf r o ∧ st'.generationOf r o = st.generationOf r o := by
  induction ents generalizing st with
  | nil => exact ⟨st, rfl, ⟨rfl, rfl, rfl, rfl⟩, by simp, fun _ _ _ => ⟨rfl, rfl⟩⟩
  | cons e rest ih =>
    obtain ⟨resource, mode, n⟩ := e
    rw [map_cons, nodup_cons] at nodup
    -- Either way the entry sets the owner's grant at its own resource only.
    have first : ∃ middle, writeRestored owner st ((resource, mode, n) :: rest) =
        writeRestored owner middle rest ∧ SameQueues st middle ∧
        middle.grantOf = set st.grantOf resource owner mode ∧
        middle.generationOf = set st.generationOf resource owner n := by
      have pair := paired _ (.head _)
      cases mode with
      | some m =>
        cases n with
        | none => simp at pair
        | some k =>
          refine ⟨putGrant owner st (resource, m, some k), rfl, ⟨rfl, rfl, rfl, rfl⟩,
            grantOf_putGrant, ?_⟩
          rw [generationOf_putGrant]
          rfl
      | none =>
        cases n with
        | some k => simp at pair
        | none =>
          exact ⟨takeGrant owner st resource, rfl, ⟨rfl, rfl, rfl, rfl⟩,
            holding_takeGrant.1, holding_takeGrant.2⟩
    obtain ⟨middle, step, same, grants, gens⟩ := first
    obtain ⟨st', done, same', wrote, others⟩ : ∃ st', writeRestored owner middle rest = _ ∧ _ :=
      ih nodup.2 fun e mem => paired e (.tail _ mem)
    refine ⟨st', step.trans done, ⟨same'.id.trans same.id, same'.next.trans same.next,
      same'.queues.trans same.queues, same'.requests.trans same.requests⟩, ?_, ?_⟩
    · intro r v mem
      rcases mem_cons.mp mem with eq | later
      · cases eq
        obtain ⟨grant, gen⟩ := others resource owner fun _ => nodup.1
        rw [grant, gen, grants, gens, set_self, set_self]
        exact ⟨rfl, rfl⟩
      · exact wrote r v later
    intro r o gone
    obtain ⟨grant, gen⟩ := others r o fun eq mem =>
      gone eq (.tail _ mem)
    have away : r = resource → o ≠ owner := by
      rintro rfl eq
      exact gone eq (.head _)
    rw [grant, gen, grants, gens, set_other away, set_other away]
    exact ⟨rfl, rfl⟩

/-- Simulated grants carry a generation exactly when they carry a mode. -/
theorem simulate_paired {xid : TxnId} {rs : List (TupleGrantReceipt K)}
    {simulated' : Simulated K}
    (done : rs.foldlM (simulateReceipt st owner xid) simulated = .ok simulated')
    (receipts : ∀ r ∈ rs, r.previousGeneration.isSome = r.previous.isSome)
    (start : ∀ e ∈ simulated.entries, e.2.2.isSome = e.2.1.isSome) :
    ∀ e ∈ simulated'.entries, e.2.2.isSome = e.2.1.isSome := by
  induction rs generalizing simulated with
  | nil =>
    cases done
    exact start
  | cons r rs ih =>
    rw [foldlM_cons] at done
    cases hr : simulateReceipt st owner xid simulated r with
    | error e =>
      rw [hr] at done
      cases done
    | ok middle =>
      rw [hr] at done
      refine ih done (fun r mem => receipts r (.tail _ mem)) ?_
      unfold simulateReceipt at hr
      split at hr
      · cases hr
      dsimp only at hr
      split at hr
      · cases hr
      cases hr
      intro e mem
      rw [entries_insert] at mem
      rcases mem with _ | ⟨_, old⟩
      · simpa using receipts r (.head _)
      · exact start e ((kerase_sublist _ _).subset old)

/-- The rollback either refuses and changes nothing, or the receipts apply backwards
and the owner's grants become what they lead to. -/
theorem restoreTupleChanges_cases (st : LockState K) (owner : LockOwner)
    {changes : List (TupleGrantReceipt K)}
    (receipts : ∀ r ∈ changes, r.previousGeneration.isSome = r.previous.isSome) :
    (∃ e, restoreTupleChanges st owner changes = (st, .error e) ∧
        ∀ xid, owner = .transaction xid → owner ∈ st.activeOwners →
          changes.reverse.foldlM (simulateReceipt st owner xid) ∅ = .error e) ∨
      ∃ xid view st', owner = .transaction xid ∧
        Replays xid (fun r => (st.grantOf r owner, st.generationOf r owner)) changes.reverse view ∧
        restoreTupleChanges st owner changes = (st', .ok ()) ∧ SameQueues st st' ∧
        st'.grantOf = setOwner st.grantOf owner (fun r => (view r).1) ∧
        st'.generationOf = setOwner st.generationOf owner (fun r => (view r).2) := by
  unfold restoreTupleChanges
  split
  · rename_i gone
    exact .inl ⟨_, rfl, fun _ _ act => absurd act gone⟩
  cases owner with
  | statement id => exact .inl ⟨_, rfl, nofun⟩
  | transaction xid =>
    cases sim : changes.reverse.foldlM (simulateReceipt st (.transaction xid) xid) ∅ with
    | error e =>
      left
      simp only [sim]
      refine ⟨e, rfl, ?_⟩
      rintro _ ⟨⟩ -
      exact sim
    | ok simulated =>
      have nodup : ((simulated.entries.map fun e => (e.1, e.2)).map Prod.fst).Nodup := by
        rw [List.map_map]
        exact simulated.nodupKeys
      have paired := simulate_paired sim (fun r mem => receipts r (mem_reverse.mp mem)) (by simp)
      obtain ⟨st', done, same, wrote, others⟩ : ∃ st', writeRestored (.transaction xid) st
          (simulated.entries.map fun e => (e.1, e.2)) = _ ∧ _ := writeRestored_ok nodup (by
        intro e mem
        obtain ⟨e', mem', rfl⟩ := mem_map.mp mem
        exact paired e' mem')
      have at_owner : ∀ r, st'.grantOf r (.transaction xid) =
          (overlay st (.transaction xid) simulated r).1 ∧ st'.generationOf r (.transaction xid) =
            (overlay st (.transaction xid) simulated r).2 := by
        intro r
        cases hl : simulated.lookup r with
        | some v =>
          have := wrote r v (mem_map.mpr ⟨⟨r, v⟩, mem_lookup_iff.mp hl, rfl⟩)
          simpa [overlay, hl] using this
        | none =>
          have absent : r ∉ (simulated.entries.map fun e => (e.1, e.2)).map Prod.fst := by
            rw [List.map_map]
            exact lookup_eq_none.mp hl
          simpa [overlay, hl] using others r _ fun _ => absent
      refine .inr ⟨xid, overlay st (.transaction xid) simulated,
        { st' with waitsFor := st'.waitsFor.erase (.transaction xid) }, rfl, ?_, ?_,
        ⟨same.id, same.next, same.queues, same.requests⟩, ?_, ?_⟩
      · exact simulate_replays sim
      · simp [sim, done]
      · funext r o
        by_cases own : o = .transaction xid
        · subst own
          rw [setOwner_self]
          exact (at_owner r).1
        · rw [setOwner_other own]
          exact (others r o fun eq => absurd eq own).1
      funext r o
      by_cases own : o = .transaction xid
      · subst own
        rw [setOwner_self]
        exact (at_owner r).2
      · rw [setOwner_other own]
        exact (others r o fun eq => absurd eq own).2

/-! ### Rollback by snapshots -/

theorem mem_ownerSnapshot {guardId : Nat} {r : LockResource K} {m : ObjectLockMode} :
    (r, m) ∈ (ownerSnapshot st owner guardId).grants ↔ st.grantOf r owner = some m := by
  rw [grantOf, ← mem_def, mem_lookup_iff]
  simp only [ownerSnapshot, List.mem_map, List.mem_filter, decide_eq_true_eq]
  constructor
  · rintro ⟨⟨⟨r', o⟩, m'⟩, ⟨mem, rfl⟩, ⟨⟩⟩
    exact mem
  · intro mem
    exact ⟨⟨(r, owner), m⟩, ⟨mem, rfl⟩, rfl⟩

omit [DecidableEq K] in
theorem nodup_ownerSnapshot {guardId : Nat} :
    ((ownerSnapshot st owner guardId).grants.map Prod.fst).Nodup := by
  have keys : st.grants.entries.Pairwise fun e e' => e.1 ≠ e'.1 :=
    pairwise_map.mp st.grants.nodupKeys
  rw [ownerSnapshot, List.map_map]
  refine pairwise_map.mpr ((keys.filter _).imp_of_mem ?_)
  intro e e' he he' ne same
  have own := of_decide_eq_true (mem_filter.mp he).2
  have own' := of_decide_eq_true (mem_filter.mp he').2
  exact ne (Prod.ext same (own.trans own'.symm))

/-- What `restore_owner` puts back: the modes of the snapshot, rows with a fresh
generation. -/
theorem putGrants_spec {s : LockState K} (owner : LockOwner) {next next' : Nat}
    {grants : List (LockResource K × ObjectLockMode)}
    {back : List (LockResource K × ObjectLockMode × Option Nat)}
    (asg : assignGenerations next grants = .ok (next', back))
    (nodup : (grants.map Prod.fst).Nodup) :
    next ≤ next' ∧ SameQueues s (back.foldl (putGrant owner) s) ∧
      (∀ r m, (r, m) ∈ grants → (back.foldl (putGrant owner) s).grantOf r owner = some m ∧
        match m with
        | .tuple _ => ∃ k, (back.foldl (putGrant owner) s).generationOf r owner = some k ∧
            next < k ∧ k ≤ next'
        | _ => (back.foldl (putGrant owner) s).generationOf r owner = s.generationOf r owner) ∧
      ∀ r o, (o = owner → r ∉ grants.map Prod.fst) →
        (back.foldl (putGrant owner) s).grantOf r o = s.grantOf r o ∧
        (back.foldl (putGrant owner) s).generationOf r o = s.generationOf r o := by
  induction grants generalizing next back s with
  | nil =>
    cases asg
    exact ⟨le_refl _, ⟨rfl, rfl, rfl, rfl⟩, by simp, fun _ _ _ => ⟨rfl, rfl⟩⟩
  | cons e rest ih =>
    obtain ⟨resource, mode⟩ := e
    rw [map_cons, nodup_cons] at nodup
    -- The head takes at most one generation, the rest is assigned after it.
    obtain ⟨n, middle, back', taken, bound, issued, rfl⟩ : ∃ n middle back',
        assignGenerations middle rest = .ok (next', back') ∧ next ≤ middle ∧ (match mode with
          | .tuple _ => n = some middle ∧ next < middle
          | _ => n = none) ∧ back = (resource, mode, n) :: back' := by
      cases mode with
      | tuple m =>
        simp only [assignGenerations] at asg
        split at asg
        · cases asg
        rename_i generation hs
        have : generation = next + 1 := by
          unfold checkedSucc at hs
          split at hs <;> simp at hs
          exact hs.symm
        subst this
        cases hr : assignGenerations (next + 1) rest with
        | error e => rw [hr] at asg; cases asg
        | ok out =>
          rw [hr] at asg
          cases asg
          exact ⟨some (next + 1), next + 1, out.2, hr, Nat.le_succ _,
            ⟨rfl, Nat.lt_succ_self _⟩, rfl⟩
      | _ =>
        simp only [assignGenerations] at asg
        cases hr : assignGenerations next rest with
        | error e => rw [hr] at asg; cases asg
        | ok out =>
          rw [hr] at asg
          cases asg
          exact ⟨none, next, out.2, hr, le_refl _, rfl, rfl⟩
    rw [foldl_cons]
    obtain ⟨le, same, put, others⟩ := ih taken nodup.2
    refine ⟨le_trans bound le, ⟨same.id, same.next, same.queues, same.requests⟩, ?_, ?_⟩
    · intro r m mem
      rcases mem_cons.mp mem with eq | later
      · cases eq
        obtain ⟨grant, gen⟩ := others resource owner fun _ => nodup.1
        rw [grant, gen, grantOf_putGrant, generationOf_putGrant, set_self, set_self]
        refine ⟨rfl, ?_⟩
        cases mode with
        | tuple m =>
          obtain ⟨rfl, lt⟩ := issued
          exact ⟨middle, rfl, lt, le⟩
        | _ => simp [issued]
      obtain ⟨grant, gen⟩ := put r m later
      have away : r = resource → owner ≠ owner := by
        rintro rfl
        exact absurd (mem_map.mpr ⟨_, later, rfl⟩) nodup.1
      refine ⟨grant, ?_⟩
      cases m with
      | tuple m =>
        obtain ⟨k, hk, lt, le'⟩ := gen
        exact ⟨k, hk, by omega, le'⟩
      | _ =>
        rw [gen, generationOf_putGrant, set_other away]
    · intro r o gone
      obtain ⟨grant, gen⟩ := others r o fun eq mem =>
        gone eq (.tail _ mem)
      have away : r = resource → o ≠ owner := by
        rintro rfl eq
        exact gone eq (.head _)
      rw [grant, gen, grantOf_putGrant, generationOf_putGrant, set_other away, set_other away]
      exact ⟨rfl, rfl⟩

theorem holding_dropGrants (st : LockState K) (owner : LockOwner) :
    (dropGrants st owner).grantOf = setOwner st.grantOf owner (fun _ => none) ∧
      (dropGrants st owner).generationOf = setOwner st.generationOf owner (fun _ => none) := by
  constructor <;> funext r o
  all_goals
    simp only [grantOf, generationOf, dropGrants, lookup_retain, setOwner]
    by_cases own : o = owner <;> simp [own]

/-- `restore_owner` either refuses and changes nothing, or gives the owner exactly the
grants of the snap, each covered by what it held. -/
theorem restoreOwner_cases (st : LockState K) (owner : LockOwner) (guardId : Nat)
    {snap : OwnerGrantSnapshot K}
    (nodup : (snap.grants.map Prod.fst).Nodup) :
    (∃ e, restoreOwner st owner guardId snap = (st, .error e)) ∨
      ∃ st' mode gen, restoreOwner st owner guardId snap = (st', .ok ()) ∧
        snap.owner = owner ∧ st.nextTupleGrantGeneration ≤ st'.nextTupleGrantGeneration ∧
        st'.queues = st.queues ∧ st'.nextRequestId = st.nextRequestId ∧ st'.id = st.id ∧
        st'.grantOf = setOwner st.grantOf owner mode ∧
        st'.generationOf = setOwner st.generationOf owner gen ∧
        (∀ r m, mode r = some m ↔ (r, m) ∈ snap.grants) ∧
        (∀ r m, mode r = some m → ∃ m', st.grantOf r owner = some m' ∧ m'.covers m = true) ∧
        ∀ r, match mode r with
          | some (.tuple _) => ∃ k, gen r = some k ∧ st.nextTupleGrantGeneration < k ∧
              k ≤ st'.nextTupleGrantGeneration
          | _ => gen r = none := by
  unfold restoreOwner
  split
  · exact .inl ⟨_, rfl⟩
  rename_i own
  split
  · exact .inl ⟨_, rfl⟩
  rename_i fresh
  cases asg : assignGenerations st.nextTupleGrantGeneration snap.grants with
  | error e => exact .inl ⟨e, rfl⟩
  | ok out =>
    obtain ⟨next', back⟩ := out
    obtain ⟨le, same, put, others⟩ := putGrants_spec owner asg nodup
    set final := back.foldl (putGrant owner)
      { dropGrants st owner with nextTupleGrantGeneration := next' }
    obtain ⟨grants, gens⟩ := holding_dropGrants st owner
    -- The owner holds what the snap lists, the others what they held.
    have listed : ∀ r m, final.grantOf r owner = some m ↔ (r, m) ∈ snap.grants := by
      intro r m
      refine ⟨fun hm => ?_, fun mem => (put r m mem).1⟩
      by_cases key : r ∈ snap.grants.map Prod.fst
      · obtain ⟨⟨_, m'⟩, mem, rfl⟩ := mem_map.mp key
        rw [(put _ m' mem).1] at hm
        cases hm
        exact mem
      have gone : (dropGrants st owner).grantOf r owner = none := by
        rw [grants, setOwner_self]
      rw [(others r owner fun _ => key).1] at hm
      exact absurd (hm.symm.trans gone) (by simp)
    refine .inr ⟨_, fun r => final.grantOf r owner, fun r => final.generationOf r owner, rfl,
      by tauto, le_of_le_of_eq le same.next.symm, same.queues, same.requests, same.id, ?_, ?_,
      listed, ?_, ?_⟩
    · funext r o
      by_cases own : o = owner
      · subst own
        rw [setOwner_self]
        rfl
      rw [setOwner_other own]
      refine (others r o fun eq => absurd eq own).1.trans ?_
      change (dropGrants st owner).grantOf r o = _
      rw [grants, setOwner_other own]
    · funext r o
      by_cases own : o = owner
      · subst own
        rw [setOwner_self]
        rfl
      rw [setOwner_other own]
      refine (others r o fun eq => absurd eq own).2.trans ?_
      change (dropGrants st owner).generationOf r o = _
      rw [gens, setOwner_other own]
    · intro r m hm
      simp only [Bool.not_eq_true', Bool.not_eq_false, List.all_eq_true] at fresh
      exact Option.any_eq_true _ _ |>.mp (fresh (r, m) ((listed r m).mp hm))
    intro r
    have gone : (dropGrants st owner).generationOf r owner = none := by
      rw [gens, setOwner_self]
    dsimp only
    cases hm : final.grantOf r owner with
    | none =>
      have absent : r ∉ snap.grants.map Prod.fst := by
        intro key
        obtain ⟨⟨_, m'⟩, mem, rfl⟩ := mem_map.mp key
        rw [(listed _ m').mpr mem] at hm
        cases hm
      exact (others r owner fun _ => absent).2.trans gone
    | some m =>
      have kept := (put r m ((listed r m).mp hm)).2
      cases m with
      | tuple m =>
        obtain ⟨k, hk, lt, le'⟩ := kept
        exact ⟨k, hk, lt, le_of_le_of_eq le' same.next.symm⟩
      | _ => exact kept.trans gone

theorem getD_shrink {α : Type} {keep : α → Bool} {members : List α} :
    (shrink keep members).getD [] = members.filter keep := by
  unfold shrink
  split
  · rename_i empty
    rw [isEmpty_iff.mp empty]
    rfl
  · rfl

/-- `release_owner` leaves the owner no grant and no queued request. -/
theorem releaseOwner_spec (st : LockState K) (owner : LockOwner) :
    (releaseOwner st owner).grantOf = setOwner st.grantOf owner (fun _ => none) ∧
      (releaseOwner st owner).generationOf = setOwner st.generationOf owner (fun _ => none) ∧
      (∀ r, ((releaseOwner st owner).queueOf r) =
        (st.queueOf r).filter fun q => q.owner ≠ owner) := by
  refine ⟨(holding_dropGrants st owner).1, (holding_dropGrants st owner).2, fun r => ?_⟩
  simp only [queueOf, releaseOwner, lookup_filterMapValues]
  cases st.queues.lookup r with
  | none => rfl
  | some queue => exact getD_shrink

end Saguaro.Locks
