/-
In-place updates of finite maps.

Mathlib's `AList` is the finite map of this development; what it lacks is the
`get_mut` idiom: change the value at a key when there is one. `modify` is that
operation, and `modifyAll` its iteration over a list of keys. `retain` drops the
bindings whose key fails a test, `filterMapValues` changes every value and drops
the bindings it has no new value for. A binding after an insertion, or after an update
of a map that is a function, is the new one or an old one elsewhere.
-/

import Mathlib.Data.List.AList

theorem Function.update_eq_some {α β : Type*} [DecidableEq α] {f : α → Option β} {a a' : α}
    {b c : β} : Function.update f a' (some b) a = some c ↔
      a = a' ∧ c = b ∨ a ≠ a' ∧ f a = some c := by
  by_cases same : a = a'
  · subst same
    simp [eq_comm]
  · simp [same]

namespace AList

open List Option

universe u v

variable {α : Type u} {β : Type v} [DecidableEq α]

/-- Apply `f` to the value at `a`, when `a` is bound. -/
def modify (a : α) (f : β → β) (m : AList fun _ : α => β) : AList fun _ : α => β :=
  match m.lookup a with
  | none => m
  | some b => m.insert a (f b)

/-- `modify` at every key of a list, in order. -/
def modifyAll (keys : List α) (f : β → β) (m : AList fun _ : α => β) : AList fun _ : α => β :=
  keys.foldl (fun m a => m.modify a f) m

/-- Keep the bindings whose key passes `keep`. -/
def retain (keep : α → Bool) (m : AList fun _ : α => β) : AList fun _ : α => β :=
  ⟨m.entries.filter fun e => keep e.1, m.nodupKeys.sublist filter_sublist⟩

omit [DecidableEq α] in
theorem nodupKeys_filterMap {g : β → Option β} {l : List (Sigma fun _ : α => β)}
    (nodup : l.NodupKeys) :
    (l.filterMap fun e => (g e.2).map fun b => (⟨e.1, b⟩ : Sigma fun _ : α => β)).NodupKeys := by
  have sub : (l.filterMap fun e =>
      (g e.2).map fun b => (⟨e.1, b⟩ : Sigma fun _ : α => β)).keys.Sublist l.keys := by
    induction l with
    | nil => exact .refl _
    | cons e l ih =>
      have rest := ih (nodupKeys_cons.mp nodup).2
      cases hg : g e.2 with
      | none => simpa [filterMap_cons, hg] using rest.cons e.1
      | some b => simpa [filterMap_cons, hg] using rest.cons_cons e.1
  exact List.Nodup.sublist sub nodup

/-- Replace every value by `g` of it, dropping the bindings `g` has none for. -/
def filterMapValues (g : β → Option β) (m : AList fun _ : α => β) : AList fun _ : α => β :=
  ⟨m.entries.filterMap fun e => (g e.2).map fun b => ⟨e.1, b⟩, nodupKeys_filterMap m.nodupKeys⟩

variable {a a' : α} {f : β → β} {m : AList fun _ : α => β}

@[simp] theorem lookup_modify_self : (m.modify a f).lookup a = (m.lookup a).map f := by
  unfold modify
  cases h : m.lookup a with
  | none => simp [h]
  | some b => simp

theorem lookup_modify_ne (ne : a ≠ a') : (m.modify a' f).lookup a = m.lookup a := by
  unfold modify
  cases m.lookup a' with
  | none => rfl
  | some b => exact lookup_insert_ne ne

theorem lookup_modify : (m.modify a' f).lookup a =
    if a = a' then (m.lookup a).map f else m.lookup a := by
  by_cases h : a = a'
  · subst h
    simp
  · rw [lookup_modify_ne h, if_neg h]

theorem lookup_insert_if {b : β} (m : AList fun _ : α => β) (a : α) :
    (m.insert a' b).lookup a = if a = a' then some b else m.lookup a := by
  split
  · rw [‹a = a'›, lookup_insert]
  · exact lookup_insert_ne ‹_›

theorem lookup_insert_cases {b c : β} (found : (m.insert a' b).lookup a = some c) :
    a = a' ∧ c = b ∨ a ≠ a' ∧ m.lookup a = some c := by
  rw [lookup_insert_if] at found
  split at found
  · exact .inl ⟨‹_›, (some.inj found).symm⟩
  · exact .inr ⟨‹_›, found⟩

theorem lookup_erase_if : (m.erase a').lookup a = if a = a' then none else m.lookup a := by
  split
  · rw [‹a = a'›, lookup_erase]
  · exact lookup_erase_ne ‹_›

theorem of_lookup_erase {b : β} (found : (m.erase a').lookup a = some b) : m.lookup a = some b := by
  rw [lookup_erase_if] at found
  split at found
  · cases found
  · exact found

/-- For an idempotent update the iteration is the pointwise update of the keys. -/
theorem lookup_modifyAll (idem : ∀ b, f (f b) = f b) (keys : List α) :
    (m.modifyAll keys f).lookup a = if a ∈ keys then (m.lookup a).map f else m.lookup a := by
  induction keys generalizing m with
  | nil => simp [modifyAll]
  | cons k ks ih =>
    have unfolded : m.modifyAll (k :: ks) f = (m.modify k f).modifyAll ks f := rfl
    rw [unfolded, ih, lookup_modify]
    by_cases hk : a = k
    · subst hk
      by_cases hks : a ∈ ks
      · cases m.lookup a <;> simp [hks, idem]
      · simp [hks]
    · simp [hk]

theorem lookup_retain {keep : α → Bool} :
    (m.retain keep).lookup a = if keep a = true then m.lookup a else none := by
  have bound : ∀ b, (m.retain keep).lookup a = some b ↔ m.lookup a = some b ∧ keep a = true := by
    intro b
    rw [← mem_def, ← mem_def, mem_lookup_iff, mem_lookup_iff]
    exact mem_filter
  ext b
  rw [bound]
  split <;> simp [*]

theorem lookup_filterMapValues {g : β → Option β} :
    (m.filterMapValues g).lookup a = (m.lookup a).bind g := by
  ext b
  rw [← mem_def, mem_lookup_iff, bind_eq_some_iff]
  simp only [filterMapValues, mem_filterMap, map_eq_some_iff]
  constructor
  · rintro ⟨⟨k, c⟩, mem, d, hd, ⟨⟩⟩
    exact ⟨c, mem_lookup_iff.mpr mem, hd⟩
  · rintro ⟨c, hc, hb⟩
    exact ⟨⟨a, c⟩, mem_lookup_iff.mp hc, b, hb, rfl⟩

end AList
