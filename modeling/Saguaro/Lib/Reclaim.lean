/-
Reclamation of stores by weak references.

A generation is a shared object that describes a store. The table of current generations, the
undo records of transactions and captured snapshots hold generations; several generations may
describe one store, and a store may be reclaimed when no live generation that describes it is
held. Reclamation only sees identities: a retired record lists stores together with weak
references, and its stores are doomed once none of the references is held.

`Pool.Inv` is what makes this safe. A pool changes by `Touched` (a current generation is
replaced, under a transaction or for good), `Undone`, `Committed`, `Retires`, `Collected` and
`Shrunk`; each has its lemma.
-/

import Mathlib.Data.Set.Insert

namespace Saguaro.Reclaim

structure Gen (S : Type*) where
  ref : Nat
  store : S
  live : Bool

structure Retired (S : Type*) where
  stores : Set S
  refs : Set Nat

structure Pool (I S : Type*) where
  cur : I → Option (Gen S)
  /-- What each transaction found at the objects that it changed. -/
  before : Nat → I → Option (Option (Gen S))
  /-- The stores that a transaction reclaims at once when it is undone. -/
  unpub : Nat → Set S
  retired : Set (Retired S)
  doomed : Set S
  snaps : Set (I → Option (Gen S))

namespace Pool

variable {I S : Type*} {p p' : Pool I S} {i j : I} {x y : Nat} {g h : Gen S} {s : S}

def HeldAt (p : Pool I S) (i : I) (g : Gen S) : Prop :=
  p.cur i = some g ∨ (∃ x, p.before x i = some (some g)) ∨ ∃ σ ∈ p.snaps, σ i = some g

/-- `g` is the only live generation of its store that is held. -/
def Sole (p : Pool I S) (g : Gen S) : Prop :=
  ∀ i h, p.HeldAt i h → h.live → h.store = g.store → h.ref = g.ref

/-- `g` describes another store than the generation before it, if there was one. -/
def Moved (previous : Option (Gen S)) (g : Gen S) : Prop :=
  ∀ h, previous = some h → h.store ≠ g.store

/-- The current generation is live and describes the store of `g`. -/
def Kept (current : Option (Gen S)) (g : Gen S) : Prop :=
  ∃ h, current = some h ∧ h.live ∧ h.store = g.store

/-- A store that no generation describes, and that `x` may start to use. -/
structure Free (p : Pool I S) (x : Nat) (s : S) : Prop where
  unheld : ∀ i g, p.HeldAt i g → g.store ≠ s
  unpub : ∀ y, y ≠ x → s ∉ p.unpub y
  retired : ∀ R ∈ p.retired, s ∉ R.stores
  doomed : s ∉ p.doomed

structure Inv (p : Pool I S) (next : Nat) : Prop where
  owner : ∀ i j g h, p.HeldAt i g → p.HeldAt j h → g.store = h.store → i = j
  refs : ∀ i j g h, p.HeldAt i g → p.HeldAt j h → g.ref = h.ref → g = h
  bounded : ∀ i g, p.HeldAt i g → g.ref < next
  one : ∀ x y i v w, p.before x i = some v → p.before y i = some w → x = y
  changed : ∀ x i g, p.before x i = some (some g) → p.cur i ≠ some g
  alive : ∀ x i g h, p.before x i = some (some g) → p.cur i = some h → h.store = g.store →
    h.live → g.live
  made : ∀ x i v g, p.before x i = some v → p.cur i = some g → Moved v g → p.Sole g
  replaced : ∀ x i g, p.before x i = some (some g) → ¬Kept (p.cur i) g → p.Sole g
  covered : ∀ R ∈ p.retired, ∀ i g, p.HeldAt i g → g.live → g.store ∈ R.stores → g.ref ∈ R.refs
  current : ∀ R ∈ p.retired, ∀ i g, p.cur i = some g → g.live → g.store ∉ R.stores
  restorable : ∀ R ∈ p.retired, ∀ x i g, p.before x i = some (some g) → g.live → g.store ∉ R.stores
  unpub : ∀ x, ∀ s ∈ p.unpub x, (∀ i g, p.HeldAt i g → g.store ≠ s) ∨
    ∃ i v g, p.before x i = some v ∧ p.cur i = some g ∧ g.live ∧ g.store = s ∧ Moved v g
  unpub_one : ∀ x y s, s ∈ p.unpub x → s ∈ p.unpub y → x = y
  retired_unpub : ∀ R ∈ p.retired, ∀ s ∈ R.stores, ∀ x, s ∉ p.unpub x
  doomed_unpub : ∀ s ∈ p.doomed, ∀ x, s ∉ p.unpub x
  doomed : ∀ s ∈ p.doomed, ∀ i g, p.HeldAt i g → g.live → g.store ≠ s

variable {n : Nat}

/-- **Safety**: no held live generation describes a doomed store. -/
theorem Inv.safe (inv : p.Inv n) (doomed : s ∈ p.doomed) (held : p.HeldAt i g) (live : g.live) :
    g.store ≠ s := inv.doomed s doomed i g held live

/-! ### Changing the current generation -/

/-- The current generation of `i` is replaced by `new`; transaction `x` may record what it
replaces. -/
structure Touched [DecidableEq I] (p p' : Pool I S) (x : Nat) (i : I) (new : Option (Gen S)) :
    Prop where
  cur : p'.cur = Function.update p.cur i new
  before : ∀ y j v, p'.before y j = some v → (j ≠ i ∧ p.before y j = some v) ∨
    (j = i ∧ y = x ∧ (p.before x i = some v ∨ (p.before x i = none ∧ v = p.cur i)))
  kept : ∀ y j v, p.before y j = some v → p'.before y j = some v
  unpub : p'.unpub = p.unpub
  recorded : (∃ s, s ∈ p.unpub x) → ∃ v, p'.before x i = some v
  retired : p'.retired = p.retired
  doomed : p'.doomed = p.doomed
  snaps : p'.snaps = p.snaps

/-- The condition for a change of `i` under `x` to `new`. -/
structure Admits (p : Pool I S) (x : Nat) (i : I) (new : Option (Gen S)) : Prop where
  others : ∀ y, y ≠ x → p.before y i = none
  /-- A generation loses its place only when it is the only one of its store, and when its
  store is not reclaimed at once by an open transaction. -/
  replaces : ∀ g, p.cur i = some g → (∃ h, new = some h ∧ h.live ∧ h.store = g.store) ∨
    (p.Sole g ∧ ∀ y, g.store ∉ p.unpub y)
  /-- What the transaction made itself is only replaced by another store. -/
  made : ∀ v g, p.before x i = some v → p.cur i = some g → Moved v g →
    ∀ h, new = some h → h.store ≠ g.store
  origin : ∀ h, new = some h →
    (∃ g, p.cur i = some g ∧ g.store = h.store ∧ (h.live → g.live)) ∨ (p.Free x h.store ∧ h.live)

variable {new v : Option (Gen S)}

/-- Where a new generation's store comes from, as a fact about held generations. -/
theorem Admits.store_at (inv : p.Inv n) (admits : p.Admits x i new) (made : new = some h)
    (held : p.HeldAt j g) (same : g.store = h.store) :
    j = i ∧ ∃ g', p.cur i = some g' ∧ g'.store = h.store ∧ (h.live → g'.live) := by
  rcases admits.origin h made with ⟨g', now, store, live⟩ | ⟨free, -⟩
  · exact ⟨inv.owner j i g g' held (.inl now) (same.trans store.symm), g', now, store, live⟩
  · exact absurd same (free.unheld j g held)

/-- What a transaction has made is on the store that it found, or on a free one. -/
theorem Admits.moved_free (admits : p.Admits x i new)
    (noted : p.before x i = some v ∨ (p.before x i = none ∧ v = p.cur i))
    (made : new = some h) (moved : Moved v h) : p.Free x h.store ∧ h.live := by
  rcases admits.origin h made with ⟨g, now, store, -⟩ | free
  · rcases noted with old | ⟨-, rfl⟩
    · by_cases movedBefore : Moved v g
      · exact absurd store.symm (admits.made v g old now movedBefore h made)
      · refine absurd (fun k eq same => ?_) movedBefore
        exact moved k eq (same.trans store)
    · exact absurd store (moved g now)
  · exact free

variable [DecidableEq I]

namespace Touched

theorem cur_same (hit : Touched p p' x i new) : p'.cur i = new := by
  rw [hit.cur, Function.update_self]

theorem cur_other (hit : Touched p p' x i new) (ne : j ≠ i) : p'.cur j = p.cur j := by
  rw [hit.cur, Function.update_of_ne ne]

theorem heldAt (hit : Touched p p' x i new) (held : p'.HeldAt j g) :
    p.HeldAt j g ∨ (j = i ∧ new = some g) := by
  rcases held with cur | ⟨y, noted⟩ | ⟨σ, mem, snap⟩
  · by_cases same : j = i
    · subst same
      exact .inr ⟨rfl, hit.cur_same.symm.trans cur⟩
    · exact .inl (.inl (hit.cur_other same ▸ cur))
  · rcases hit.before y j _ noted with ⟨-, old⟩ | ⟨same, -, old | ⟨-, now⟩⟩
    · exact .inl (.inr (.inl ⟨y, old⟩))
    · subst same
      exact .inl (.inr (.inl ⟨x, old⟩))
    · subst same
      exact .inl (.inl now.symm)
  · exact .inl (.inr (.inr ⟨σ, hit.snaps ▸ mem, snap⟩))

omit [DecidableEq I] in
/-- What is recorded for the changed object was current or recorded. -/
theorem held_before (noted : p.before x i = some v ∨ (p.before x i = none ∧ v = p.cur i))
    (some_ : v = some g) : p.HeldAt i g := by
  subst some_
  rcases noted with old | ⟨-, now⟩
  · exact .inr (.inl ⟨x, old⟩)
  · exact .inl now.symm

theorem sole (hit : Touched p p' x i new) (sole : p.Sole g)
    (free : ∀ h, new = some h → h.live → h.store ≠ g.store) : p'.Sole g := by
  intro j h held live same
  rcases hit.heldAt held with held | ⟨-, made⟩
  · exact sole j h held live same
  · exact absurd same (free h made live)

/-- A generation at another object stays the only one of its store. -/
theorem sole_other (hit : Touched p p' x i new) (inv : p.Inv n) (admits : p.Admits x i new)
    (ne : j ≠ i) (held : p.HeldAt j g) (sole : p.Sole g) : p'.Sole g :=
  hit.sole sole fun _ made _ same => ne (admits.store_at inv made held same.symm).1

/-- A held live generation after the change is one that was held before, or has its store. -/
theorem live_cases (hit : Touched p p' x i new) (admits : p.Admits x i new)
    (held : p'.HeldAt j g) (live : g.live) :
    p.HeldAt j g ∨ (∃ h, p.cur i = some h ∧ h.live ∧ h.store = g.store) ∨ p.Free x g.store := by
  rcases hit.heldAt held with held | ⟨-, made⟩
  · exact .inl held
  rcases admits.origin g made with ⟨h, now, store, lives⟩ | ⟨free, -⟩
  · exact .inr (.inl ⟨h, now, lives live, store⟩)
  · exact .inr (.inr free)

end Touched

/-- A change that meets the condition keeps the invariant. -/
theorem Inv.touch {m : Nat} (inv : p.Inv n) (admits : p.Admits x i new)
    (touched : Touched p p' x i new) (le : n ≤ m)
    (identity : ∀ h, new = some h → n ≤ h.ref ∧ h.ref < m) : p'.Inv m where
  owner a b g h heldG heldH same := by
    rcases touched.heldAt heldG with heldG | ⟨rfl, madeG⟩ <;>
      rcases touched.heldAt heldH with heldH | ⟨rfl, madeH⟩
    · exact inv.owner a b g h heldG heldH same
    · exact (admits.store_at inv madeH heldG same).1
    · exact (admits.store_at inv madeG heldH same.symm).1.symm
    · rfl
  refs a b g h heldG heldH same := by
    rcases touched.heldAt heldG with heldG | ⟨rfl, madeG⟩ <;>
      rcases touched.heldAt heldH with heldH | ⟨rfl, madeH⟩
    · exact inv.refs a b g h heldG heldH same
    · have := inv.bounded a g heldG
      have := identity h madeH
      omega
    · have := inv.bounded b h heldH
      have := identity g madeG
      omega
    · exact Option.some.inj (madeG.symm.trans madeH)
  bounded a g held := by
    rcases touched.heldAt held with held | ⟨-, made⟩
    · exact lt_of_lt_of_le (inv.bounded a g held) le
    · exact (identity g made).2
  one y z a v w first second := by
    rcases touched.before y a v first with ⟨ne, first⟩ | ⟨same, same_y, -⟩ <;>
      rcases touched.before z a w second with ⟨ne', second⟩ | ⟨same', same_z, -⟩
    · exact inv.one y z a v w first second
    · exact absurd same' ne
    · exact absurd same ne'
    · exact same_y.trans same_z.symm
  changed y a g recorded := by
    rcases touched.before y a _ recorded with ⟨ne, old⟩ | ⟨rfl, rfl, recorded⟩
    · rw [touched.cur_other ne]
      exact inv.changed y a g old
    rw [touched.cur_same]
    intro made
    have := inv.bounded a g (Touched.held_before recorded rfl)
    have := identity g made
    omega
  alive y a g h recorded current same live := by
    rcases touched.before y a _ recorded with ⟨ne, old⟩ | ⟨rfl, rfl, recorded⟩
    · rw [touched.cur_other ne] at current
      exact inv.alive y a g h old current same live
    rw [touched.cur_same] at current
    have held := Touched.held_before recorded rfl
    obtain ⟨-, k, now, store, lives⟩ := admits.store_at inv current held same.symm
    rcases recorded with old | ⟨-, now'⟩
    · exact inv.alive y a g k old now (store.trans same) (lives live)
    rw [now] at now'
    cases now'
    exact lives live
  made y a v g recorded current moved := by
    rcases touched.before y a _ recorded with ⟨ne, old⟩ | ⟨rfl, rfl, recorded⟩
    · rw [touched.cur_other ne] at current
      exact touched.sole_other inv admits ne (.inl current) (inv.made y a v g old current moved)
    rw [touched.cur_same] at current
    have free := (admits.moved_free recorded current moved).1
    intro b h held live same
    rcases touched.heldAt held with held | ⟨-, made⟩
    · exact absurd same (free.unheld b h held)
    rw [made] at current
    cases current
    rfl
  replaced y a g recorded gone := by
    rcases touched.before y a _ recorded with ⟨ne, old⟩ | ⟨rfl, rfl, recorded⟩
    · rw [touched.cur_other ne] at gone
      exact touched.sole_other inv admits ne (.inr (.inl ⟨y, old⟩)) (inv.replaced y a g old gone)
    rw [touched.cur_same] at gone
    have away : ∀ h, new = some h → h.live → h.store ≠ g.store := fun h made live same =>
      gone ⟨h, made, live, same⟩
    refine touched.sole ?_ away
    rcases recorded with old | ⟨-, now⟩
    · by_cases kept : Kept (p.cur a) g
      · obtain ⟨k, current, live, same⟩ := kept
        rcases admits.replaces k current with ⟨h, made, live', same'⟩ | ⟨sole, -⟩
        · exact absurd (same'.trans same) (away h made live')
        have lives := inv.alive y a g k old current same live
        have eq := sole a g (.inr (.inl ⟨y, old⟩)) lives same.symm
        intro b h held live' same'
        exact (sole b h held live' (same'.trans same.symm)).trans eq.symm
      · exact inv.replaced y a g old kept
    · rcases admits.replaces g now.symm with ⟨h, made, live, same⟩ | ⟨sole, -⟩
      · exact absurd same (away h made live)
      · exact sole
  covered R mem a g held live listed := by
    rw [touched.retired] at mem
    rcases touched.live_cases admits held live with held | ⟨h, current, live', same⟩ | free
    · exact inv.covered R mem a g held live listed
    · exact absurd (same ▸ listed) (inv.current R mem i h current live')
    · exact absurd listed (free.retired R mem)
  current R mem a g current live := by
    rw [touched.retired] at mem
    by_cases same : a = i
    · subst same
      rw [touched.cur_same] at current
      rcases admits.origin g current with ⟨h, now, store, lives⟩ | ⟨free, -⟩
      · exact store ▸ inv.current R mem a h now (lives live)
      · exact free.retired R mem
    · rw [touched.cur_other same] at current
      exact inv.current R mem a g current live
  restorable R mem y a g recorded live := by
    rw [touched.retired] at mem
    rcases touched.before y a _ recorded with ⟨-, old⟩ | ⟨rfl, rfl, old | ⟨-, now⟩⟩
    · exact inv.restorable R mem y a g old live
    · exact inv.restorable R mem y a g old live
    · exact inv.current R mem a g now.symm live
  unpub y s mem := by
    rw [touched.unpub] at mem
    rcases inv.unpub y s mem with unheld | ⟨a, v, g, recorded, current, live, store, moved⟩
    · by_cases here : ∃ h, new = some h ∧ h.store = s
      · obtain ⟨h, made, rfl⟩ := here
        rcases admits.origin h made with ⟨g, current, store, -⟩ | ⟨free, live⟩
        · exact absurd store (unheld i g (.inl current))
        have same : y = x := by
          by_contra ne
          exact free.unpub y ne mem
        subst same
        obtain ⟨v, recorded⟩ := touched.recorded ⟨_, mem⟩
        refine .inr ⟨i, v, h, recorded, touched.cur_same.trans made, live, rfl, fun k eq => ?_⟩
        rcases touched.before y i v recorded with ⟨ne, -⟩ | ⟨-, -, recorded⟩
        · exact absurd rfl ne
        · exact free.unheld i k (Touched.held_before recorded eq)
      · refine .inl fun b g held same => ?_
        rcases touched.heldAt held with held | ⟨-, made⟩
        · exact unheld b g held same
        · exact here ⟨g, made, same⟩
    · have ne : a ≠ i := by
        rintro rfl
        have same : y = x := by
          by_contra ne
          rw [admits.others y ne] at recorded
          cases recorded
        subst same
        rcases admits.replaces g current with ⟨h, made, -, same⟩ | ⟨-, unlisted⟩
        · exact admits.made v g recorded current moved h made same
        · exact unlisted y (store ▸ mem)
      exact .inr ⟨a, v, g, touched.kept y a v recorded, (touched.cur_other ne).trans current, live,
        store, moved⟩
  unpub_one y z s first second := by
    rw [touched.unpub] at first second
    exact inv.unpub_one y z s first second
  retired_unpub R mem s listed y := by
    rw [touched.retired] at mem
    rw [touched.unpub]
    exact inv.retired_unpub R mem s listed y
  doomed_unpub s mem y := by
    rw [touched.doomed] at mem
    rw [touched.unpub]
    exact inv.doomed_unpub s mem y
  doomed s mem a g held live := by
    rw [touched.doomed] at mem
    rcases touched.live_cases admits held live with held | ⟨h, current, live', same⟩ | free
    · exact inv.doomed s mem a g held live
    · exact same ▸ inv.doomed s mem i h (.inl current) live'
    · rintro rfl
      exact free.doomed mem

/-! ### The end of a transaction -/

omit [DecidableEq I]

/-- What the two ends of `x` have in common: the objects of other transactions stay, and what is
retired is the only generation of its store, at an object that `x` had changed. -/
structure Ended (p p' : Pool I S) (x : Nat) : Prop where
  held : ∀ i g, p'.HeldAt i g → p.HeldAt i g
  cur : ∀ y i v, y ≠ x → p.before y i = some v → p'.cur i = p.cur i
  before : ∀ y i v, p'.before y i = some v ↔ y ≠ x ∧ p.before y i = some v
  unpub : ∀ y, ∀ s ∈ p'.unpub y, y ≠ x ∧ s ∈ p.unpub y
  retired : ∀ R ∈ p'.retired, R ∈ p.retired ∨ ∀ s ∈ R.stores, ∃ i v g, p.before x i = some v ∧
    p.HeldAt i g ∧ p.Sole g ∧ g.store = s ∧ g.ref ∈ R.refs
  current : ∀ R ∈ p'.retired, ∀ i g, p'.cur i = some g → g.live → g.store ∉ R.stores
  doomed : ∀ s ∈ p'.doomed, s ∈ p.doomed ∨
    s ∈ p.unpub x ∧ ∀ i g, p.HeldAt i g → g.live → g.store ≠ s

theorem Sole.anti (sole : p.Sole g) (held : ∀ i h, p'.HeldAt i h → p.HeldAt i h) : p'.Sole g :=
  fun i h here live same => sole i h (held i h here) live same

theorem Inv.ended (inv : p.Inv n) (ended : Ended p p' x) : p'.Inv n where
  owner a b g h heldG heldH := inv.owner a b g h (ended.held a g heldG) (ended.held b h heldH)
  refs a b g h heldG heldH := inv.refs a b g h (ended.held a g heldG) (ended.held b h heldH)
  bounded a g held := inv.bounded a g (ended.held a g held)
  one y z a v w first second :=
    inv.one y z a v w ((ended.before y a v).mp first).2 ((ended.before z a w).mp second).2
  changed y a g recorded := by
    obtain ⟨ne, recorded⟩ := (ended.before y a _).mp recorded
    rw [ended.cur y a _ ne recorded]
    exact inv.changed y a g recorded
  alive y a g h recorded current := by
    obtain ⟨ne, recorded⟩ := (ended.before y a _).mp recorded
    rw [ended.cur y a _ ne recorded] at current
    exact inv.alive y a g h recorded current
  made y a v g recorded current moved := by
    obtain ⟨ne, recorded⟩ := (ended.before y a _).mp recorded
    rw [ended.cur y a _ ne recorded] at current
    exact (inv.made y a v g recorded current moved).anti ended.held
  replaced y a g recorded gone := by
    obtain ⟨ne, recorded⟩ := (ended.before y a _).mp recorded
    rw [ended.cur y a _ ne recorded] at gone
    exact (inv.replaced y a g recorded gone).anti ended.held
  covered R mem a g held live listed := by
    rcases ended.retired R mem with old | new
    · exact inv.covered R old a g (ended.held a g held) live listed
    obtain ⟨i, v, k, -, -, sole, store, ref⟩ := new _ listed
    rw [sole a g (ended.held a g held) live store.symm]
    exact ref
  current := ended.current
  restorable R mem y a g recorded live listed := by
    obtain ⟨ne, recorded⟩ := (ended.before y a _).mp recorded
    rcases ended.retired R mem with old | new
    · exact inv.restorable R old y a g recorded live listed
    obtain ⟨i, v, k, own, held, -, store, -⟩ := new _ listed
    obtain rfl := inv.owner a i g k (.inr (.inl ⟨y, recorded⟩)) held store.symm
    exact ne (inv.one y x a _ v recorded own)
  unpub y s mem := by
    obtain ⟨ne, mem⟩ := ended.unpub y s mem
    rcases inv.unpub y s mem with unheld | ⟨a, v, g, recorded, current, rest⟩
    · exact .inl fun i g held => unheld i g (ended.held i g held)
    · exact .inr ⟨a, v, g, (ended.before y a v).mpr ⟨ne, recorded⟩,
        (ended.cur y a v ne recorded).trans current, rest⟩
  unpub_one y z s first second :=
    inv.unpub_one y z s (ended.unpub y s first).2 (ended.unpub z s second).2
  retired_unpub R mem s listed y listed' := by
    obtain ⟨ne, listed'⟩ := ended.unpub y s listed'
    rcases ended.retired R mem with old | new
    · exact inv.retired_unpub R old s listed y listed'
    obtain ⟨i, v, k, own, held, -, rfl, -⟩ := new s listed
    rcases inv.unpub y _ listed' with unheld | ⟨a, w, g, recorded, current, -, store, -⟩
    · exact unheld i k held rfl
    · obtain rfl := inv.owner a i g k (.inl current) held store
      exact ne (inv.one y x a w v recorded own)
  doomed_unpub s mem y listed := by
    obtain ⟨ne, listed⟩ := ended.unpub y s listed
    rcases ended.doomed s mem with old | ⟨own, -⟩
    · exact inv.doomed_unpub s old y listed
    · exact ne (inv.unpub_one y x s listed own)
  doomed s mem a g held live := by
    rcases ended.doomed s mem with old | ⟨-, unheld⟩
    · exact inv.doomed s old a g (ended.held a g held) live
    · exact unheld a g (ended.held a g held) live

/-- `x` is undone: the current generations that are on other stores than what is put back are
retired, and of the unpublished stores those are doomed that are not retired. -/
structure Undone (p p' : Pool I S) (x : Nat) : Prop where
  cur : ∀ i, p'.cur i = (p.before x i).getD (p.cur i)
  before : ∀ y i v, p'.before y i = some v ↔ y ≠ x ∧ p.before y i = some v
  unpub : ∀ y, ∀ s ∈ p'.unpub y, y ≠ x ∧ s ∈ p.unpub y
  retired : ∀ R ∈ p'.retired, R ∈ p.retired ∨ ∀ s ∈ R.stores, ∃ i v g, p.before x i = some v ∧
    p.cur i = some g ∧ Moved v g ∧ g.store = s ∧ g.ref ∈ R.refs
  doomed : ∀ s ∈ p'.doomed, s ∈ p.doomed ∨ (s ∈ p.unpub x ∧
    ∀ i v g, p.before x i = some v → p.cur i = some g → Moved v g → g.store ≠ s)
  snaps : p'.snaps ⊆ p.snaps

theorem Undone.heldAt (undone : Undone p p' x) (held : p'.HeldAt i g) : p.HeldAt i g := by
  rcases held with now | ⟨y, noted⟩ | ⟨σ, mem, snap⟩
  · rw [undone.cur] at now
    cases noted : p.before x i with
    | none =>
      rw [noted] at now
      exact .inl now
    | some v =>
      rw [noted] at now
      cases now
      exact .inr (.inl ⟨x, noted⟩)
  · exact .inr (.inl ⟨y, ((undone.before y i _).mp noted).2⟩)
  · exact .inr (.inr ⟨σ, undone.snaps mem, snap⟩)

/-- An object of another transaction is not put back. -/
theorem Undone.cur_other (undone : Undone p p' x) (inv : p.Inv n) (ne : y ≠ x)
    (noted : p.before y i = some v) : p'.cur i = p.cur i := by
  have fresh : p.before x i = none := by
    cases own : p.before x i with
    | none => rfl
    | some w => exact absurd (inv.one y x i v w noted own) ne
  rw [undone.cur, fresh]
  rfl

theorem Inv.undo (inv : p.Inv n) (undone : Undone p p' x) : p'.Inv n := inv.ended {
    held := fun _ _ => undone.heldAt
    cur := fun _ _ _ ne noted => undone.cur_other inv ne noted
    before := undone.before
    unpub := undone.unpub
    retired := fun R mem => (undone.retired R mem).imp_right fun new s listed => by
      obtain ⟨i, v, g, noted, current, moved, store, ref⟩ := new s listed
      exact ⟨i, v, g, noted, .inl current, inv.made x i v g noted current moved, store, ref⟩
    current := fun R mem a g current live listed => by
      have held := undone.heldAt (.inl current)
      rw [undone.cur] at current
      rcases undone.retired R mem with old | new
      · cases noted : p.before x a with
        | none =>
          rw [noted] at current
          exact inv.current R old a g current live listed
        | some v =>
          rw [noted] at current
          cases current
          exact inv.restorable R old x a g noted live listed
      obtain ⟨i, v, k, noted, now, moved, store, -⟩ := new _ listed
      obtain rfl := inv.owner a i g k held (.inl now) store.symm
      rw [noted] at current
      exact moved g current store.symm
    doomed := fun s mem => (undone.doomed s mem).imp_right fun ⟨own, unmoved⟩ => by
      refine ⟨own, fun a g held _ => ?_⟩
      rcases inv.unpub x s own with unheld | ⟨i, v, k, noted, current, -, store, moved⟩
      · exact unheld a g held
      · exact absurd store (unmoved i v k noted current moved) }

/-- `x` is committed: the generations that it replaced are retired, unless their stores are
still in use. -/
structure Committed (p p' : Pool I S) (x : Nat) : Prop where
  cur : p'.cur = p.cur
  before : ∀ y i v, p'.before y i = some v ↔ y ≠ x ∧ p.before y i = some v
  unpub : ∀ y, ∀ s ∈ p'.unpub y, y ≠ x ∧ s ∈ p.unpub y
  retired : ∀ R ∈ p'.retired, R ∈ p.retired ∨ ∀ s ∈ R.stores, ∃ i g,
    p.before x i = some (some g) ∧ ¬Kept (p.cur i) g ∧ g.store = s ∧ g.ref ∈ R.refs
  doomed : p'.doomed ⊆ p.doomed
  snaps : p'.snaps ⊆ p.snaps

theorem Committed.heldAt (comm : Committed p p' x) (held : p'.HeldAt i g) : p.HeldAt i g := by
  rcases held with now | ⟨y, noted⟩ | ⟨σ, mem, snap⟩
  · exact .inl (comm.cur ▸ now)
  · exact .inr (.inl ⟨y, ((comm.before y i _).mp noted).2⟩)
  · exact .inr (.inr ⟨σ, comm.snaps mem, snap⟩)

theorem Inv.commit (inv : p.Inv n) (comm : Committed p p' x) : p'.Inv n := inv.ended {
    held := fun _ _ => comm.heldAt
    cur := fun _ _ _ _ _ => by rw [comm.cur]
    before := comm.before
    unpub := comm.unpub
    retired := fun R mem => (comm.retired R mem).imp_right fun new s listed => by
      obtain ⟨i, g, noted, gone, store, ref⟩ := new s listed
      exact ⟨i, _, g, noted, .inr (.inl ⟨x, noted⟩), inv.replaced x i g noted gone, store, ref⟩
    current := fun R mem a g now live listed => by
      rw [comm.cur] at now
      rcases comm.retired R mem with old | new
      · exact inv.current R old a g now live listed
      obtain ⟨i, k, noted, gone, store, -⟩ := new _ listed
      obtain rfl := inv.owner a i g k (.inl now) (.inr (.inl ⟨x, noted⟩)) store.symm
      exact gone ⟨g, now, live, store.symm⟩
    doomed := fun s mem => .inl (comm.doomed mem) }

/-! ### Retiring and collecting -/

/-- A generation that has lost its place for good. -/
structure Gone (p : Pool I S) (g : Gen S) : Prop where
  sole : p.Sole g
  current : ∀ i h, p.cur i = some h → h.live → h.store ≠ g.store
  restorable : ∀ x i h, p.before x i = some (some h) → h.live → h.store ≠ g.store
  unpub : ∀ x, g.store ∉ p.unpub x

theorem Gone.touch [DecidableEq I] (gone : p.Gone g) (touched : Touched p p' x i new)
    (away : ∀ h, new = some h → h.live → h.store ≠ g.store) : p'.Gone g where
  sole := touched.sole gone.sole away
  current j h current live := by
    by_cases same : j = i
    · subst same
      exact away h (touched.cur_same.symm.trans current) live
    · rw [touched.cur_other same] at current
      exact gone.current j h current live
  restorable y j h recorded live := by
    rcases touched.before y j _ recorded with ⟨-, old⟩ | ⟨rfl, rfl, old | ⟨-, now⟩⟩
    · exact gone.restorable y j h old live
    · exact gone.restorable y j h old live
    · exact gone.current j h now.symm live
  unpub y := touched.unpub ▸ gone.unpub y

/-- A generation that is replaced has lost its place for good when the transaction, if any, had
changed its object before. -/
theorem Touched.gone [DecidableEq I] (hit : Touched p p' x i new) (inv : p.Inv n)
    (admits : p.Admits x i new) (current : p.cur i = some g)
    (away : ∀ h, new = some h → h.live → h.store ≠ g.store)
    (again : ∀ v, p'.before x i = some v → p.before x i = some v) : p'.Gone g := by
  obtain ⟨sole, unlisted⟩ : p.Sole g ∧ ∀ y, g.store ∉ p.unpub y := by
    rcases admits.replaces g current with ⟨h, made, live, same⟩ | alone
    · exact absurd same (away h made live)
    · exact alone
  refine ⟨hit.sole sole away, fun j h now live same => ?_, fun y j h noted live same => ?_,
    fun y => hit.unpub ▸ unlisted y⟩
  · by_cases eq : j = i
    · subst eq
      exact away h (hit.cur_same.symm.trans now) live same
    · rw [hit.cur_other eq] at now
      exact eq (inv.owner j i h g (.inl now) (.inl current) same)
  have old : p.before y j = some (some h) := by
    rcases hit.before y j _ noted with ⟨-, old⟩ | ⟨rfl, rfl, -⟩
    · exact old
    · exact again _ noted
  have held : p.HeldAt j h := .inr (.inl ⟨y, old⟩)
  obtain rfl := inv.owner j i h g held (.inl current) same
  obtain rfl := inv.refs j j h g held (.inl current) (sole j h held live same)
  exact inv.changed y j h old current

/-- The current generations and the records stay. Generations that have lost their place may be
retired, retired stores without held references may be doomed and doomed ones retired again, and
the current generations may be captured. -/
structure Settled (p p' : Pool I S) : Prop where
  cur : p'.cur = p.cur
  before : p'.before = p.before
  unpub : ∀ x, p'.unpub x ⊆ p.unpub x
  retired : ∀ R ∈ p'.retired, R ∈ p.retired ∨ ∀ s ∈ R.stores, s ∈ p.doomed ∨
    ∃ g, p.Gone g ∧ g.store = s ∧ g.ref ∈ R.refs
  doomed : ∀ s ∈ p'.doomed, s ∈ p.doomed ∨
    ∃ R ∈ p.retired, s ∈ R.stores ∧ ∀ i g, p.HeldAt i g → g.ref ∉ R.refs
  snaps : ∀ σ ∈ p'.snaps, σ ∈ p.snaps ∨ σ = p.cur

theorem Settled.heldAt (fixed : Settled p p') (held : p'.HeldAt i g) : p.HeldAt i g := by
  rcases held with now | ⟨y, noted⟩ | ⟨σ, mem, snap⟩
  · exact .inl (fixed.cur ▸ now)
  · exact .inr (.inl ⟨y, fixed.before ▸ noted⟩)
  rcases fixed.snaps σ mem with old | rfl
  · exact .inr (.inr ⟨σ, old, snap⟩)
  · exact .inl snap

/-- No live generation of a store that the step dooms is held. -/
theorem Settled.unheld (fixed : Settled p p') (inv : p.Inv n) (mem : s ∈ p'.doomed)
    (held : p.HeldAt i g) (live : g.live) : g.store ≠ s := by
  rcases fixed.doomed s mem with old | ⟨R, retired, listed, unreferenced⟩
  · exact inv.doomed s old i g held live
  · rintro rfl
    exact unreferenced i g held (inv.covered R retired i g held live listed)

theorem Inv.settle (inv : p.Inv n) (settled : Settled p p') : p'.Inv n where
  owner a b g h heldG heldH := inv.owner a b g h (settled.heldAt heldG) (settled.heldAt heldH)
  refs a b g h heldG heldH := inv.refs a b g h (settled.heldAt heldG) (settled.heldAt heldH)
  bounded a g held := inv.bounded a g (settled.heldAt held)
  one := settled.before ▸ inv.one
  changed := settled.cur ▸ settled.before ▸ inv.changed
  alive := settled.cur ▸ settled.before ▸ inv.alive
  made y a v g recorded current moved :=
    (inv.made y a v g (settled.before ▸ recorded) (settled.cur ▸ current) moved).anti
      fun _ _ => settled.heldAt
  replaced y a g recorded gone :=
    (inv.replaced y a g (settled.before ▸ recorded) (settled.cur ▸ gone)).anti
      fun _ _ => settled.heldAt
  covered R mem a g held live listed := by
    rcases settled.retired R mem with old | new
    · exact inv.covered R old a g (settled.heldAt held) live listed
    rcases new _ listed with doomed | ⟨k, gone, store, ref⟩
    · exact absurd rfl (inv.doomed _ doomed a g (settled.heldAt held) live)
    · rw [gone.sole a g (settled.heldAt held) live store.symm]
      exact ref
  current R mem a g current live listed := by
    rw [settled.cur] at current
    rcases settled.retired R mem with old | new
    · exact inv.current R old a g current live listed
    rcases new _ listed with doomed | ⟨k, gone, store, -⟩
    · exact inv.doomed _ doomed a g (.inl current) live rfl
    · exact gone.current a g current live store.symm
  restorable R mem y a g recorded live listed := by
    rw [settled.before] at recorded
    rcases settled.retired R mem with old | new
    · exact inv.restorable R old y a g recorded live listed
    rcases new _ listed with doomed | ⟨k, gone, store, -⟩
    · exact inv.doomed _ doomed a g (.inr (.inl ⟨y, recorded⟩)) live rfl
    · exact gone.restorable y a g recorded live store.symm
  unpub y s mem := by
    rcases inv.unpub y s (settled.unpub y mem) with unheld | made
    · exact .inl fun i g held => unheld i g (settled.heldAt held)
    · rw [settled.before, settled.cur]
      exact .inr made
  unpub_one y z s first second :=
    inv.unpub_one y z s (settled.unpub y first) (settled.unpub z second)
  retired_unpub R mem s listed y listed' := by
    rcases settled.retired R mem with old | new
    · exact inv.retired_unpub R old s listed y (settled.unpub y listed')
    rcases new s listed with doomed | ⟨k, gone, rfl, -⟩
    · exact inv.doomed_unpub s doomed y (settled.unpub y listed')
    · exact gone.unpub y (settled.unpub y listed')
  doomed_unpub s mem y listed := by
    rcases settled.doomed s mem with old | ⟨R, retired, listed', -⟩
    · exact inv.doomed_unpub s old y (settled.unpub y listed)
    · exact inv.retired_unpub R retired s listed' y (settled.unpub y listed)
  doomed s mem a g held live := settled.unheld inv mem (settled.heldAt held) live

/-- `x` starts to use free stores. -/
structure Prepared (p p' : Pool I S) (x : Nat) : Prop where
  cur : p'.cur = p.cur
  before : p'.before = p.before
  unpub : ∀ y, ∀ s ∈ p'.unpub y, s ∈ p.unpub y ∨ (y = x ∧ p.Free x s)
  retired : p'.retired ⊆ p.retired
  doomed : p'.doomed ⊆ p.doomed
  snaps : p'.snaps = p.snaps

theorem Prepared.heldAt (prep : Prepared p p' x) : p'.HeldAt = p.HeldAt := by
  funext i g
  unfold HeldAt
  rw [prep.cur, prep.before, prep.snaps]

theorem Prepared.sole (prep : Prepared p p' x) : p'.Sole = p.Sole := by
  funext g
  unfold Sole
  rw [prep.heldAt]

theorem Inv.prepare (inv : p.Inv n) (prepared : Prepared p p' x) : p'.Inv n where
  owner := prepared.heldAt ▸ inv.owner
  refs := prepared.heldAt ▸ inv.refs
  bounded := prepared.heldAt ▸ inv.bounded
  one := prepared.before ▸ inv.one
  changed := prepared.cur ▸ prepared.before ▸ inv.changed
  alive := prepared.cur ▸ prepared.before ▸ inv.alive
  made := prepared.sole ▸ prepared.cur ▸ prepared.before ▸ inv.made
  replaced := prepared.sole ▸ prepared.cur ▸ prepared.before ▸ inv.replaced
  covered R mem := prepared.heldAt ▸ inv.covered R (prepared.retired mem)
  current R mem := prepared.cur ▸ inv.current R (prepared.retired mem)
  restorable R mem := prepared.before ▸ inv.restorable R (prepared.retired mem)
  unpub y s mem := by
    rw [prepared.heldAt, prepared.cur, prepared.before]
    rcases prepared.unpub y s mem with old | ⟨-, free⟩
    · exact inv.unpub y s old
    · exact .inl free.unheld
  unpub_one y z s first second := by
    rcases prepared.unpub y s first with first | ⟨rfl, free⟩ <;>
      rcases prepared.unpub z s second with second | ⟨rfl, free'⟩
    · exact inv.unpub_one y z s first second
    · by_contra ne
      exact free'.unpub y ne first
    · by_contra ne
      exact free.unpub z (Ne.symm ne) second
    · rfl
  retired_unpub R mem s listed y listed' := by
    rcases prepared.unpub y s listed' with old | ⟨-, free⟩
    · exact inv.retired_unpub R (prepared.retired mem) s listed y old
    · exact free.retired R (prepared.retired mem) listed
  doomed_unpub s mem y listed := by
    rcases prepared.unpub y s listed with old | ⟨-, free⟩
    · exact inv.doomed_unpub s (prepared.doomed mem) y old
    · exact free.doomed (prepared.doomed mem)
  doomed s mem := prepared.heldAt ▸ inv.doomed s (prepared.doomed mem)

end Pool

end Saguaro.Reclaim
