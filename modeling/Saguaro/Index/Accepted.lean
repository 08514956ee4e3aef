/-
Whether an accepted entry can be inserted.

The size check of `insert` accepts entries of up to a page. Such entries need not split:
three of them, the heaviest in the middle, leave no cut with two halves that fit, and the
insert fails after the check (`entry_refused_by_split`). A leaf that removes have emptied
keeps its bytes, and a split of it has a single entry to cut, which panics.

With entries of at most a third of a page and no emptied leaf without room, every insert
into every tree that inserts and removes can build returns (`light_insert_succeeds`).
-/

import Saguaro.Index.Shape

namespace Saguaro.Index

open Outcome Transition List Function Shape Index.Tree Balance Bytes Node

variable {codec : KeyCodec} {e : Entry}

/-! ### Searching -/

theorem decodeKey_ok {key : codec.Key} {bytes : Bytes} (enc : codec.encodeKey key = .ok bytes) :
    decodeKey codec bytes = .ok key := by
  have prefix_ := codec.decodeKeyPrefix_encodeKey [] enc
  rw [append_nil] at prefix_
  simp [decodeKey, prefix_, Result.failIf]

theorem entryCmp_leaf (h : LeafEntry codec e) (probe : Probe codec) :
    ∃ order, entryCmp codec true e probe = .ok order := by
  obtain ⟨key, enc, -, -⟩ := h
  simp only [entryCmp, leafKeyValue, decodeKey_ok enc, if_true, ok_bind]
  exact ⟨_, rfl⟩

theorem entryCmp_internal (h : Separator codec e.key) (probe : Probe codec) :
    ∃ order, entryCmp codec false e probe = .ok order := by
  obtain ⟨⟨key, bytes, rest, enc, eq⟩, -⟩ := h
  simp only [entryCmp, internalKeyValue, eq, codec.decodeKeyPrefix_encodeKey rest enc, ok_bind]
  exact ⟨_, rfl⟩

theorem boundLoop_ok {node : Node} {isLeaf : Bool} {probe : Probe codec} {strict : Bool}
    (comparable : ∀ e ∈ node.entries, ∃ order, entryCmp codec isLeaf e probe = .ok order)
    (width lo hi : Nat) (lohi : lo ≤ hi) (inside : hi ≤ node.entryCount) :
    ∃ pos, boundLoop codec node isLeaf probe strict width lo hi = .ok pos ∧
      pos ≤ node.entryCount := by
  induction width generalizing lo hi with
  | zero => exact ⟨lo, rfl, lohi.trans inside⟩
  | succ width ih =>
    unfold boundLoop
    split
    · have lt : lo + (hi - lo) / 2 < node.entries.length := by
        unfold entryCount at inside
        omega
      obtain ⟨order, compared⟩ := comparable _ (getElem_mem lt)
      simp only [getElem?_eq_getElem lt, compared, lift_ok, ok_bind]
      split
      · exact ih _ hi (by omega) inside
      · exact ih lo _ (by omega) (by omega)
    · exact ⟨lo, rfl, lohi.trans inside⟩

theorem bound_ok {node : Node} {isLeaf : Bool} {probe : Probe codec} (strict : Bool)
    (comparable : ∀ e ∈ node.entries, ∃ order, entryCmp codec isLeaf e probe = .ok order) :
    ∃ pos, bound codec node isLeaf probe strict = .ok pos ∧ pos ≤ node.entryCount :=
  boundLoop_ok comparable _ 0 _ (Nat.zero_le _) le_rfl

section Specs

variable {t : Tree} {level rank : PageNum → Nat} {span : Nat} {page : PageNum} {node : Node}
  {r : Tree × InsertOutcome}

variable {present : PageNum → Prop}

theorem InternalAt.childFor_ok
    (h : InternalAt codec present level rank page node) (probe : Probe codec) :
    ∃ child, childFor codec node probe = .ok child ∧ present child ∧
      Below level rank child page := by
  obtain ⟨pos, searched, le⟩ := bound_ok true fun e mem => entryCmp_internal (h.entries e mem) probe
  simp only [childFor, upperBound, searched, ok_bind]
  split
  · exact ⟨node.link, rfl, h.link⟩
  have lt : pos - 1 < node.entries.length := by
    unfold entryCount at le
    omega
  obtain ⟨child, value, below⟩ := h.children _ (getElem_mem lt)
  simp only [getElem?_eq_getElem lt, value]
  exact ⟨child, rfl, below⟩

/-! ### Placing an entry -/

/-- What `insert_rec` leaves behind in the subtree of `top`. -/
def Grown (codec : KeyCodec) (t : Tree) (level rank : PageNum → Nat) (top : PageNum)
    (result : Tree × InsertOutcome) : Prop :=
  ∃ level' rank' span', Shape codec result.1 level' rank' span' ∧
    Keeps t.Present level rank result.1.Present level' rank' ∧ result.1.root = t.root ∧
    ∀ sep right, result.2 = .split sep right → Separator codec sep ∧ result.1.Present right ∧
      level' right = level' top ∧ rank' right < rank' top

section

variable (h : Shape codec t level rank span)

include h

theorem grown_of_write (here : t.Present page) (at_ : NodeAt codec t.Present level rank page node) :
    Grown codec t level rank page (t.write page node, .inserted) :=
  ⟨level, rank, span, h.write here at_,
    ⟨fun _ there => present_write.mpr (.inr there), fun _ _ => rfl, fun _ _ _ _ lt => lt⟩,
    rfl, nofun⟩

/-- The levels when a new page comes beside `page`. -/
def levelBeside (level : PageNum → Nat) (page new : PageNum) : PageNum → Nat :=
  update level new (level page)

/-- The ranks when a new page comes right after `page`. -/
def rankBeside (rank : PageNum → Nat) (page new : PageNum) : PageNum → Nat :=
  update (fun p => 2 * rank p + 1) new (2 * rank page)

theorem keeps_beside (page : PageNum) :
    Keeps t.Present level rank (fun p => p = t.nextPage ∨ t.Present p)
      (levelBeside level page t.nextPage) (rankBeside rank page t.nextPage) where
  there _ there := .inr there
  levels _ there := update_of_ne (h.old there) _ _
  order p q hp hq lt := by
    rw [rankBeside, update_of_ne (h.old hp), update_of_ne (h.old hq)]
    omega

/-- What may follow `page` may follow the new page. -/
theorem beside_lt {q : PageNum} (there : t.Present q) (lt : rank q < rank page) :
    rankBeside rank page t.nextPage q < rankBeside rank page t.nextPage t.nextPage := by
  rw [rankBeside, update_self, update_of_ne (h.old there)]
  omega

theorem new_lt (there : t.Present page) :
    rankBeside rank page t.nextPage t.nextPage < rankBeside rank page t.nextPage page := by
  rw [rankBeside, update_self, update_of_ne (h.old there)]
  omega

theorem below_beside {child : PageNum}
    (there : t.Present child) (below : Below level rank child page) :
    Below (levelBeside level page t.nextPage) (rankBeside rank page t.nextPage) child
      t.nextPage := by
  have same : levelBeside level page t.nextPage child = level child :=
    (keeps_beside h page).levels child there
  rw [Below, same, levelBeside, update_self]
  exact below.imp_right fun at_ => ⟨at_.1, beside_lt h there at_.2⟩

/-- A split: a new page comes right after `page`, which is written anew. -/
theorem grown_of_split (there : t.Present page)
    {left right : Node} {sep : Bytes} (good : Separator codec sep)
    (new : NodeAt codec (fun p => p = t.nextPage ∨ t.Present p)
      (levelBeside level page t.nextPage) (rankBeside rank page t.nextPage) t.nextPage right)
    (kept : NodeAt codec (fun p => p = t.nextPage ∨ t.Present p)
      (levelBeside level page t.nextPage) (rankBeside rank page t.nextPage) page left) :
    Grown codec t level rank page
      ((t.newPage.2.write t.nextPage right).write page left, .split sep t.nextPage) := by
  have present : (fun p => p = t.nextPage ∨ t.Present p) =
      (t.newPage.2.write t.nextPage right).Present := funext fun p => propext (present_write).symm
  have k := keeps_beside h page
  rw [present] at new kept k
  have spans : ∀ p, rankBeside rank page t.nextPage p < 2 * span + 1 := by
    intro p
    have top := h.span page
    have own := h.span p
    by_cases same : p = t.nextPage
    · rw [same, rankBeside, update_self]
      omega
    · rw [rankBeside, update_of_ne same]
      omega
  have last : ∀ q, (t.newPage.2.write t.nextPage right).Present q →
      ((t.newPage.2.write t.nextPage right).write page left).Present q :=
    fun q was => present_write.mpr (.inr was)
  refine ⟨_, _, _, (h.alloc spans k new).write (k.there page there) kept,
    ⟨fun p was => last p (k.there p was), k.levels, k.order⟩, rfl, ?_⟩
  rintro sep right ⟨⟩
  refine ⟨good, last _ (present_write.mpr (.inl rfl)), ?_, new_lt h there⟩
  rw [k.levels page there, levelBeside, update_self]

theorem splitLeaf_ok (here : t.pages page = some node)
    (isLeaf : node.isLeaf = true) {ents : List Entry} {mid : Nat}
    (made : ∀ e ∈ ents, LeafEntry codec e) (lt : mid < ents.length)
    (left : Fits (ents.take mid)) (right : Fits (ents.drop mid)) :
    ∃ result, splitLeaf t page node ents mid = .ok result ∧
      Grown codec t level rank page result := by
  have at_ := (h.nodes page node here).1 isLeaf
  have there := present_of_some here
  have k := keeps_beside h page
  obtain ⟨r, rDone, rRoomy, -, rHeld, rLeaf, -⟩ := appendEntries_init true 0 right
  obtain ⟨l, lDone, lRoomy, -, lHeld, lLeaf, -⟩ := appendEntries_init true 0 left
  have new : levelBeside level page t.nextPage t.nextPage = 0 := by
    rw [levelBeside, update_self, at_.bottom]
  refine ⟨((t.newPage.2.write t.nextPage (r.setLink node.link)).write page (l.setLink t.nextPage),
      .split (leafSeparator ents[mid]) t.nextPage), ?_,
    grown_of_split h there (made _ (getElem_mem lt)).separator
      (LeafAt.nodeAt ⟨new, ⟨rRoomy.bytes, rRoomy.slots⟩,
        fun e mem => made e (mem_of_mem_drop (rHeld ▸ mem)), fun linked => ?_⟩ rLeaf)
      (LeafAt.nodeAt ⟨(k.levels page there).trans at_.bottom, ⟨lRoomy.bytes, lRoomy.slots⟩,
        fun e mem => made e (mem_of_mem_take (lHeld ▸ mem)), fun _ => ⟨.inl rfl, new, ?_⟩⟩ lLeaf)⟩
  · have same : (init true).setLink 0 = init true := rfl
    rw [same] at rDone lDone
    simp only [splitLeaf, Tree.newPage, rDone, lDone, lift_ok, ok_bind, getElem?_eq_getElem lt]
    rfl
  · obtain ⟨next, low, less⟩ := at_.next linked
    exact ⟨.inr next, (k.levels _ next).trans low, beside_lt h next less⟩
  · exact new_lt h there

theorem splitInternal_ok (here : t.pages page = some node)
    (at_ : InternalAt codec t.Present level rank page node) {ents : List Entry}
    {preferred mid : Nat} (seps : ∀ e ∈ ents, Separator codec e.key)
    (children : ∀ e ∈ ents, ∃ child, e.value = .child child ∧ t.Present child ∧
      Below level rank child page)
    (point : internalSplitPoint ents preferred = some mid) (lt : mid < ents.length)
    (left : Fits (ents.take (mid + 1))) (right : Fits (ents.drop (mid + 1))) :
    ∃ result, splitInternal t page node ents preferred = .ok result ∧
      Grown codec t level rank page result := by
  have there := present_of_some here
  have k := keeps_beside h page
  have pushed := getElem_mem lt
  obtain ⟨middle, value, middleThere, middleBelow⟩ := children _ pushed
  rw [take_add_one, getElem?_eq_getElem lt] at left
  have leftFits : Fits (ents.take mid) := by
    simp only [Fits, total_append] at left ⊢
    omega
  obtain ⟨r, rDone, rRoomy, rCompact, rHeld, rLeaf, rLink⟩ := appendEntries_init false middle right
  obtain ⟨l, lDone, lRoomy, lCompact, lHeld, lLeaf, lLink⟩ :=
    appendEntries_init false node.link leftFits
  -- The separator stays at the end of the left half and names the new page.
  have atEnd : mid ≤ l.entryCount := by
    rw [entryCount, lHeld, length_take_of_le lt.le]
  have room : l.hasSpace ents[mid].key.length (Payload.child t.nextPage).bytes.length = true := by
    rw [lRoomy.hasSpace_iff, lCompact.total_eq, lHeld]
    have all := fits_iff.mp left
    simp only [total_append, Option.toList_some, total_cons, Entry.storedLen,
      value, Payload.bytes, length_le] at all ⊢
    omega
  have leftDone : l.insertEntry mid ⟨ents[mid].key, .child t.nextPage⟩ = _ :=
    insertEntry_eq atEnd room
  have held : ∀ e, e ∈ l.entries.insertIdx mid ⟨ents[mid].key, .child t.nextPage⟩ →
      e = ⟨ents[mid].key, .child t.nextPage⟩ ∨ e ∈ ents := by
    intro e mem
    rw [mem_insertIdx atEnd, lHeld] at mem
    exact mem.imp_right mem_of_mem_take
  have high := at_.high
  refine ⟨((t.newPage.2.write t.nextPage r).write page _, .split ents[mid].key t.nextPage), ?_,
    grown_of_split h there (seps _ pushed)
      (InternalAt.nodeAt ⟨?_, rRoomy, rCompact, fun e mem => ?_, ?_, fun e mem => ?_⟩ rLeaf)
      (InternalAt.nodeAt ⟨?_, lRoomy.insert (e := ⟨ents[mid].key, .child t.nextPage⟩) atEnd room,
        lCompact.insert atEnd, fun e mem => ?_, ?_, fun e mem => ?_⟩ lLeaf)⟩
  · simp only [splitInternal, point, getElem?_eq_getElem lt, value, decodeChild, Tree.newPage,
      rDone, lDone, leftDone, lift_ok, ok_bind]
    rfl
  · rw [levelBeside, update_self]
    exact high
  · exact seps e (mem_of_mem_drop (rHeld ▸ mem))
  · rw [rLink]
    exact ⟨.inr middleThere, below_beside h middleThere middleBelow⟩
  · obtain ⟨child, is, was, below⟩ := children e (mem_of_mem_drop (rHeld ▸ mem))
    exact ⟨child, is, .inr was, below_beside h was below⟩
  · rw [k.levels page there]
    exact high
  · rcases held e mem with rfl | old
    · exact seps ents[mid] pushed
    · exact seps e old
  · rw [lLink]
    exact ⟨.inr at_.link.1, k.below at_.link.1 there at_.link.2⟩
  rcases held e mem with rfl | old
  · refine ⟨_, rfl, .inl rfl, .inr ⟨?_, new_lt h there⟩⟩
    rw [k.levels page there, levelBeside, update_self]
  · obtain ⟨child, is, was, below⟩ := children e old
    exact ⟨child, is, .inr was, k.below was there below⟩

end

/-- The leaf, from `page` to the right, that `insert_rec` puts an entry in. -/
def landLeaf (codec : KeyCodec) (t : Tree) (probe : Probe codec) : Nat → PageNum → Outcome PageNum
  | 0, _ => .error .fuel
  | fuel + 1, page => do
      let node ← t.read page
      let pos ← lowerBound codec node true probe
      let right ← (if pos = node.entryCount ∧ node.link ≠ 0 then
          rightLeafForProbe codec t probe fuel node.link
        else .ok none : Outcome (Option PageNum))
      match right with
      | some next => landLeaf codec t probe fuel next
      | none => return page

/-- The leaf below `page` that `insert_rec` puts an entry in. -/
def landing (codec : KeyCodec) (t : Tree) (probe : Probe codec) : Nat → PageNum → Outcome PageNum
  | 0, _ => .error .fuel
  | fuel + 1, page => do
      let node ← t.read page
      if node.isLeaf then landLeaf codec t probe fuel page
      else
        let child ← childFor codec node probe
        landing codec t probe fuel child

/-- The leaf that an insert of the key comes to. -/
def Lands (codec : KeyCodec) (t : Tree) (key : codec.Key) (loc : RowLocation) (page : PageNum) :
    Prop := ∃ fuel, landing codec t ⟨key, some loc.encode⟩ fuel t.root = .ok page

/-- If the leaf that the entry comes to has no entries, it has room. -/
def Welcomes (codec : KeyCodec) (t : Tree) (key : codec.Key) (keyLen : Nat) (loc : RowLocation) :
    Prop := ∀ page node, Lands codec t key loc page → t.pages page = some node →
      node.entries = [] → node.hasSpace keyLen loc.encode.length = true

/-- The faults of an insert: a panic where the leaf it comes to is without entries and without
room, and a shortage of fuel. -/
def Refusal (t : Tree) (e : Entry) (reached : PageNum → Prop) (short : Prop) (f : Fault) : Prop :=
  (f = .panic ∧ ∃ page node, reached page ∧ t.pages page = some node ∧ node.entries = [] ∧
    node.hasSpace e.key.length e.value.bytes.length = false) ∨ f = .fuel ∧ short

theorem Refusal.mono {short short' : Prop} {reached reached' : PageNum → Prop}
    (comes : ∀ page, reached page → reached' page) (imp : short → short') {f : Fault}
    (h : Refusal t e reached short f) : Refusal t e reached' short' f := by
  rcases h with ⟨panic, page, node, there, rest⟩ | ⟨fuel, s⟩
  · exact .inl ⟨panic, page, node, comes page there, rest⟩
  · exact .inr ⟨fuel, imp s⟩

theorem place_leaf (h : Shape codec t level rank span) (here : t.pages page = some node)
    (isLeaf : node.isLeaf = true) {pos : Nat} (le : pos ≤ node.entryCount)
    (made : LeafEntry codec e) {reached : PageNum → Prop} (comes : reached page) (short : Prop) :
    Sat (Grown codec t level rank page) (Refusal t e reached short)
      (place t page node ⟨pos, e, true⟩) := by
  have at_ := (h.nodes page node here).1 isLeaf
  have all : ∀ x, x = e ∨ x ∈ node.entries → LeafEntry codec x := by
    rintro x (rfl | old)
    · exact made
    · exact at_.entries x old
  unfold place
  split
  · rename_i room
    refine .bind_ok (by rw [insertEntry_eq le room, lift_ok]) ?_
    exact grown_of_write h (present_of_some here) (LeafAt.nodeAt ⟨at_.bottom,
      at_.roomy.insert le room, fun x mem => all x ((mem_insertIdx le).mp mem), at_.next⟩
      isLeaf)
  rename_i full
  by_cases emptied : node.entries = []
  · -- The only entry is the new one, and there is no place to cut.
    have single : splitPoint (entriesWithInsertion node pos e) = .error .panic := by
      rw [splitPoint, clamp, if_pos]
      rw [length_entriesWithInsertion le, entryCount, emptied]
      exact one_pos
    rw [splitNode, single]
    exact .inl ⟨rfl, page, node, comes, here, emptied, Bool.eq_false_iff.mpr full⟩
  obtain ⟨mid, point, -, lt, left, right⟩ := split_fits at_.roomy emptied le
    (fun x mem => (at_.entries x mem).storedLen_le) made.storedLen_le
  refine .bind_ok point ?_
  obtain ⟨res, done, grown⟩ := splitLeaf_ok h here isLeaf
    (fun x mem => all x ((mem_entriesWithInsertion le).mp mem)) lt left right
  simpa only [if_true, done, sat_ok] using grown

variable {sep : Bytes}

theorem Separator.storedLen_le (h : Separator codec sep) (right : PageNum) :
    Entry.storedLen ⟨sep, .child right⟩ ≤ THIRD := by
  simpa [Entry.storedLen, Payload.bytes, CHILD_LEN] using h.2

theorem InternalAt.light (h : InternalAt codec present level rank page node) :
    ∀ x ∈ node.entries, x.storedLen ≤ THIRD := by
  intro x mem
  obtain ⟨child, value, -⟩ := h.children x mem
  simpa [Entry.storedLen, value, Payload.bytes, CHILD_LEN] using (h.entries x mem).2

/-- Nothing is removed from an internal node: one without entries has room. -/
theorem InternalAt.entries_ne_nil
    (h : InternalAt codec present level rank page node) (good : Separator codec sep)
    (full : node.hasSpace sep.length CHILD_LEN = false) : node.entries ≠ [] := by
  intro none
  rw [← Bool.not_eq_true, h.roomy.hasSpace_iff, h.compact.total_eq, none, total_nil] at full
  have small := good.2
  have third := third_le
  have room : BODY_START + CAPACITY = PAGE_SIZE := by decide
  omega

theorem place_internal (h : Shape codec t level rank span) (here : t.pages page = some node)
    (inner : node.isLeaf = false) {pos : Nat} (le : pos ≤ node.entryCount)
    {right : PageNum} (good : Separator codec sep) (there : t.Present right)
    (below : Below level rank right page) (bad : Fault → Prop) :
    Sat (Grown codec t level rank page) bad
      (place t page node ⟨pos, ⟨sep, .child right⟩, false⟩) := by
  have at_ := (h.nodes page node here).2 inner
  have seps : ∀ x, x = ⟨sep, .child right⟩ ∨ x ∈ node.entries → Separator codec x.key := by
    rintro x (rfl | old)
    · exact good
    · exact at_.entries x old
  have children : ∀ x, x = ⟨sep, .child right⟩ ∨ x ∈ node.entries → ∃ child,
      x.value = .child child ∧ t.Present child ∧ Below level rank child page := by
    rintro x (rfl | old)
    · exact ⟨right, rfl, there, below⟩
    · exact at_.children x old
  unfold place
  split
  · rename_i room
    refine .bind_ok (by rw [insertEntry_eq le room, lift_ok]) ?_
    exact grown_of_write h (present_of_some here) (InternalAt.nodeAt ⟨at_.high,
      at_.roomy.insert le room, at_.compact.insert le,
      fun x mem => seps x ((mem_insertIdx le).mp mem), at_.link,
      fun x mem => children x ((mem_insertIdx le).mp mem)⟩ inner)
  rename_i full
  obtain ⟨preferred, mid, point, found, lt, left, rest⟩ :=
    internal_split_fits at_.roomy (at_.entries_ne_nil good (by
      simpa [Payload.bytes, CHILD_LEN] using full)) le
      at_.light (good.storedLen_le right)
  refine .bind_ok point ?_
  obtain ⟨res, done, grown⟩ := splitInternal_ok h here at_
    (fun x mem => seps x ((mem_entriesWithInsertion le).mp mem))
    (fun x mem => children x ((mem_entriesWithInsertion le).mp mem)) found lt left rest
  simpa only [Bool.false_eq_true, if_false, done, sat_ok] using grown

/-! ### Inserting -/

theorem Grown.further (k : Grown codec t level rank page r) {top : PageNum}
    (here : t.Present page) (there : t.Present top) (same : level page = level top)
    (lt : rank page < rank top) : Grown codec t level rank top r := by
  obtain ⟨level', rank', span', shape, keeps, root, split⟩ := k
  refine ⟨level', rank', span', shape, keeps, root, fun sep right is => ?_⟩
  obtain ⟨good, new, at_, below⟩ := split sep right is
  refine ⟨good, new, ?_, below.trans (keeps.order _ _ here there lt)⟩
  rw [at_, keeps.levels _ here, keeps.levels _ there, same]

section

variable (h : Shape codec t level rank span)

include h

/-- The leaf that takes the entry is further right than `top`. -/
theorem rightLeafForProbe_ok (probe : Probe codec) (e : Entry) (reached : PageNum → Prop)
    (fuel : Nat) {next : PageNum} {top : Nat}
    (linked : next ≠ 0 → t.Present next ∧ level next = 0 ∧ rank next < top) :
    Sat (fun r => ∀ q, r = some q → t.Present q ∧ level q = 0 ∧ rank q < top)
      (Refusal t e reached (fuel ≤ top)) (rightLeafForProbe codec t probe fuel next) := by
  induction fuel generalizing next top with
  | zero => exact .inr ⟨rfl, Nat.zero_le _⟩
  | succ fuel ih =>
    unfold rightLeafForProbe
    split
    · exact fun _ is => nomatch is
    rename_i some
    obtain ⟨there, low, lt⟩ := linked some
    obtain ⟨node, read, here⟩ := h.read there
    have at_ := (h.nodes next node here).1 ((h.isLeaf_iff here).mpr low)
    refine .bind_ok read ?_
    split
    · refine (ih at_.next).imp (fun r found q is => ?_) fun _ => Refusal.mono (fun _ => id) (by omega)
      obtain ⟨present, bottom, less⟩ := found q is
      exact ⟨present, bottom, less.trans lt⟩
    rename_i first _ held
    obtain ⟨order, compared⟩ := entryCmp_leaf (at_.entries first (by simp [held])) probe
    refine .bind_ok (by rw [compared, lift_ok]) ?_
    rintro q is
    have same : q = next := by
      cases order <;> simp_all
    exact same ▸ ⟨there, low, lt⟩

theorem insertLeaf_ok (probe : Probe codec)
    (made : LeafEntry codec e) (fuel : Nat) (there : t.Present page) (low : level page = 0) :
    Sat (Grown codec t level rank page)
      (Refusal t e (fun p => landLeaf codec t probe fuel page = .ok p) (fuel ≤ rank page + 1))
      (insertLeaf codec t probe e fuel page) := by
  induction fuel generalizing page with
  | zero => exact .inr ⟨rfl, Nat.zero_le _⟩
  | succ fuel ih =>
    obtain ⟨node, read, here⟩ := h.read there
    have isLeaf := (h.isLeaf_iff here).mpr low
    have at_ := (h.nodes page node here).1 isLeaf
    obtain ⟨pos, searched, le⟩ := bound_ok false
      fun x mem => entryCmp_leaf (at_.entries x mem) probe
    have right : Sat (fun r => ∀ q, r = some q → t.Present q ∧ level q = 0 ∧ rank q < rank page)
        (Refusal t e (fun p => landLeaf codec t probe (fuel + 1) page = .ok p)
          (fuel + 1 ≤ rank page + 1)) (if pos = node.entryCount ∧ node.link ≠ 0 then
          rightLeafForProbe codec t probe fuel node.link else .ok none) := by
      split
      · exact (rightLeafForProbe_ok h probe e _ fuel at_.next).imp (fun _ => id)
          fun _ => Refusal.mono (fun _ => id) (by omega)
      · exact fun _ is => nomatch is
    have lands (r : Option PageNum) (looked : (if pos = node.entryCount ∧ node.link ≠ 0 then
        rightLeafForProbe codec t probe fuel node.link else .ok none) = .ok r) :
        landLeaf codec t probe (fuel + 1) page = r.elim (.ok page) (landLeaf codec t probe fuel) := by
      rw [landLeaf, read, ok_bind, lowerBound, searched, ok_bind, looked, ok_bind]
      cases r <;> rfl
    refine .bind_ok read (.bind_ok searched (.bind right.and_eq fun r ⟨looked, found⟩ => ?_))
    cases r with
    | none => exact place_leaf h here isLeaf le made (lands none looked) _
    | some next =>
      obtain ⟨present, bottom, lt⟩ := found next rfl
      exact (ih present bottom).imp
        (fun _ grown => grown.further present there (bottom.trans low.symm) lt)
        fun _ => Refusal.mono (fun _ comes => (lands _ looked).trans comes) (by omega)

theorem absorb_ok (there : t.Present page)
    (high : 0 < level page) {out : InsertOutcome} (bad : Fault → Prop)
    (split : ∀ sep right, out = .split sep right →
      Separator codec sep ∧ t.Present right ∧ Below level rank right page) :
    Sat (Grown codec t level rank page) bad (absorb codec t page out) := by
  cases out with
  | inserted => exact ⟨level, rank, span, h, ⟨fun _ => id, fun _ _ => rfl, fun _ _ _ _ => id⟩, rfl,
      nofun⟩
  | split sep right =>
    obtain ⟨good, new, below⟩ := split sep right rfl
    obtain ⟨node, read, here⟩ := h.read there
    have inner : node.isLeaf = false := by
      rw [← Bool.not_eq_true, h.isLeaf_iff here]
      exact high.ne'
    have at_ := (h.nodes page node here).2 inner
    obtain ⟨⟨key, bytes, rest, enc, rfl⟩, -⟩ := id good
    obtain ⟨pos, searched, le⟩ := bound_ok false
      fun x mem => entryCmp_internal (at_.entries x mem) ⟨key, some ((bytes ++ rest).drop bytes.length)⟩
    have decoded : lift (codec.decodeKeyPrefix (bytes ++ rest)) = .ok (key, bytes.length) := by
      rw [codec.decodeKeyPrefix_encodeKey rest enc, lift_ok]
    exact .bind_ok read (.bind_ok decoded (.bind_ok searched
      (place_internal h here inner le good new below bad)))

/-- Descending lowers this. -/
def height (level rank : PageNum → Nat) (span : Nat) (page : PageNum) : Nat :=
  level page * span + rank page

theorem height_lt {child : PageNum} (below : Below level rank child page) :
    height level rank span child < height level rank span page := by
  have own := h.span child
  unfold height
  rcases below with down | ⟨same, lt⟩
  · rw [← down, Nat.succ_mul]
    omega
  · rw [same]
    omega

theorem insertRec_ok (probe : Probe codec)
    (made : LeafEntry codec e) (fuel : Nat) (there : t.Present page) :
    Sat (Grown codec t level rank page)
      (Refusal t e (fun p => landing codec t probe fuel page = .ok p)
        (fuel ≤ height level rank span page + 2)) (insertRec codec t probe e fuel page) := by
  induction fuel generalizing page with
  | zero => exact .inr ⟨rfl, Nat.zero_le _⟩
  | succ fuel ih =>
    obtain ⟨node, read, here⟩ := h.read there
    refine .bind_ok read ?_
    split
    · rename_i isLeaf
      refine (insertLeaf_ok h probe made fuel there ((h.isLeaf_iff here).mp isLeaf)).imp
        (fun _ => id) fun _ => Refusal.mono (fun p comes => ?_) fun short => ?_
      · rw [landing, read, ok_bind, if_pos isLeaf]
        exact comes
      unfold height
      omega
    rename_i inner
    have at_ := (h.nodes page node here).2 (by simpa using inner)
    obtain ⟨child, found, present, below⟩ := at_.childFor_ok probe
    have down := height_lt h below
    have lands : landing codec t probe (fuel + 1) page = landing codec t probe fuel child := by
      rw [landing, read, ok_bind, if_neg inner, found, ok_bind]
    refine .bind_ok found (.bind ((ih present).imp (fun _ => id) fun _ =>
      Refusal.mono (fun _ comes => lands.trans comes) (by omega)) ?_)
    rintro ⟨t', out⟩ ⟨level', rank', span', shape, keeps, root, split⟩
    refine (absorb_ok shape (keeps.there _ there) ?_ _ fun sep right is => ?_).imp ?_ fun _ => id
    · rw [keeps.levels _ there]
      exact at_.high
    · obtain ⟨good, new, same, lt⟩ := split sep right is
      refine ⟨good, new, ?_⟩
      rcases keeps.below present there below with down | ⟨level, less⟩
      · exact .inl (by rw [same, down])
      · exact .inr ⟨same.trans level, lt.trans less⟩
    · rintro res ⟨level'', rank'', span'', shape', keeps', root', split'⟩
      exact ⟨level'', rank'', span'', shape', keeps.trans keeps', root'.trans root, split'⟩

/-- The tree has a shape. -/
def Sound (codec : KeyCodec) (t : Tree) : Prop := ∃ level rank span, Shape codec t level rank span

/-- The root that a split of the old root makes. -/
theorem newRoot_ok {sep : Bytes} {right : PageNum}
    (good : Separator codec sep) (new : t.Present right) (same : level right = level t.root) :
    ∃ node, ((init false).setLink t.root).insertEntry 0 ⟨sep, .child right⟩ = .ok node ∧
      Sound codec { t.newPage.2.write t.nextPage node with root := t.nextPage } := by
  have fits : Fits [⟨sep, .child right⟩] := by
    have small := good.2
    have third := third_le
    simp only [Fits, total_cons, total_nil, Entry.storedLen, Payload.bytes, length_le]
    simp only [CHILD_LEN] at small
    omega
  obtain ⟨node, built, roomy, compact, held, inner, link⟩ := appendEntries_init false t.root fits
  rw [appendEntries, Result.bind_eq_ok] at built
  obtain ⟨_, ins, ⟨⟩⟩ := built
  refine ⟨node, ins, update level t.nextPage (level t.root + 1), rank, span, ?_⟩
  have k : Keeps t.Present level rank (t.newPage.2.write t.nextPage node).Present
      (update level t.nextPage (level t.root + 1)) rank :=
    ⟨fun _ there => present_write.mpr (.inr there),
      fun _ there => update_of_ne (h.old there) _ _, fun _ _ _ _ => id⟩
  have under : ∀ q, t.Present q → level q = level t.root → Below
      (update level t.nextPage (level t.root + 1)) rank q t.nextPage := by
    intro q there at_
    refine .inl ?_
    rw [k.levels q there, at_, update_self]
  have only : ∀ e ∈ node.entries, e = ⟨sep, .child right⟩ := by
    rw [held]
    exact fun e => mem_singleton.mp
  have at_ : InternalAt codec (t.newPage.2.write t.nextPage node).Present
      (update level t.nextPage (level t.root + 1)) rank t.nextPage node := by
    refine ⟨?_, roomy, compact, fun e mem => only e mem ▸ good, ?_, fun e mem => ?_⟩
    · rw [update_self]
      exact Nat.succ_pos _
    · rw [link]
      exact ⟨k.there _ h.root, under _ h.root rfl⟩
    · rw [only e mem]
      exact ⟨right, rfl, k.there _ new, under _ new same⟩
  have shape := h.alloc h.span k (at_.nodeAt inner)
  exact ⟨shape.fresh, shape.positive, present_write.mpr (.inl rfl), shape.span, shape.nodes⟩

theorem insert_ok {key : codec.Key} {bytes : Bytes}
    (enc : codec.encodeKey key = .ok bytes) (loc : RowLocation)
    (light : Light bytes.length loc.encode.length) (fuel : Nat) :
    Sat (Sound codec) (Refusal t ⟨bytes, .location loc.encode⟩ (Lands codec t key loc)
      (fuel ≤ height level rank span t.root + 2)) (insert codec fuel t key loc) := by
  refine .bind_ok (by rw [enc, lift_ok]) (.bind_ok (by rw [light.validate, lift_ok])
    (.bind ((insertRec_ok h _ ⟨key, enc, ⟨loc, rfl⟩, light⟩ fuel h.root).imp (fun _ => id)
      fun _ => Refusal.mono (fun _ comes => ⟨fuel, comes⟩) id) ?_))
  rintro ⟨grown, out⟩ ⟨level', rank', span', shape, keeps, root, split⟩
  cases out with
  | inserted => exact ⟨level', rank', span', shape⟩
  | split sep right =>
    obtain ⟨good, new, same, -⟩ := split sep right rfl
    rw [← root] at same ⊢
    obtain ⟨node, ins, sound⟩ := newRoot_ok shape good new same
    exact .bind_ok (by rw [ins, lift_ok]) sound

/-! ### Removing -/

theorem descendToLeaf_ok (probe : Probe codec) (fuel : Nat) (there : t.Present page) :
    Sat (fun p => t.Present p ∧ level p = 0) (fun _ => True)
      (descendToLeaf codec t probe fuel page) := by
  induction fuel generalizing page with
  | zero => trivial
  | succ fuel ih =>
    obtain ⟨node, read, here⟩ := h.read there
    refine .bind_ok read ?_
    split
    · rename_i isLeaf
      exact ⟨there, (h.isLeaf_iff here).mp isLeaf⟩
    rename_i inner
    have at_ := (h.nodes page node here).2 (by simpa using inner)
    obtain ⟨child, found, present, -⟩ := at_.childFor_ok probe
    exact .bind_ok found (ih present)

theorem firstLeaf_ok (fuel : Nat) (there : t.Present page) :
    Sat (fun p => t.Present p ∧ level p = 0) (fun _ => True) (firstLeaf t fuel page) := by
  induction fuel generalizing page with
  | zero => trivial
  | succ fuel ih =>
    obtain ⟨node, read, here⟩ := h.read there
    refine .bind_ok read ?_
    split
    · rename_i isLeaf
      exact ⟨there, (h.isLeaf_iff here).mp isLeaf⟩
    · rename_i inner
      exact ih ((h.nodes page node here).2 (by simpa using inner)).link.1

end

/-- The node has lost some of its entries. -/
def Thinned (node image : Node) : Prop :=
  ∃ entries, entries.Sublist node.entries ∧ image = { node with entries }

theorem removeEntry_ok (node : Node) (pos : Nat) :
    Sat (Thinned node) (fun _ => True) (lift (node.removeEntry pos)) := by
  unfold removeEntry
  split
  · trivial
  · exact ⟨_, eraseIdx_sublist .., rfl⟩

theorem removeDead_ok (dead : List RowLocation) (pos : Nat) (node : Node) :
    Sat (fun r => Thinned node r.1) (fun _ => True) (removeDead dead pos node) := by
  induction pos generalizing node with
  | zero => exact ⟨node.entries, .refl _, rfl⟩
  | succ pos ih =>
    unfold removeDead
    split
    · trivial
    refine .bind (.any _) fun value _ => ?_
    split
    · refine .bind (removeEntry_ok node pos) ?_
      rintro _ ⟨ents, kept, rfl⟩
      refine .bind (ih _) ?_
      rintro ⟨_, rem⟩ ⟨fewer, kept', rfl⟩
      exact ⟨fewer, kept'.trans kept, rfl⟩
    · exact ih node

theorem Shape.thin (h : Shape codec t level rank span) (here : t.pages page = some node)
    (low : level page = 0) {image : Node} (thin : Thinned node image) :
    Shape codec (t.write page image) level rank span := by
  obtain ⟨ents, kept, rfl⟩ := thin
  exact h.shrinkLeaf here ((h.isLeaf_iff here).mpr low) kept

theorem removeLoop_ok (h : Shape codec t level rank span) (key : codec.Key) (value : Bytes)
    (fuel : Nat) (there : t.Present page) (low : level page = 0) :
    Sat (fun r => Shape codec r.1 level rank span) (fun _ => True)
      (removeLoop codec t key value fuel page) := by
  induction fuel generalizing page with
  | zero => trivial
  | succ fuel ih =>
    obtain ⟨node, read, here⟩ := h.read there
    have at_ := (h.nodes page node here).1 ((h.isLeaf_iff here).mpr low)
    refine .bind_ok read (.bind (.any _) fun pos _ => ?_)
    split
    · refine .bind (.any _) fun _ _ => ?_
      dsimp only
      split
      · exact .bind (removeEntry_ok node pos) fun image thin => h.thin here low thin
      · exact h
    split
    · exact h
    rename_i linked
    obtain ⟨next, bottom, -⟩ := at_.next linked
    exact ih next bottom

theorem removeValuesLoop_ok (dead : List RowLocation) (fuel : Nat)
    (h : Shape codec t level rank span) (there : t.Present page) (low : level page = 0) :
    Sat (fun r => Shape codec r.1 level rank span) (fun _ => True)
      (removeValuesLoop dead fuel t page) := by
  induction fuel generalizing t page with
  | zero => trivial
  | succ fuel ih =>
    obtain ⟨node, read, here⟩ := h.read there
    have at_ := (h.nodes page node here).1 ((h.isLeaf_iff here).mpr low)
    refine .bind_ok read (.bind (removeDead_ok dead node.entryCount node) ?_)
    rintro ⟨image, rem⟩ thin
    have link : image.link = node.link := by
      obtain ⟨_, -, rfl⟩ := thin
      rfl
    have after : Shape codec (if rem = 0 then t else t.write page image) level rank span ∧
        ∀ p, t.Present p → (if rem = 0 then t else t.write page image).Present p := by
      split
      · exact ⟨h, fun _ => id⟩
      · exact ⟨h.thin here low thin, fun _ was => present_write.mpr (.inr was)⟩
    dsimp only
    split
    · exact after.1
    rename_i linked
    obtain ⟨next, bottom, -⟩ := at_.next (link ▸ linked)
    exact .bind (ih after.1 (after.2 _ (link ▸ next)) (link ▸ bottom)) fun _ done => done

end Specs

/-! ### Runs -/

/-- Every entry that is inserted is light. -/
def Action.Light : Action codec → Prop
  | .insert _ key loc => ∀ bytes, codec.encodeKey key = .ok bytes →
    Index.Light bytes.length loc.encode.length
  | _ => True

theorem Sound.step {t t' : Tree} {a : Action codec} (h : Sound codec t) (light : a.Light)
    (taken : t.step a = some t') : Sound codec t' := by
  obtain ⟨level, rank, span, shape⟩ := h
  cases a with
  | insert fuel key loc =>
    cases enc : codec.encodeKey key with
    | error e =>
      simp only [Tree.step, insert, enc] at taken
      cases taken
    | ok bytes => exact (insert_ok shape enc loc (light bytes enc) fuel).of_toOption taken
  | remove fuel key loc =>
    obtain ⟨r, done, rfl⟩ := Option.map_eq_some_iff.mp taken
    have sat : Sat (fun r => Shape codec r.1 level rank span) (fun _ => True)
        (remove codec fuel t key loc) :=
      .bind (descendToLeaf_ok shape _ fuel shape.root) fun page ⟨there, low⟩ =>
        removeLoop_ok shape key loc.encode fuel there low
    exact ⟨level, rank, span, sat.of_toOption done⟩
  | removeValuesIn fuel dead =>
    obtain ⟨r, done, rfl⟩ := Option.map_eq_some_iff.mp taken
    have sat : Sat (fun r => Shape codec r.1 level rank span) (fun _ => True)
        (removeValuesIn fuel t dead) := by
      unfold removeValuesIn
      split
      · exact shape
      · exact .bind (firstLeaf_ok shape fuel shape.root) fun page ⟨there, low⟩ =>
          removeValuesLoop_ok dead fuel shape there low
    exact ⟨level, rank, span, sat.of_toOption done⟩

/-- **Light entries**: in a tree that light inserts and removes built, a light entry is inserted,
with enough fuel, unless removes have emptied the leaf it comes to and left no room there. Where
a node has no room on the way, the split point leaves two halves that fit. -/
theorem light_insert_succeeds {t : Tree} {acts : List (Action codec)}
    (run : Run Tree.step (fun _ a => a.Light) Tree.create acts t) {key : codec.Key} {bytes : Bytes}
    (encoded : codec.encodeKey key = .ok bytes) {loc : RowLocation}
    (light : Light bytes.length loc.encode.length)
    (welcome : Welcomes codec t key bytes.length loc) :
    (∃ enough, ∀ fuel, enough ≤ fuel → ∃ t', insert codec fuel t key loc = .ok t') ∧
    (∀ page node pos, t.pages page = some node → node.isLeaf = true →
      (node.entries = [] → Lands codec t key loc page) → pos ≤ node.entryCount →
      node.hasSpace bytes.length loc.encode.length = false →
      let entries := entriesWithInsertion node pos ⟨bytes, .location loc.encode⟩
      ∃ mid, splitPoint entries = .ok mid ∧ 0 < mid ∧ mid < entries.length ∧
        Fits (entries.take mid) ∧ Fits (entries.drop mid)) ∧
    (∀ page node pos sep right, t.pages page = some node → node.isLeaf = false →
      pos ≤ node.entryCount → Separator codec sep → node.hasSpace sep.length CHILD_LEN = false →
      let entries := entriesWithInsertion node pos ⟨sep, .child right⟩
      ∃ preferred mid, splitPoint entries = .ok preferred ∧
        internalSplitPoint entries preferred = some mid ∧ mid < entries.length ∧
        Fits (entries.take (mid + 1)) ∧ Fits (entries.drop (mid + 1))) := by
  obtain ⟨level, rank, span, shape⟩ : Sound codec t :=
    run.invariant (fun _ _ _ sound light taken => sound.step light taken) ⟨_, _, _, Shape.create⟩
  refine ⟨⟨height level rank span t.root + 3, fun fuel enough => ?_⟩, ?_, ?_⟩
  · obtain ⟨t', done, -⟩ := (insert_ok shape encoded loc light fuel).exists_ok (by
      rintro f (⟨-, page, node, comes, here, none, full⟩ | ⟨-, short⟩)
      · exact absurd (welcome page node comes here none) (Bool.eq_false_iff.mp full)
      · omega)
    exact ⟨t', done⟩
  · intro page node pos here isLeaf comes le full
    have at_ := (shape.nodes page node here).1 isLeaf
    refine split_fits at_.roomy (fun none => ?_) le (fun x mem => (at_.entries x mem).storedLen_le)
      light.storedLen_le
    rw [welcome page node (comes none) here none] at full
    cases full
  · intro page node pos sep right here internal le good full
    have at_ := (shape.nodes page node here).2 internal
    exact internal_split_fits at_.roomy (at_.entries_ne_nil good full) le at_.light
      (good.storedLen_le right)

/-! ### Keys of one bytea column -/

def KEY_TAG_BYTEA : UInt8 := 6

def byteaCodec : KeyCodec where
  Key := Bytes
  encodeKey key :=
    if key.length < 2 ^ 32 then .ok ([1, 0, KEY_TAG_BYTEA] ++ (Bytes.le 4 key.length ++ key))
    else .error (.storage .programLimitExceeded "key bytea is too large")
  decodeKeyPrefix bytes :=
    match bytes with
    | 1 :: 0 :: 6 :: rest => match Bytes.split 4 rest with
      | none => .error (corrupt "row ended unexpectedly")
      | some (len, rest) => match Bytes.split (Bytes.leValue len) rest with
        | none => .error (corrupt "row ended unexpectedly")
        | some (key, _) => .ok (key, 7 + key.length)
    | _ => .error (corrupt "unknown key value tag")
  cmp := bytesCmp
  decodeKeyPrefix_encodeKey := by
    intro key bytes rest encoded
    split at encoded
    · rename_i fits
      cases encoded
      have count : Bytes.leValue (Bytes.le 4 key.length) = key.length := leValue_le_of_lt fits
      simp only [KEY_TAG_BYTEA, cons_append, nil_append, append_assoc,
        split_append (length_le 4 key.length), count, split_append rfl]
      simp
      omega
    · cases encoded

/-- The key of `n + 1` bytes that starts with `b`. -/
def longKey (b : UInt8) (n : Nat) : byteaCodec.Key := b :: replicate n 0

/-- Nine inserts in order of the keys, of which a leaf and an internal node hold three. -/
def ascending : List (Action byteaCodec) :=
  (range 9).map fun i => .insert 9 (longKey i.toUInt8 2200) ⟨1, 0, i.toUInt16⟩

/-- The inserts of bytea keys that are light. -/
def LightKey : Action byteaCodec → Prop
  | .insert _ key loc => Light (7 + List.length key) loc.encode.length
  | _ => True

instance : DecidablePred LightKey
  | .insert .. => inferInstanceAs (Decidable (Light ..))
  | .remove .. | .removeValuesIn .. => inferInstanceAs (Decidable True)

theorem length_encodeKey {key bytes : Bytes} (encoded : byteaCodec.encodeKey key = .ok bytes) :
    bytes.length = 7 + key.length := by
  obtain ⟨-, ⟨⟩⟩ := (ite_eq_iff.mp encoded).resolve_right fun wrong => nomatch wrong.2
  simp only [length_append, Bytes.length_le, length_cons, length_nil]
  omega

theorem LightKey.light {a : Action byteaCodec} (h : LightKey a) : a.Light := by
  cases a with
  | insert fuel key loc =>
    intro bytes encoded
    rw [length_encodeKey encoded]
    exact h
  | remove => trivial
  | removeValuesIn => trivial

/-- The entry of the tenth key. -/
def tenth : Entry :=
  ⟨[1, 0, KEY_TAG_BYTEA] ++ (Bytes.le 4 2201 ++ 9 :: replicate 2200 0),
    .location (RowLocation.encode ⟨1, 0, 9⟩)⟩

/-- After the nine the last leaf and the root are full, and no page is without entries. -/
theorem ascending_full : ∃ t, Run Tree.step (fun _ a => LightKey a) Tree.create ascending t ∧
    (∃ leaf ∈ t.pages 5, leaf.isLeaf = true ∧ leaf.entryCount = 3 ∧
      leaf.hasSpace tenth.key.length tenth.value.bytes.length = false) ∧
    (∃ root ∈ t.pages t.root, root.isLeaf = false ∧ root.entryCount = 3 ∧
      root.hasSpace (leafSeparator tenth).length CHILD_LEN = false) ∧
    ∀ page < t.nextPage, ∀ node ∈ t.pages page, node.entries ≠ [] :=
  Run.evaluated (by decide +kernel)

/-- The tenth insert splits a leaf and the root: it returns, and both have a split point. -/
theorem light_insert_succeeds_tenth :
    ∃ t leaf root, Run Tree.step (fun _ a => a.Light) Tree.create ascending t ∧
      t.pages 5 = some leaf ∧ leaf.hasSpace tenth.key.length tenth.value.bytes.length = false ∧
      t.pages t.root = some root ∧
      root.hasSpace (leafSeparator tenth).length CHILD_LEN = false ∧
      (∃ enough, ∀ fuel, enough ≤ fuel →
        ∃ t', insert byteaCodec fuel t (longKey 9 2200) ⟨1, 0, 9⟩ = .ok t') ∧
      (let entries := entriesWithInsertion leaf 3 tenth
      ∃ mid, splitPoint entries = .ok mid ∧ 0 < mid ∧ mid < entries.length ∧
        Fits (entries.take mid) ∧ Fits (entries.drop mid)) ∧
      (let entries := entriesWithInsertion root 3 ⟨leafSeparator tenth, .child 6⟩
      ∃ preferred mid, splitPoint entries = .ok preferred ∧
        internalSplitPoint entries preferred = some mid ∧ mid < entries.length ∧
        Fits (entries.take (mid + 1)) ∧ Fits (entries.drop (mid + 1))) := by
  obtain ⟨t, ran, ⟨leaf, here, isLeaf, count, full⟩, ⟨root, top, inner, count', full'⟩, held⟩ :=
    ascending_full
  have run := ran.mono fun _ _ => LightKey.light
  obtain ⟨level, rank, span, shape⟩ : Sound byteaCodec t :=
    run.invariant (fun _ _ _ sound light taken => sound.step light taken) ⟨_, _, _, Shape.create⟩
  have light : Light tenth.key.length (RowLocation.encode ⟨1, 0, 9⟩).length := by decide +kernel
  have encoded : byteaCodec.encodeKey (longKey 9 2200) = .ok tenth.key := by decide +kernel
  have some_ : ∀ page node, t.pages page = some node → node.entries ≠ [] := by
    intro page node there
    refine held page (not_le.mp fun far => ?_) node there
    rw [shape.fresh page far] at there
    cases there
  obtain ⟨returns, leaves, internals⟩ := light_insert_succeeds run encoded light
    (fun page node _ there none => absurd none (some_ page node there))
  refine ⟨t, leaf, root, run, here, full, top, full', returns, ?_, ?_⟩
  · exact leaves 5 leaf 3 here isLeaf (fun none => absurd none (some_ 5 leaf here)) count.ge full
  · have good : Separator byteaCodec (leafSeparator tenth) :=
      LeafEntry.separator ⟨_, encoded, ⟨_, rfl⟩, light⟩
    exact internals t.root root 3 _ 6 top inner count'.ge good full'

/-- The entry passes the size check of `insert`. -/
def accepted (key : byteaCodec.Key) (loc : RowLocation) : Bool :=
  match byteaCodec.encodeKey key with
  | .ok bytes => (validateIndexEntryFits bytes.length loc.encode.length).isOk
  | .error _ => false

/-- How an insert after some operations fails, if it does. -/
def refusal (acts : List (Action byteaCodec)) (key : byteaCodec.Key) (loc : RowLocation) :
    Option Fault :=
  match exec Tree.step (fun _ _ => true) Tree.create acts with
  | none => none
  | some t => match insert byteaCodec 3 t key loc with
    | .ok _ => none
    | .error f => some f

/-- **Refused by a split**: an entry passes the size check and lands between two entries
of about half a page, and it fits in neither half of the split; another comes to a leaf
that has lost its only entry but not the bytes, and there is no place to cut. -/
theorem entry_refused_by_split : accepted (longKey 1 7000) ⟨1, 0, 2⟩ = true ∧
    refusal [.insert 3 (longKey 0 3600) ⟨1, 0, 0⟩, .insert 3 (longKey 2 4000) ⟨1, 0, 1⟩]
      (longKey 1 7000) ⟨1, 0, 2⟩ = some (.error (Storage.corruptPage "index node is full")) ∧
    accepted (longKey 0 4000) ⟨1, 0, 1⟩ = true ∧
    refusal [.insert 3 (longKey 0 5000) ⟨1, 0, 0⟩, .remove 3 (longKey 0 5000) ⟨1, 0, 0⟩]
      (longKey 0 4000) ⟨1, 0, 1⟩ = some .panic := by
  decide +kernel

end Saguaro.Index
