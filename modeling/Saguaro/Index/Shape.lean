/-
The shape of a tree that light inserts and removes build.

Every page has a level, leaves being at level 0, and a rank that falls from left to right
on a level. A child of an internal node is one level below it, or further right on its
own level, since the left half of a split keeps a separator for the right half; a leaf's
link goes right. Keys can be decoded, nodes have their bytes accounted for, and internal
nodes, from which nothing is removed, are compact.
-/

import Saguaro.Index.Split
import Saguaro.Lib.Outcome

namespace Saguaro.Index

open Outcome Function Index.Tree

variable {codec : KeyCodec}

/-- An entry that `insert` made. -/
def LeafEntry (codec : KeyCodec) (e : Entry) : Prop :=
  ∃ key, codec.encodeKey key = .ok e.key ∧ (∃ loc, e.value = .location (RowLocation.encode loc)) ∧
    Light e.key.length e.value.bytes.length

/-- A separator that a leaf entry left behind. -/
def Separator (codec : KeyCodec) (sep : Bytes) : Prop :=
  (∃ key bytes rest, codec.encodeKey key = .ok bytes ∧ sep = bytes ++ rest) ∧
    entryStoredLen sep.length CHILD_LEN ≤ THIRD

/-- The separator that a leaf entry gives has its shape. -/
theorem LeafEntry.separator {e : Entry} (h : LeafEntry codec e) :
    Separator codec (leafSeparator e) := by
  obtain ⟨key, enc, -, light⟩ := h
  refine ⟨⟨key, e.key, e.value.bytes, enc, rfl⟩, ?_⟩
  rw [leafSeparator, List.length_append]
  exact light

theorem LeafEntry.storedLen_le {e : Entry} (h : LeafEntry codec e) : e.storedLen ≤ THIRD := by
  obtain ⟨_, _, _, light⟩ := h
  exact light.storedLen_le

/-- Where a node's child may be. -/
def Below (level rank : PageNum → Nat) (child page : PageNum) : Prop :=
  level child + 1 = level page ∨ level child = level page ∧ rank child < rank page

structure LeafAt (codec : KeyCodec) (present : PageNum → Prop) (level rank : PageNum → Nat)
    (page : PageNum) (node : Node) : Prop where
  bottom : level page = 0
  roomy : node.Roomy
  entries : ∀ e ∈ node.entries, LeafEntry codec e
  next : node.link ≠ 0 → present node.link ∧ level node.link = 0 ∧ rank node.link < rank page

structure InternalAt (codec : KeyCodec) (present : PageNum → Prop) (level rank : PageNum → Nat)
    (page : PageNum) (node : Node) : Prop where
  high : 0 < level page
  roomy : node.Roomy
  compact : node.Compact
  entries : ∀ e ∈ node.entries, Separator codec e.key
  link : present node.link ∧ Below level rank node.link page
  children : ∀ e ∈ node.entries, ∃ child, e.value = .child child ∧ present child ∧
    Below level rank child page

def NodeAt (codec : KeyCodec) (present : PageNum → Prop) (level rank : PageNum → Nat)
    (page : PageNum) (node : Node) : Prop :=
  (node.isLeaf = true → LeafAt codec present level rank page node) ∧
    (node.isLeaf = false → InternalAt codec present level rank page node)

def Tree.Present (t : Tree) (page : PageNum) : Prop := t.pages page ≠ none

theorem Tree.present_of_some {t : Tree} {page : PageNum} {node : Node}
    (here : t.pages page = some node) : t.Present page := by
  rw [Present, here]
  simp

theorem Tree.create_pages {page : PageNum} {node : Node}
    (here : create.pages page = some node) : page = 1 ∧ node = Node.init true := by
  by_cases same : page = 1
  · subst same
    exact ⟨rfl, (Option.some.inj here).symm⟩
  · simp only [create, update_of_ne same] at here
    cases here

structure Shape (codec : KeyCodec) (t : Tree) (level rank : PageNum → Nat) (span : Nat) : Prop where
  fresh : ∀ p, t.nextPage ≤ p → t.pages p = none
  positive : 0 < t.nextPage
  root : t.Present t.root
  span : ∀ p, rank p < span
  nodes : ∀ p node, t.pages p = some node → NodeAt codec t.Present level rank p node

/-- The pages stay, at their levels and in their order. -/
structure Keeps (present : PageNum → Prop) (level rank : PageNum → Nat)
    (present' : PageNum → Prop) (level' rank' : PageNum → Nat) : Prop where
  there : ∀ p, present p → present' p
  levels : ∀ p, present p → level' p = level p
  order : ∀ p q, present p → present q → rank p < rank q → rank' p < rank' q

section Keeps

variable {present present' : PageNum → Prop} {level level' rank rank' : PageNum → Nat}
  {page : PageNum} {node : Node}

theorem LeafAt.nodeAt (h : LeafAt codec present level rank page node)
    (isLeaf : node.isLeaf = true) : NodeAt codec present level rank page node :=
  ⟨fun _ => h, fun no => absurd (isLeaf.symm.trans no) (by simp)⟩

theorem InternalAt.nodeAt (h : InternalAt codec present level rank page node)
    (inner : node.isLeaf = false) : NodeAt codec present level rank page node :=
  ⟨fun yes => absurd (inner.symm.trans yes) (by simp), fun _ => h⟩

theorem Keeps.below (k : Keeps present level rank present' level' rank') {child : PageNum}
    (there : present child) (here : present page) (h : Below level rank child page) :
    Below level' rank' child page := by
  rw [Below, k.levels _ there, k.levels _ here]
  exact h.imp_right fun ⟨same, lt⟩ => ⟨same, k.order _ _ there here lt⟩

theorem Keeps.trans {present'' : PageNum → Prop} {level'' rank'' : PageNum → Nat}
    (k : Keeps present level rank present' level' rank')
    (k' : Keeps present' level' rank' present'' level'' rank'') :
    Keeps present level rank present'' level'' rank'' where
  there p there := k'.there p (k.there p there)
  levels p there := (k'.levels p (k.there p there)).trans (k.levels p there)
  order p q hp hq lt := k'.order p q (k.there p hp) (k.there q hq) (k.order p q hp hq lt)

theorem LeafAt.mono (h : LeafAt codec present level rank page node) (here : present page)
    (k : Keeps present level rank present' level' rank') :
    LeafAt codec present' level' rank' page node where
  bottom := (k.levels page here).trans h.bottom
  roomy := h.roomy
  entries := h.entries
  next linked := by
    obtain ⟨there, low, lt⟩ := h.next linked
    exact ⟨k.there _ there, (k.levels _ there).trans low, k.order _ _ there here lt⟩

theorem InternalAt.mono (h : InternalAt codec present level rank page node) (here : present page)
    (k : Keeps present level rank present' level' rank') :
    InternalAt codec present' level' rank' page node := by
  have child : ∀ c, present c ∧ Below level rank c page → present' c ∧ Below level' rank' c page :=
    fun c ⟨there, below⟩ => ⟨k.there c there, k.below there here below⟩
  refine ⟨(k.levels page here).symm ▸ h.high, h.roomy, h.compact, h.entries, child _ h.link,
    fun e mem => ?_⟩
  obtain ⟨c, value, at_⟩ := h.children e mem
  exact ⟨c, value, child c at_⟩

/-- A node keeps its shape where levels and ranks are kept. -/
theorem NodeAt.mono (h : NodeAt codec present level rank page node) (here : present page)
    (k : Keeps present level rank present' level' rank') :
    NodeAt codec present' level' rank' page node :=
  ⟨fun leaf => (h.1 leaf).mono here k, fun inner => (h.2 inner).mono here k⟩

end Keeps

namespace Shape

variable {t : Tree} {level rank : PageNum → Nat} {span : Nat} {page : PageNum} {node : Node}

/-- The empty tree has a shape. -/
theorem create : Shape codec Tree.create (fun _ => 0) (fun _ => 0) 1 := by
  refine ⟨fun p far => ?_, by decide, by simp [Tree.Present, Tree.create], fun _ => one_pos,
    fun p node here => ?_⟩
  · have ne : p ≠ 1 := ne_of_gt far
    simp [Tree.create, update_of_ne ne]
  · obtain ⟨rfl, rfl⟩ := Tree.create_pages here
    exact LeafAt.nodeAt ⟨rfl, Node.roomy_init true, by simp [Node.init], by simp [Node.init]⟩ rfl

/-- A page of the tree can be read. -/
theorem read (_ : Shape codec t level rank span) (here : t.Present page) :
    ∃ node, t.read page = .ok node ∧ t.pages page = some node := by
  obtain ⟨node, found⟩ := Option.ne_none_iff_exists'.mp here
  exact ⟨node, by simp [Tree.read, found], found⟩

/-- The leaves are the nodes at level 0. -/
theorem isLeaf_iff (h : Shape codec t level rank span) (here : t.pages page = some node) :
    node.isLeaf = true ↔ level page = 0 := by
  cases leaf : node.isLeaf with
  | true => simp [((h.nodes page node here).1 leaf).bottom]
  | false => simp [((h.nodes page node here).2 leaf).high.ne']

/-- The next page is new. -/
theorem old (h : Shape codec t level rank span) (there : t.Present page) : page ≠ t.nextPage := by
  rintro rfl
  exact there (h.fresh _ le_rfl)

theorem present_write {q : PageNum} : (t.write page node).Present q ↔ q = page ∨ t.Present q := by
  unfold Present write
  by_cases same : q = page
  · simp [same]
  · simp [same]

theorem pages_write {q : PageNum} {m : Node} (there : (t.write page node).pages q = some m) :
    q = page ∧ m = node ∨ t.pages q = some m := by
  by_cases same : q = page
  · subst same
    simp only [write, update_self] at there
    exact .inl ⟨rfl, (Option.some.inj there).symm⟩
  · simp only [write, update_of_ne same] at there
    exact .inr there

/-- Writing a page that is there. -/
theorem write (h : Shape codec t level rank span) (here : t.Present page)
    (node_ : NodeAt codec t.Present level rank page node) :
    Shape codec (t.write page node) level rank span := by
  have k : Keeps t.Present level rank (t.write page node).Present level rank :=
    ⟨fun p there => present_write.mpr (.inr there), fun _ _ => rfl, fun _ _ _ _ lt => lt⟩
  refine ⟨fun p far => ?_, h.positive, k.there _ h.root, h.span, fun p m there => ?_⟩
  · have ne : p ≠ page := by
      rintro rfl
      exact here (h.fresh p far)
    change update t.pages page (some node) p = none
    rw [update_of_ne ne]
    exact h.fresh p far
  · rcases pages_write there with ⟨rfl, rfl⟩ | old
    · exact node_.mono here k
    · exact (h.nodes p m old).mono (present_of_some old) k

/-- Writing a new page, at any level and rank that suit it. -/
theorem alloc {level' rank' : PageNum → Nat} {span' : Nat} (h : Shape codec t level rank span)
    (span : ∀ p, rank' p < span')
    (k : Keeps t.Present level rank (t.newPage.2.write t.nextPage node).Present level' rank')
    (new : NodeAt codec (t.newPage.2.write t.nextPage node).Present level' rank' t.nextPage node) :
    Shape codec (t.newPage.2.write t.nextPage node) level' rank' span' := by
  refine ⟨fun p far => ?_, Nat.succ_pos _, k.there _ h.root, span, fun p m there => ?_⟩
  · have above : t.nextPage < p := far
    change update t.pages t.nextPage (some node) p = none
    rw [update_of_ne (ne_of_gt above)]
    exact h.fresh p above.le
  · rcases pages_write there with ⟨rfl, rfl⟩ | old
    · exact new
    · exact (h.nodes p m old).mono (present_of_some old) k

/-- A leaf that loses entries. -/
theorem shrinkLeaf (h : Shape codec t level rank span) (here : t.pages page = some node)
    (isLeaf : node.isLeaf = true) {entries : List Entry} (kept : entries.Sublist node.entries) :
    Shape codec (t.write page { node with entries }) level rank span := by
  have leaf := (h.nodes page node here).1 isLeaf
  exact h.write (present_of_some here) (LeafAt.nodeAt ⟨leaf.bottom, leaf.roomy.keep kept,
    fun e mem => leaf.entries e (kept.subset mem), leaf.next⟩ isLeaf)

end Shape

end Saguaro.Index
