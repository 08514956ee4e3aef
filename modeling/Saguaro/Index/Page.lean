/-
Nodes of an index (`crates/storage/src/index_page.rs`).

A node page has a header, entries whose bytes grow upwards and a slot for each of them
at the end of the page. Slots are kept in key order. The page is modelled by what its
readers get from it: the entries in slot order, the link, and the offset where the next
entry's bytes go. That offset only grows until the page is built anew, so an entry that
is removed leaves its bytes behind (`removeEntry`).
-/

import Saguaro.Storage.Page
import Saguaro.Lib.Balance

namespace Saguaro.Index

open Storage (corruptPage HEADER_LEN)

def PAGE_SIZE : Nat := 8192
def BODY_START : Nat := HEADER_LEN + 5
def SLOT_LEN : Nat := 4

abbrev PageNum := Nat

/-- What an entry stores next to its key: an encoded row location in a leaf, a child
page in an internal node. -/
inductive Payload where
  | location (bytes : Bytes)
  | child (page : PageNum)
  deriving DecidableEq, Repr

def Payload.bytes : Payload → Bytes
  | .location bytes => bytes
  | .child page => Bytes.le 4 page

structure Entry where
  key : Bytes
  value : Payload
  deriving DecidableEq, Repr

def entrySize (keyLen valueLen : Nat) : Nat := 2 + keyLen + valueLen

/-- An entry's bytes and its slot. -/
def entryStoredLen (keyLen valueLen : Nat) : Nat := entrySize keyLen valueLen + SLOT_LEN

def entryFitsEmptyNode (keyLen valueLen : Nat) : Bool :=
  entryStoredLen keyLen valueLen ≤ PAGE_SIZE - BODY_START

def Entry.size (e : Entry) : Nat := entrySize e.key.length e.value.bytes.length

def Entry.storedLen (e : Entry) : Nat := entryStoredLen e.key.length e.value.bytes.length

structure Node where
  isLeaf : Bool
  /-- The right sibling of a leaf (0 for none), the leftmost child of an internal node. -/
  link : PageNum
  freeStart : Nat
  entries : List Entry
  deriving DecidableEq, Repr

namespace Node

def init (isLeaf : Bool) : Node := ⟨isLeaf, 0, BODY_START, []⟩

def setLink (node : Node) (page : PageNum) : Node := { node with link := page }

def entryCount (node : Node) : Nat := node.entries.length

def freeBytes (node : Node) : Nat := PAGE_SIZE - node.entryCount * SLOT_LEN - node.freeStart

def hasSpace (node : Node) (keyLen valueLen : Nat) : Bool :=
  entryStoredLen keyLen valueLen ≤ node.freeBytes

def insertEntry (node : Node) (pos : Nat) (e : Entry) : Result Node :=
  if node.entryCount < pos then .error (corruptPage "index insert position out of range")
  else if node.hasSpace e.key.length e.value.bytes.length then
    .ok { node with entries := node.entries.insertIdx pos e, freeStart := node.freeStart + e.size }
  else .error (corruptPage "index node is full")

def removeEntry (node : Node) (pos : Nat) : Result Node :=
  if node.entryCount ≤ pos then .error (corruptPage "index remove position out of range")
  else .ok { node with entries := node.entries.eraseIdx pos }

/-- `append_entries`, with the first `index` entries in place. -/
def appendEntries : Node → Nat → List Entry → Result Node
  | node, _, [] => .ok node
  | node, index, e :: entries => do
      let node ← node.insertEntry index e
      appendEntries node (index + 1) entries

end Node

/-! ### Room -/

/-- The node's bytes are accounted for: every entry has its bytes below the free
offset, and the slots are above it. -/
structure Node.Roomy (node : Node) : Prop where
  bytes : BODY_START + Balance.total Entry.size node.entries ≤ node.freeStart
  slots : node.freeStart + node.entryCount * SLOT_LEN ≤ PAGE_SIZE

/-- Nothing was removed since the page was built. -/
def Node.Compact (node : Node) : Prop :=
  node.freeStart = BODY_START + Balance.total Entry.size node.entries

theorem total_storedLen (entries : List Entry) : Balance.total Entry.storedLen entries =
    Balance.total Entry.size entries + entries.length * SLOT_LEN := by
  induction entries with
  | nil => rfl
  | cons e entries ih =>
    simp only [Balance.total_cons, List.length_cons, Nat.succ_mul, ih, Entry.storedLen,
      entryStoredLen, Entry.size]
    omega

variable {node : Node}

theorem Node.Roomy.hasSpace_iff (h : node.Roomy) {keyLen valueLen : Nat} :
    node.hasSpace keyLen valueLen = true ↔
      node.freeStart + node.entryCount * SLOT_LEN + entryStoredLen keyLen valueLen ≤ PAGE_SIZE := by
  have slots := h.slots
  rw [Node.hasSpace, Node.freeBytes, decide_eq_true_iff]
  constructor <;> intro <;> omega

theorem Node.Roomy.total_le (h : node.Roomy) :
    BODY_START + Balance.total Entry.storedLen node.entries ≤ PAGE_SIZE := by
  have bytes := h.bytes
  have slots := h.slots
  rw [total_storedLen]
  unfold Node.entryCount at slots
  omega

theorem Node.Compact.total_eq (h : node.Compact) : node.freeStart + node.entryCount * SLOT_LEN =
      BODY_START + Balance.total Entry.storedLen node.entries := by
  rw [h, total_storedLen, Node.entryCount]
  omega

theorem Node.roomy_init (isLeaf : Bool) : (Node.init isLeaf).Roomy := by
  constructor <;> simp [Node.init, Node.entryCount, PAGE_SIZE, BODY_START, HEADER_LEN]

theorem Node.compact_init (isLeaf : Bool) : (Node.init isLeaf).Compact := rfl

variable {entries : List Entry}

/-- A node that keeps some of its entries and all of its bytes. -/
theorem Node.Roomy.keep (h : node.Roomy)
    (kept : entries.Sublist node.entries) : ({ node with entries } : Node).Roomy where
  bytes := (Nat.add_le_add_left (Balance.total_le_of_sublist Entry.size kept) _).trans h.bytes
  slots := by
    have fewer := Nat.mul_le_mul_right SLOT_LEN kept.length_le
    exact (Nat.add_le_add_left fewer _).trans h.slots

variable {pos : Nat}

theorem total_insertIdx (le : pos ≤ entries.length) (weight : Entry → Nat) (e : Entry) :
    Balance.total weight (entries.insertIdx pos e) = weight e + Balance.total weight entries := by
  have perm := List.perm_insertIdx e entries le
  rw [Balance.total, (perm.map weight).sum_eq]
  simp [Balance.total]

variable {e : Entry}

/-- What an insertion that has room does. -/
theorem Node.insertEntry_eq (le : pos ≤ node.entryCount)
    (room : node.hasSpace e.key.length e.value.bytes.length = true) : node.insertEntry pos e =
      .ok { node with
        entries := node.entries.insertIdx pos e, freeStart := node.freeStart + e.size } := by
  rw [Node.insertEntry, if_neg (not_lt.mpr le), if_pos room]

theorem Node.Roomy.insert (h : node.Roomy) (le : pos ≤ node.entryCount)
    (room : node.hasSpace e.key.length e.value.bytes.length = true) : ({ node with
      entries := node.entries.insertIdx pos e
      freeStart := node.freeStart + e.size } : Node).Roomy where
  bytes := by
    have bytes := h.bytes
    rw [total_insertIdx le]
    change _ ≤ node.freeStart + e.size
    omega
  slots := by
    have space := h.hasSpace_iff.mp room
    simp only [Node.entryCount, List.length_insertIdx_of_le_length le, Nat.succ_mul] at space ⊢
    simp only [entryStoredLen, Entry.size] at space ⊢
    omega

theorem Node.Compact.insert (h : node.Compact) (le : pos ≤ node.entryCount) : ({ node with
      entries := node.entries.insertIdx pos e
      freeStart := node.freeStart + e.size } : Node).Compact := by
  change node.freeStart + e.size = _
  rw [total_insertIdx le, h]
  omega

/-- Appending to a compact node succeeds exactly when everything fits. -/
theorem Node.appendEntries_ok (roomy : node.Roomy) (compact : node.Compact)
    (fits : BODY_START + Balance.total Entry.storedLen (node.entries ++ entries) ≤ PAGE_SIZE) :
    ∃ built, node.appendEntries node.entryCount entries = .ok built ∧ built.Roomy ∧
      built.Compact ∧ built.entries = node.entries ++ entries ∧ built.isLeaf = node.isLeaf ∧
      built.link = node.link := by
  induction entries generalizing node with
  | nil => exact ⟨node, rfl, roomy, compact, by simp, rfl, rfl⟩
  | cons e entries ih =>
    have room : node.hasSpace e.key.length e.value.bytes.length = true := by
      rw [roomy.hasSpace_iff, compact.total_eq]
      simp only [Balance.total_append, Balance.total_cons, Entry.storedLen] at fits
      omega
    have atEnd : node.entries.insertIdx node.entryCount e = node.entries ++ [e] := by
      rw [Node.entryCount, List.insertIdx_length_self]
    have next := ih (roomy.insert le_rfl room) (compact.insert le_rfl) (by simpa [atEnd] using fits)
    obtain ⟨built, done, roomy', compact', held, leaf, link⟩ := next
    refine ⟨built, ?_, roomy', compact', by simpa [atEnd] using held, leaf, link⟩
    rw [Node.appendEntries, Node.insertEntry_eq le_rfl room, ok_bind]
    simpa [Node.entryCount, atEnd] using done

end Saguaro.Index
