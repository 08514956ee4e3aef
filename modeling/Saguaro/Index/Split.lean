/-
Splitting a node whose entries are light.

An entry is light when, as a separator, it takes at most a third of a page. A full node
with light entries and a light newcomer is cut at the balance point into two halves that
both fit, and an internal node has a split point that leaves room for the separator in
the left half. Heavier entries need not split: see `entry_refused_by_split`.
-/

import Saguaro.Index.Tree

namespace Saguaro.Index

open List Balance Node Entry

open Storage (HEADER_LEN)

def CAPACITY : Nat := PAGE_SIZE - BODY_START

/-- A third of the room that a page has for entries. -/
def THIRD : Nat := CAPACITY / 3

/-- What the key and value take as a separator is at most a third of a page. -/
def Light (keyLen valueLen : Nat) : Prop := entryStoredLen (keyLen + valueLen) CHILD_LEN ≤ THIRD

instance (keyLen valueLen : Nat) : Decidable (Light keyLen valueLen) :=
  inferInstanceAs (Decidable (_ ≤ _))

theorem Light.storedLen_le {keyLen valueLen : Nat} (h : Light keyLen valueLen) :
    entryStoredLen keyLen valueLen ≤ THIRD := by
  simp only [Light, entryStoredLen, entrySize] at h ⊢
  omega

theorem third_le : 3 * THIRD ≤ CAPACITY := by decide

theorem Light.validate {keyLen valueLen : Nat} (h : Light keyLen valueLen) :
    validateIndexEntryFits keyLen valueLen = .ok () := by
  have own := h.storedLen_le
  have third : THIRD ≤ PAGE_SIZE - BODY_START := by decide
  rw [validateIndexEntryFits, Result.failIf_eq_ok]
  simp only [entryFitsEmptyNode, decide_eq_false_iff_not, not_or, not_not]
  exact ⟨own.trans third, le_trans h third⟩

/-! ### Building halves -/

/-- The entries fit in a page. -/
def Fits (entries : List Entry) : Prop := total storedLen entries ≤ CAPACITY

variable {entries : List Entry}

theorem fits_iff : Fits entries ↔ BODY_START + total storedLen entries ≤ PAGE_SIZE := by
  have room : BODY_START + CAPACITY = PAGE_SIZE := by decide
  unfold Fits
  omega

theorem Node.Roomy.fits {node : Node} (h : node.Roomy) : Fits node.entries :=
  fits_iff.mpr h.total_le

/-- A fresh page filled with entries that fit. -/
theorem appendEntries_init (isLeaf : Bool) (link : PageNum) (fits : Fits entries) :
    ∃ built, ((init isLeaf).setLink link).appendEntries 0 entries = .ok built ∧
      built.Roomy ∧ built.Compact ∧ built.entries = entries ∧ built.isLeaf = isLeaf ∧
      built.link = link := by
  have fresh := roomy_init isLeaf
  have roomy : ((init isLeaf).setLink link).Roomy := ⟨fresh.bytes, fresh.slots⟩
  have compact : ((init isLeaf).setLink link).Compact := compact_init isLeaf
  exact appendEntries_ok roomy compact (fits_iff.mp fits)

/-- What was built fits. -/
theorem appendEntries_fits {node built : Node} (roomy : node.Roomy) (compact : node.Compact)
    (done : node.appendEntries node.entryCount entries = .ok built) :
    Fits (node.entries ++ entries) := by
  induction entries generalizing node with
  | nil => simpa using roomy.fits
  | cons e entries ih =>
    rw [appendEntries, Result.bind_eq_ok] at done
    obtain ⟨next, ins, rest⟩ := done
    unfold insertEntry at ins
    split at ins
    · cases ins
    split at ins
    · rename_i room
      cases ins
      have atEnd : node.entries.insertIdx node.entryCount e = node.entries ++ [e] := by
        rw [entryCount, insertIdx_length_self]
      have tail := ih (roomy.insert le_rfl room) (compact.insert le_rfl)
        (by simpa [entryCount, atEnd] using rest)
      simpa [atEnd] using tail
    · cases ins

theorem entriesFitAsInternalNode_iff : entriesFitAsInternalNode entries = true ↔ Fits entries := by
  unfold entriesFitAsInternalNode
  constructor
  · intro h
    split at h
    · exact appendEntries_fits (roomy_init false) (compact_init false) ‹_›
    · cases h
  intro fits
  obtain ⟨built, done, -⟩ := appendEntries_init false 0 fits
  have same : (init false).setLink 0 = init false := rfl
  rw [← same, done]

/-! ### Split points -/

theorem entriesWithInsertion_eq {node : Node} {pos : Nat} (le : pos ≤ node.entryCount) (e : Entry) :
    entriesWithInsertion node pos e = node.entries.insertIdx pos e := by
  unfold entriesWithInsertion
  split
  · rename_i atEnd
    rw [le_antisymm le atEnd, entryCount, insertIdx_length_self]
  · rfl

section Overflow

variable {node : Node} {pos : Nat} {e : Entry}

theorem mem_entriesWithInsertion (le : pos ≤ node.entryCount) {x : Entry} :
    x ∈ entriesWithInsertion node pos e ↔ x = e ∨ x ∈ node.entries := by
  rw [entriesWithInsertion_eq le, mem_insertIdx le]

theorem length_entriesWithInsertion (le : pos ≤ node.entryCount) :
    (entriesWithInsertion node pos e).length = node.entryCount + 1 := by
  rw [entriesWithInsertion_eq le, length_insertIdx_of_le_length le, entryCount]

variable {entries : List Entry}

theorem cut_pos (many : 2 ≤ entries.length) : 0 < min
    (halfway storedLen (total storedLen entries) 0 entries)
    (entries.length - 1) := by
  have pos : 0 < halfway storedLen (total storedLen entries) 0 entries :=
    halfway_pos _ (ne_nil_of_length_pos (by omega))
  omega

/-- The split point of a node that is not empty. -/
theorem splitPoint_eq (many : 2 ≤ entries.length) : splitPoint entries = .ok (min
      (halfway storedLen (total storedLen entries) 0 entries)
      (entries.length - 1)) := by
  have pos := cut_pos many
  rw [splitPoint, clamp, if_neg (by omega)]
  congr 1
  change max 1 (min _ _) = min _ _
  omega

/-- **Leaf split**: the split point of a node with light entries leaves two halves that
are not empty and fit. -/
theorem split_fits (roomy : node.Roomy) (some : node.entries ≠ []) (le : pos ≤ node.entryCount)
    (light : ∀ x ∈ node.entries, x.storedLen ≤ THIRD) (own : e.storedLen ≤ THIRD) :
    ∃ mid, splitPoint (entriesWithInsertion node pos e) = .ok mid ∧ 0 < mid ∧
      mid < (entriesWithInsertion node pos e).length ∧
      Fits ((entriesWithInsertion node pos e).take mid) ∧
      Fits ((entriesWithInsertion node pos e).drop mid) := by
  have count := length_entriesWithInsertion le (e := e)
  have ne : 0 < node.entryCount := length_pos_iff.mpr some
  have many : 2 ≤ (entriesWithInsertion node pos e).length := by omega
  have size : total storedLen (entriesWithInsertion node pos e) ≤ CAPACITY + THIRD := by
    have held := roomy.fits
    rw [entriesWithInsertion_eq le, total_insertIdx le]
    unfold Fits at held
    omega
  have all : ∀ x ∈ entriesWithInsertion node pos e, x.storedLen ≤ THIRD := by
    intro x mem
    rcases (mem_entriesWithInsertion le).mp mem with rfl | old
    · exact own
    · exact light x old
  have parts := cut_fits storedLen all many third_le size
  exact ⟨_, splitPoint_eq many, cut_pos many, by omega, parts⟩

/-- The search finds a split point whenever there is one. -/
theorem internalSplitPoint_of_fits (preferred : Nat) {i : Nat}
    (lt : i < entries.length) (left : Fits (entries.take (i + 1)))
    (right : Fits (entries.drop (i + 1))) :
    ∃ mid, internalSplitPoint entries preferred = some mid ∧ mid < entries.length ∧
      Fits (entries.take (mid + 1)) ∧ Fits (entries.drop (mid + 1)) := by
  simp only [← entriesFitAsInternalNode_iff] at left right ⊢
  cases found : internalSplitPoint entries preferred with
  | none =>
    simp only [internalSplitPoint, List.findSome?_eq_none_iff, mem_range] at found
    have inRange : min preferred (entries.length - 1) ≤ entries.length - 1 := min_le_right _ _
    generalize min preferred (entries.length - 1) = start at found inRange
    -- The distance of the known split point is searched.
    rcases le_total i start with prior | after
    · have miss := found (start - i) (by omega)
      rw [if_pos ⟨by omega, by simp [show start - (start - i) = i by omega, left, right]⟩] at miss
      cases miss
    have miss := found (i - start) (by omega)
    split at miss
    · cases miss
    split at miss
    · cases miss
    rename_i first snd
    by_cases same : i = start
    · exact absurd ⟨by omega, by simp [show start - (i - start) = i by omega, left, right]⟩
        first
    · exact absurd ⟨by omega, by omega,
        by simp [show start + (i - start) = i by omega, left, right]⟩ snd
  | some mid =>
    refine ⟨mid, rfl, ?_⟩
    obtain ⟨distance, mem, hit⟩ := exists_of_findSome?_eq_some found
    have short := mem_range.mp mem
    split at hit
    · rename_i near
      cases hit
      exact ⟨by omega, by simpa using near.2⟩
    split at hit
    · rename_i far
      cases hit
      exact ⟨far.2.1, by simpa using far.2.2⟩
    · cases hit

/-- **Internal split**: a node with light separators has a prefix-safe split point. -/
theorem internal_split_fits (roomy : node.Roomy) (some : node.entries ≠ [])
    (le : pos ≤ node.entryCount) (light : ∀ x ∈ node.entries, x.storedLen ≤ THIRD)
    (own : e.storedLen ≤ THIRD) :
    ∃ preferred mid, splitPoint (entriesWithInsertion node pos e) = .ok preferred ∧
      internalSplitPoint (entriesWithInsertion node pos e) preferred = .some mid ∧
      mid < (entriesWithInsertion node pos e).length ∧
      Fits ((entriesWithInsertion node pos e).take (mid + 1)) ∧
      Fits ((entriesWithInsertion node pos e).drop (mid + 1)) := by
  obtain ⟨cut, point, cutPos, cutLt, left, right⟩ := split_fits roomy some le light own
  have back : cut - 1 + 1 = cut := by omega
  rw [← back] at left right
  obtain ⟨mid, found⟩ := internalSplitPoint_of_fits cut (by omega) left right
  exact ⟨cut, mid, point, found⟩

end Overflow

end Saguaro.Index
