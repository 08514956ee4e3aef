/-
Blocks: byte arrays of a fixed length that are read and written in place.

`byte` reads at any offset (0 outside), `write` overwrites a range, `slice` reads one,
and `readLe`, `writeLe` do so for little-endian integers. The lemmas say what a write
leaves of what is read elsewhere.
-/

import Saguaro.Lib.Bytes

namespace Saguaro

/-- A block of `n` bytes. -/
def Block (n : Nat) : Type := Fin n → UInt8

namespace Block

variable {n : Nat}

def byte (d : Block n) (i : Nat) : UInt8 := if h : i < n then d ⟨i, h⟩ else 0

def zero (n : Nat) : Block n := fun _ => 0

/-- The block with `bytes` from `off` on. -/
def write (d : Block n) (off : Nat) (bytes : Bytes) : Block n := fun i =>
  if off ≤ i.val then (bytes[i.val - off]?).getD (d i) else d i

def slice (d : Block n) (off len : Nat) : Bytes := (List.range len).map fun k => d.byte (off + k)

def readLe (d : Block n) (off width : Nat) : Nat := Bytes.leValue (d.slice off width)

def writeLe (d : Block n) (off width value : Nat) : Block n := d.write off (Bytes.le width value)

def toBytes (d : Block n) : Bytes := d.slice 0 n

def ofBytes (bytes : Bytes) : Block n := fun i => bytes.getD i 0

variable {d d' : Block n} {off off' len i : Nat} {bytes : Bytes}

theorem ext_byte (same : ∀ i, i < n → d.byte i = d'.byte i) : d = d' := by
  funext i
  simpa [byte] using same i i.isLt

theorem byte_of_le (out : n ≤ i) : d.byte i = 0 := dif_neg (not_lt.mpr out)

theorem byte_write_of_mem (le : off ≤ i) (lt : i < off + bytes.length) (inside : i < n) :
    (d.write off bytes).byte i = bytes.getD (i - off) 0 := by
  have found : i - off < bytes.length := by omega
  simp [byte, write, inside, le, List.getElem?_eq_getElem found]

theorem byte_write_of_notMem (out : i < off ∨ off + bytes.length ≤ i) :
    (d.write off bytes).byte i = d.byte i := by
  by_cases inside : i < n
  · rcases out with lt | ge
    · simp [byte, write, inside, not_le.mpr lt]
    · have past : bytes.length ≤ i - off := by omega
      simp [byte, write, inside, List.getElem?_eq_none past]
  · rw [byte_of_le (not_lt.mp inside), byte_of_le (not_lt.mp inside)]

@[simp] theorem length_slice : (d.slice off len).length = len := by simp [slice]

theorem slice_congr (same : ∀ i, off ≤ i → i < off + len → d.byte i = d'.byte i) :
    d.slice off len = d'.slice off len := by
  refine List.map_congr_left fun k mem => same _ (Nat.le_add_right _ _) ?_
  have := List.mem_range.mp mem
  omega

theorem slice_write_of_disjoint (apart : off' + len ≤ off ∨ off + bytes.length ≤ off') :
    (d.write off bytes).slice off' len = d.slice off' len :=
  slice_congr fun i low high => byte_write_of_notMem (by omega)

theorem slice_write_self (inside : off + bytes.length ≤ n) :
    (d.write off bytes).slice off bytes.length = bytes := by
  refine List.ext_getElem (by simp) fun k lt lt' => ?_
  have at_ : (d.write off bytes).byte (off + k) = bytes.getD (off + k - off) 0 :=
    byte_write_of_mem (Nat.le_add_right _ _) (by omega) (by omega)
  simp only [slice, List.getElem_map, List.getElem_range, at_, Nat.add_sub_cancel_left]
  exact (List.getElem_eq_getD 0).symm

theorem readLe_write_of_disjoint {width : Nat} (apart : off' + width ≤ off ∨ off + bytes.length ≤ off') :
    (d.write off bytes).readLe off' width = d.readLe off' width := by
  rw [readLe, slice_write_of_disjoint apart, readLe]

theorem readLe_writeLe_of_disjoint {width width' value : Nat}
    (apart : off' + width' ≤ off ∨ off + width ≤ off') :
    (d.writeLe off width value).readLe off' width' = d.readLe off' width' :=
  readLe_write_of_disjoint (by rwa [Bytes.length_le])

theorem readLe_writeLe_self {width value : Nat} (inside : off + width ≤ n)
    (fits : value < 2 ^ (8 * width)) : (d.writeLe off width value).readLe off width = value := by
  have whole : (d.write off (Bytes.le width value)).slice off (Bytes.le width value).length = _ :=
    slice_write_self (by rwa [Bytes.length_le])
  rw [Bytes.length_le] at whole
  rw [readLe, writeLe, whole, Bytes.leValue_le_of_lt fits]

theorem ofBytes_toBytes (d : Block n) : ofBytes d.toBytes = d := by
  refine ext_byte fun i lt => ?_
  simp [byte, ofBytes, toBytes, lt, slice]

end Block

end Saguaro
