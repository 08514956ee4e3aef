/-
Fixed-width little-endian integers in byte strings.

`le width n` is what `to_le_bytes` writes for an unsigned integer of `width` bytes,
`leValue` is what `from_le_bytes` reads back, and `split` is a checked read of a
given number of bytes from the front of a slice.
-/

import Mathlib.Data.Nat.ModEq
import Mathlib.Data.List.Basic
import Mathlib.Tactic.Ring

namespace Saguaro

abbrev Bytes := List UInt8

namespace Bytes

/-- The `width` bytes of `n`, least significant first. -/
def le : Nat → Nat → Bytes
  | 0, _ => []
  | width + 1, n => UInt8.ofNat n :: le width (n / 256)

/-- The integer that the bytes stand for, least significant first. -/
def leValue : Bytes → Nat
  | [] => 0
  | b :: rest => b.toNat + 256 * leValue rest

/-- The first `n` bytes and the rest, if there are that many. -/
def split (n : Nat) (bytes : Bytes) : Option (Bytes × Bytes) :=
  if n ≤ bytes.length then some (bytes.take n, bytes.drop n) else none

@[simp] theorem length_le (width n : Nat) : (le width n).length = width := by
  induction width generalizing n with
  | zero => rfl
  | succ width ih => simp [le, ih]

theorem leValue_le (width n : Nat) : leValue (le width n) = n % 256 ^ width := by
  induction width generalizing n with
  | zero => simp [le, leValue, Nat.mod_one]
  | succ width ih =>
    have low : (UInt8.ofNat n).toNat = n % 256 := by simp
    rw [le, leValue, ih, low, pow_succ', Nat.mod_mul]

/-- Integers that fit come back. -/
theorem leValue_le_of_lt {width n : Nat} (fits : n < 2 ^ (8 * width)) :
    leValue (le width n) = n := by
  rw [Nat.pow_mul] at fits
  rw [leValue_le, Nat.mod_eq_of_lt fits]

/-- Bytes are those of the integer they stand for. -/
theorem le_leValue (bytes : Bytes) : le bytes.length (leValue bytes) = bytes := by
  induction bytes with
  | nil => rfl
  | cons b rest ih =>
    have high : (b.toNat + 256 * leValue rest) / 256 = leValue rest := by
      have := b.toNat_lt
      omega
    rw [List.length_cons, leValue, le, high, ih]
    simp

theorem leValue_lt (bytes : Bytes) : leValue bytes < 256 ^ bytes.length := by
  have rounded := leValue_le bytes.length (leValue bytes)
  rw [le_leValue] at rounded
  rw [rounded]
  exact Nat.mod_lt _ (Nat.pow_pos (by decide))

/-- A part of a byte string, found by its offset and length. -/
theorem slice (front part rest : Bytes) :
    ((front ++ (part ++ rest)).drop front.length).take part.length = part := by
  rw [List.drop_left, List.take_left]

theorem split_append {n : Nat} {front rest : Bytes} (length : front.length = n) :
    split n (front ++ rest) = some (front, rest) := by
  subst length
  simp [split]

end Bytes

end Saguaro
