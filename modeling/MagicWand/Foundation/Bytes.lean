import Mathlib.Data.List.Basic
import Mathlib.Data.Nat.ModEq

/-!
# Byte strings

Fixed-width little-endian numbers, and what reading a byte string at the wrong
place gives: a block read too early sees what stands in front of it, and equals
the block only if the block repeats that front.
-/

namespace Foundation

abbrev Byte := BitVec 8

namespace Bytes

/-- The `n` low bytes of `v`, least significant first. -/
def leBytes : (n v : Nat) → List Byte
  | 0, _ => []
  | n + 1, v => BitVec.ofNat 8 v :: leBytes n (v / 2 ^ 8)

/-- The number that a little-endian byte string denotes. -/
def leNat : List Byte → Nat
  | [] => 0
  | b :: bs => b.toNat + 2 ^ 8 * leNat bs

@[simp] theorem length_leBytes (n v : Nat) : (leBytes n v).length = n := by
  induction n generalizing v with
  | zero => rfl
  | succ n ih => rw [leBytes, List.length_cons, ih]

theorem leNat_leBytes (n v : Nat) : leNat (leBytes n v) = v % 2 ^ (8 * n) := by
  induction n generalizing v with
  | zero => simp [leBytes, leNat, Nat.mod_one]
  | succ n ih =>
      rw [leBytes, leNat, ih, BitVec.toNat_ofNat, Nat.mul_succ, Nat.add_comm (8 * n) 8, Nat.pow_add]
      exact (Nat.mod_mul ..).symm

/-- `n` bytes at offset `off`. -/
def slice (bs : List Byte) (off n : Nat) : List Byte := (bs.drop off).take n

/-- A field behind a front of known length. -/
theorem slice_append (front field rest : List Byte) {off n : Nat} (hoff : front.length = off)
    (hn : field.length = n) : slice (front ++ (field ++ rest)) off n = field := by
  rw [slice, ← hoff, List.drop_left, ← hn, List.take_left]

/-- What is read at the start of a front that is followed by the block. -/
theorem slice_zero_append_front (front rest : List Byte) {block : List Byte} {i : Nat}
    (hi : i < block.length) :
    (slice (front ++ (block ++ rest)) 0 block.length)[i]? =
      if i < front.length then front[i]? else block[i - front.length]? := by
  rw [slice, List.drop_zero, List.getElem?_take_of_lt hi]
  split
  · rename_i h
    exact List.getElem?_append_left h
  · rename_i h
    rw [List.getElem?_append_right (Nat.le_of_not_lt h), List.getElem?_append_left (by omega)]

/-- Reading the block from the start of its front gives the block only when the
block is the front, over and over. -/
theorem slice_front_eq_iff {front block rest : List Byte} (hfront : 0 < front.length) :
    slice (front ++ (block ++ rest)) 0 block.length = block ↔
      ∀ i < block.length, block[i]? = front[i % front.length]? := by
  constructor
  · intro h i
    induction i using Nat.strong_induction_on with
    | _ i ih =>
        intro hi
        have hread := slice_zero_append_front front rest hi
        rw [h] at hread
        rw [hread]
        split
        · rename_i hlt
          rw [Nat.mod_eq_of_lt hlt]
        · rename_i hge
          rw [ih (i - front.length) (by omega) (by omega), ← Nat.mod_eq_sub_mod (by omega)]
  · intro h
    apply List.ext_getElem?
    intro i
    by_cases hi : i < block.length
    · rw [slice_zero_append_front front rest hi, h i hi]
      split
      · rename_i hlt
        rw [Nat.mod_eq_of_lt hlt]
      · rw [h (i - front.length) (by omega), ← Nat.mod_eq_sub_mod (by omega)]
    · have hlen : (slice (front ++ (block ++ rest)) 0 block.length).length ≤ i := by
        rw [slice, List.length_take]
        omega
      rw [List.getElem?_eq_none hlen, List.getElem?_eq_none (Nat.le_of_not_lt hi)]

end Bytes

end Foundation
