import Mathlib.Data.List.Basic
import Mathlib.Data.Nat.ModEq
import Mathlib.Logic.Function.Basic

/-!
# Circular buffers

The cells of a circular buffer of capacity `cap` that are in use form a window:
`len` cells from `start` on, indices taken modulo `cap`. Writing the cell after
the window appends to it, and moving `start` on by one drops its head. The
cells outside the window are unrestricted.
-/

namespace Foundation

namespace CircularBuffer

variable {α : Type}

/-- The contents of the window, oldest first. -/
def window (items : Nat → α) (cap start len : Nat) : List α :=
  (List.range len).map fun i => items ((start + i) % cap)

@[simp] theorem length_window (items : Nat → α) (cap start len : Nat) :
    (window items cap start len).length = len := by
  simp [window]

theorem window_eq_nil_iff (items : Nat → α) (cap start len : Nat) :
    window items cap start len = [] ↔ len = 0 := by
  rw [← List.length_eq_zero_iff, length_window]

/-- Two positions of one window never share a cell. -/
theorem index_ne {cap start i j : Nat} (hij : i < j) (hj : j < cap) :
    (start + i) % cap ≠ (start + j) % cap := by
  intro h
  have hmod : i ≡ j [MOD cap] := Nat.ModEq.add_left_cancel' start h
  have : i = j := by
    rw [Nat.ModEq, Nat.mod_eq_of_lt (hij.trans hj), Nat.mod_eq_of_lt hj] at hmod
    exact hmod
  omega

/-- Writing the first free cell appends to the window. -/
theorem window_push (items : Nat → α) {cap start len : Nat} (hlen : len < cap) (x : α) :
    window (Function.update items ((start + len) % cap) x) cap start (len + 1) =
      window items cap start len ++ [x] := by
  simp only [window, List.range_succ, List.map_append, List.map_cons, List.map_nil]
  congr 1
  · apply List.map_congr_left
    intro i hi
    exact Function.update_of_ne (index_ne (List.mem_range.mp hi) hlen) _ _
  · simp

/-- The head of the window is the cell at `start`; the rest is the window from
the next cell on. -/
theorem window_pop (items : Nat → α) (cap start len : Nat) :
    window items cap start (len + 1) =
      items (start % cap) :: window items cap ((start + 1) % cap) len := by
  simp only [window, List.range_succ_eq_map, List.map_cons, List.map_map, Nat.add_zero]
  congr 1
  apply List.map_congr_left
  intro i _
  show items ((start + (i + 1)) % cap) = items (((start + 1) % cap + i) % cap)
  rw [Nat.mod_add_mod, Nat.add_assoc, Nat.add_comm 1 i]

end CircularBuffer

end Foundation
