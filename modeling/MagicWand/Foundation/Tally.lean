import Mathlib.Algebra.BigOperators.Group.Finset.Basic
import Mathlib.Algebra.BigOperators.Group.Finset.Piecewise
import Mathlib.Algebra.Order.BigOperators.Group.Finset

/-!
# Tallies over a family of threads

`tally n f` adds up a quantity that each of `n` threads contributes. A step of
one thread changes one summand, and `tally_change` says by how much the total
moves, in a form that linear arithmetic can use.
-/

namespace Foundation

open Finset

@[irreducible] def tally (n : Nat) (f : Nat → Nat) : Nat := ∑ w ∈ range n, f w

theorem tally_congr {n : Nat} {f f' : Nat → Nat} (h : ∀ w < n, f' w = f w) :
    tally n f' = tally n f := by
  rw [tally, tally]
  exact sum_congr rfl fun w hw => h w (mem_range.mp hw)

/-- Only one summand differs. -/
theorem sum_change {ι : Type} [DecidableEq ι] {s : Finset ι} {i : ι} (hi : i ∈ s) {f k : ι → Nat}
    (heq : ∀ j, j ≠ i → k j = f j) : ∑ j ∈ s, k j + f i = ∑ j ∈ s, f j + k i := by
  have hrest : ∑ j ∈ s.erase i, k j = ∑ j ∈ s.erase i, f j :=
    sum_congr rfl fun j hj => heq j (ne_of_mem_erase hj)
  calc ∑ j ∈ s, k j + f i
      = (k i + ∑ j ∈ s.erase i, k j) + f i := by rw [add_sum_erase _ _ hi]
    _ = (f i + ∑ j ∈ s.erase i, f j) + k i := by rw [hrest]; omega
    _ = ∑ j ∈ s, f j + k i := by rw [add_sum_erase _ _ hi]

/-- Only the summand of thread `w` differs. -/
theorem tally_change {n w : Nat} {f k : Nat → Nat} (hw : w < n)
    (heq : ∀ v, v ≠ w → k v = f v) : tally n k + f w = tally n f + k w := by
  rw [tally, tally]
  exact sum_change (mem_range.mpr hw) heq

theorem le_tally {n w : Nat} (f : Nat → Nat) (hw : w < n) : f w ≤ tally n f := by
  rw [tally]
  exact single_le_sum (fun _ _ => Nat.zero_le _) (mem_range.mpr hw)

/-- Two threads contribute to one total. -/
theorem add_le_tally {n v w : Nat} (f : Nat → Nat) (hv : v < n) (hw : w < n) (hne : v ≠ w) :
    f v + f w ≤ tally n f := by
  have hmem : v ∈ (range n).erase w := mem_erase.mpr ⟨hne, mem_range.mpr hv⟩
  have hle : f v ≤ ∑ u ∈ (range n).erase w, f u :=
    single_le_sum (f := f) (fun _ _ => Nat.zero_le _) hmem
  calc f v + f w ≤ f w + ∑ u ∈ (range n).erase w, f u := by omega
    _ = tally n f := by rw [tally, add_sum_erase _ _ (mem_range.mpr hw)]

theorem tally_eq_zero {n : Nat} {f : Nat → Nat} (h : ∀ w < n, f w = 0) : tally n f = 0 := by
  rw [tally]
  exact sum_eq_zero fun w hw => h w (mem_range.mp hw)

theorem exists_pos_of_tally_pos {n : Nat} {f : Nat → Nat} (h : 0 < tally n f) :
    ∃ w < n, 0 < f w := by
  by_contra hno
  push Not at hno
  have := tally_eq_zero (f := f) fun w hw => Nat.le_zero.mp (hno w hw)
  omega

/-- Two quantities that the threads contribute are added up separately. -/
theorem tally_add (n : Nat) (f k : Nat → Nat) :
    tally n (fun w => f w + k w) = tally n f + tally n k := by
  rw [tally, tally, tally]
  exact sum_add_distrib

/-- One thread contributes one. -/
theorem tally_single {n w : Nat} (hw : w < n) : tally n (fun v => if v = w then 1 else 0) = 1 := by
  rw [tally, sum_ite_eq' (range n) w fun _ => 1, if_pos (mem_range.mpr hw)]

theorem tally_one (n : Nat) : tally n (fun _ => 1) = n := by
  simp [tally]

end Foundation
